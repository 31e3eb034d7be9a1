import Mathlib.Data.Int.Notation
import Mathlib.Data.List.Nodup
import Mathlib.Tactic.Common

/-!
# The devices and groups of hab (`hab.c`, `habmmid.h`)

An mmid names a device in its lower half and a sub id above it.  The devices are grouped;
the ids of a group lie strictly between its `START` and its `END`, and `START / 100` is the
number of the group.
-/

namespace Hab

/-- `id` of the entries of `hab_devices`. -/
def habDeviceIds : List UInt32 :=
  [101, 102, 103, 104, 201, 202, 301, 302, 303, 304, 305, 401, 501, 502, 503, 601, 701, 801, 802,
    901, 1001, 1101, 1102, 1201, 1301, 1302, 1303, 1401, 1501, 1601]

def habMmidGetMajor (mmid : UInt32) : UInt32 := mmid &&& 0xFFFF

/-- `find_hab_device`; a device is known by its id. -/
def findHabDevice (mmId : UInt32) : Option UInt32 :=
  habDeviceIds.find? fun id ↦ id = habMmidGetMajor mmId

def habcfgVmidMax : ℕ := 16

def habcfgMmidAreaMax : ℕ := 1603 / 100

def habcfgVmidInvalid : ℤ := -1

/-- The `START` and the `END` of a group of mmids. -/
structure MmidGroup where
  first : ℕ
  last : ℕ
deriving DecidableEq

/-- From `MM_AUD` to `MM_GPCE`. -/
def mmidGroups : List MmidGroup :=
  [⟨100, 105⟩, ⟨200, 203⟩, ⟨300, 306⟩, ⟨400, 402⟩, ⟨500, 504⟩, ⟨600, 602⟩, ⟨700, 702⟩, ⟨800, 803⟩,
    ⟨900, 902⟩, ⟨1000, 1002⟩, ⟨1100, 1103⟩, ⟨1200, 1202⟩, ⟨1300, 1304⟩, ⟨1400, 1402⟩, ⟨1500, 1502⟩,
    ⟨1600, 1602⟩]

/-- The ids strictly between the ends of a group. -/
def MmidGroup.ids (group : MmidGroup) : List ℕ :=
  List.range' (group.first + 1) (group.last - (group.first + 1))

theorem MmidGroup.mem_ids {group : MmidGroup} {k : ℕ} :
    k ∈ group.ids ↔ group.first < k ∧ k < group.last := by
  rw [MmidGroup.ids, List.mem_range'_1]
  omega

theorem findHabDevice_eq_none_iff {mmId : UInt32} :
    findHabDevice mmId = none ↔ habMmidGetMajor mmId ∉ habDeviceIds := by
  rw [findHabDevice, List.find?_eq_none]
  constructor
  · intro h hmem
    exact h _ hmem (by simp)
  · intro h id hid heq
    have hmajor : id = habMmidGetMajor mmId := by simpa using heq
    exact h (hmajor ▸ hid)

theorem findHabDevice_of_mem_ids {group : MmidGroup} (hgroup : group ∈ mmidGroups) {k : ℕ}
    (hk : k ∈ group.ids) : findHabDevice (UInt32.ofNat k) = some (UInt32.ofNat k) := by
  have hall : ∀ group ∈ mmidGroups, ∀ k ∈ group.ids,
      findHabDevice (UInt32.ofNat k) = some (UInt32.ofNat k) := by decide
  exact hall group hgroup k hk

end Hab
