import Mathlib.Logic.Function.Basic
import Hab.HabDevices
import Hab.Library.Runs
import Hab.Library.SlotTable

/-!
# The device tables of the vhost nodes (`hypervisor/virtio/hab_vhost.c`)

For each remote vm there is a node for all areas and one for each group of mmids.  A node
lists the devices that were added for its vm; `vhost_hab_open` goes through that list up to
the first free slot.
-/

namespace Hab

namespace VhostTables

open SlotTable

/-- A pointer into `hab_devices`. -/
abbrev HabDevice := Fin habDeviceIds.length

/-- A vmid that the parser of the config lets through. -/
abbrev Vmid := Fin habcfgVmidMax

def mmidOf (habdev : HabDevice) : ℕ := (habDeviceIds.get habdev).toNat

def habcfgMmidNum : ℕ := 26

def habMmidAllArea : ℕ := 0

/-- `struct vhost_hab_cdev`. -/
structure Cdev where
  habdevs : List (Option HabDevice)
  length_habdevs : habdevs.length = habcfgMmidNum

/-- As `kzalloc` hands it out. -/
def Cdev.zeroed : Cdev where
  habdevs := List.replicate habcfgMmidNum none
  length_habdevs := List.length_replicate

def Cdev.add (cdev : Cdev) (habdev : HabDevice) : Cdev where
  habdevs := place habdev cdev.habdevs
  length_habdevs := by rw [length_place, cdev.length_habdevs]

def Cdev.del (cdev : Cdev) (habdev : HabDevice) : Cdev where
  habdevs := clear habdev cdev.habdevs
  length_habdevs := by rw [length_clear, cdev.length_habdevs]

/-- `vh_cdevs` of `struct vhost_hab`. -/
abbrev VhCdevs := ℕ → Option Cdev

def cdevIndex (domainId : ℕ) (vmidRemote : Vmid) : ℕ :=
  (habcfgMmidAreaMax + 1) * vmidRemote + domainId

/-- `get_cdev`, where `created` says whether a node that is not there can be made:
`kzalloc`, `cdev_add` and `device_create` all succeed. -/
def getCdev (created : Bool) (domainId : ℕ) (vmidRemote : Vmid) (vhCdevs : VhCdevs) :
    Option Cdev × VhCdevs :=
  match vhCdevs (cdevIndex domainId vmidRemote) with
  | some cdev => (some cdev, vhCdevs)
  | none =>
      if created then
        (some Cdev.zeroed,
          Function.update vhCdevs (cdevIndex domainId vmidRemote) (some Cdev.zeroed))
      else (none, vhCdevs)

def addHabDeviceToCdev (created : Bool) (mmid : ℕ) (habdev : HabDevice) (vmidRemote : Vmid)
    (vhCdevs : VhCdevs) : ℤ × VhCdevs :=
  match getCdev created (mmid / 100) vmidRemote vhCdevs with
  | (none, vhCdevs) => (-19, vhCdevs)
  | (some cdev, vhCdevs) =>
      let vhCdevs :=
        Function.update vhCdevs (cdevIndex (mmid / 100) vmidRemote) (some (cdev.add habdev))
      -- where the search stopped, against `hab_driver.ndevices`
      if habDeviceIds.length ≤ cdev.habdevs.findIdx Option.isNone then (-22, vhCdevs)
      else (0, vhCdevs)

def delHabDeviceFromCdev (mmid : ℕ) (habdev : HabDevice) (vmidRemote : Vmid)
    (vhCdevs : VhCdevs) : VhCdevs :=
  match vhCdevs (cdevIndex (mmid / 100) vmidRemote) with
  | none => vhCdevs
  | some cdev =>
      let destroy := cdev.habdevs.all fun slot ↦ slot = some habdev ∨ slot = none
      Function.update vhCdevs (cdevIndex (mmid / 100) vmidRemote)
        (if destroy then none else some (cdev.del habdev))

def vhostHabCdevAddHabDevice (createdAll createdGroup : Bool) (habdev : HabDevice)
    (vmidRemote : Vmid) (vhCdevs : VhCdevs) : ℤ × VhCdevs :=
  match addHabDeviceToCdev createdAll habMmidAllArea habdev vmidRemote vhCdevs with
  | (0, vhCdevs) =>
      match addHabDeviceToCdev createdGroup (mmidOf habdev) habdev vmidRemote vhCdevs with
      | (0, vhCdevs) => (0, vhCdevs)
      | (ret, vhCdevs) =>
          (ret, delHabDeviceFromCdev habMmidAllArea habdev vmidRemote vhCdevs)
  | (ret, vhCdevs) => (ret, vhCdevs)

def vhostHabCdevDelHabDevice (habdev : HabDevice) (vmidRemote : Vmid) (vhCdevs : VhCdevs) :
    VhCdevs :=
  delHabDeviceFromCdev habMmidAllArea habdev vmidRemote
    (delHabDeviceFromCdev (mmidOf habdev) habdev vmidRemote vhCdevs)

/-- The slots of a node; a node that is not there has none. -/
def slots (vhCdevs : VhCdevs) (k : ℕ) : List (Option HabDevice) :=
  match vhCdevs k with
  | none => []
  | some cdev => cdev.habdevs

/-- The devices that `vhost_hab_open` comes to in the node. -/
def visited (vhCdevs : VhCdevs) (domainId : ℕ) (vmidRemote : Vmid) : List HabDevice :=
  scan (slots vhCdevs (cdevIndex domainId vmidRemote))

/-! ## What one table does -/

/-- A slot is free, or the device has one. -/
def HasRoom (habdev : HabDevice) (vhCdevs : VhCdevs) (k : ℕ) : Prop :=
  some habdev ∈ slots vhCdevs k ∨ none ∈ ((vhCdevs k).getD Cdev.zeroed).habdevs

instance (habdev : HabDevice) (vhCdevs : VhCdevs) (k : ℕ) :
    Decidable (HasRoom habdev vhCdevs k) := inferInstanceAs (Decidable (_ ∨ _))

variable {vhCdevs : VhCdevs} {habdev d : HabDevice} {mmid k : ℕ} {vmidRemote : Vmid}
variable {created : Bool}

/-- The bound that the search is held against is never reached: there are fewer slots than
devices. -/
theorem findIdx_lt (cdev : Cdev) :
    cdev.habdevs.findIdx Option.isNone < habDeviceIds.length := by
  have hle : cdev.habdevs.findIdx Option.isNone ≤ cdev.habdevs.length := List.findIdx_le_length
  rw [cdev.length_habdevs] at hle
  exact Nat.lt_of_le_of_lt hle (by decide)

/-- The table with the device in the first free slot of a node, which is there afterwards. -/
def addAt (k : ℕ) (habdev : HabDevice) (vhCdevs : VhCdevs) : VhCdevs :=
  Function.update vhCdevs k (some (((vhCdevs k).getD Cdev.zeroed).add habdev))

/-- The node of the table is there, or can be made. -/
def Obtains (created : Bool) (vhCdevs : VhCdevs) (k : ℕ) : Prop :=
  (vhCdevs k).isSome ∨ created = true

instance (created : Bool) (vhCdevs : VhCdevs) (k : ℕ) : Decidable (Obtains created vhCdevs k) :=
  inferInstanceAs (Decidable (_ ∨ _))

theorem addHabDeviceToCdev_of_obtains (hget : Obtains created vhCdevs k)
    (hk : cdevIndex (mmid / 100) vmidRemote = k) :
    addHabDeviceToCdev created mmid habdev vmidRemote vhCdevs =
      (0, addAt k habdev vhCdevs) := by
  rw [addHabDeviceToCdev, getCdev, addAt, hk]
  rw [Obtains] at hget
  cases hcdev : vhCdevs k with
  | some cdev => simp only [Nat.not_le_of_gt (findIdx_lt cdev), if_false, Option.getD_some]
  | none =>
      rw [hcdev] at hget
      rw [if_pos (hget.resolve_left (by simp))]
      simp only [Nat.not_le_of_gt (findIdx_lt Cdev.zeroed), if_false, Option.getD_none,
        Function.update_idem]

theorem addHabDeviceToCdev_of_not_obtains (hget : ¬ Obtains created vhCdevs k)
    (hk : cdevIndex (mmid / 100) vmidRemote = k) :
    addHabDeviceToCdev created mmid habdev vmidRemote vhCdevs = (-19, vhCdevs) := by
  obtain ⟨hnone, hcreated⟩ := not_or.mp hget
  rw [addHabDeviceToCdev, getCdev, hk, Option.not_isSome_iff_eq_none.mp hnone,
    if_neg hcreated]

theorem slots_update (vhCdevs : VhCdevs) (k : ℕ) (cdev : Option Cdev) (k' : ℕ) :
    slots (Function.update vhCdevs k cdev) k' =
      if k' = k then (match cdev with | none => [] | some cdev => cdev.habdevs)
      else slots vhCdevs k' := by
  rw [slots, Function.update_apply]
  split_ifs <;> rfl

theorem mem_zeroed_iff : some d ∈ ((vhCdevs k).getD Cdev.zeroed).habdevs ↔
    some d ∈ slots vhCdevs k := by
  rw [slots]
  cases vhCdevs k with
  | some cdev => rfl
  | none => simp [Cdev.zeroed]

theorem visible_zeroed_iff : Visible ((vhCdevs k).getD Cdev.zeroed).habdevs ↔
    Visible (slots vhCdevs k) := by
  rw [slots]
  cases vhCdevs k with
  | some cdev => rfl
  | none =>
      refine iff_of_true ?_ ?_
      · exact visible_of_forall_not_mem fun y ↦ by simp [Cdev.zeroed]
      · exact visible_of_forall_not_mem fun y ↦ List.not_mem_nil

theorem mem_slots_addAt {k' : ℕ} : some d ∈ slots (addAt k habdev vhCdevs) k' ↔
    some d ∈ slots vhCdevs k' ∨
      k' = k ∧ d = habdev ∧ none ∈ ((vhCdevs k).getD Cdev.zeroed).habdevs := by
  rw [addAt, slots_update]
  split_ifs with hk
  · rw [hk, Cdev.add, mem_place_iff, mem_zeroed_iff]
    simp
  · simp [hk]

theorem visible_addAt {k' : ℕ} (h : Visible (slots vhCdevs k')) :
    Visible (slots (addAt k habdev vhCdevs) k') := by
  rw [addAt, slots_update]
  split_ifs with hk
  · rw [hk] at h
    exact (visible_zeroed_iff.mpr h).place habdev
  · exact h

/-- The slots of the device are freed, and the node goes if that leaves none taken. -/
theorem slots_del_self (mmid : ℕ) (habdev : HabDevice) (vmidRemote : Vmid)
    (vhCdevs : VhCdevs) :
    let k := cdevIndex (mmid / 100) vmidRemote
    slots (delHabDeviceFromCdev mmid habdev vmidRemote vhCdevs) k =
        clear habdev (slots vhCdevs k) ∨
      slots (delHabDeviceFromCdev mmid habdev vmidRemote vhCdevs) k = [] ∧
        ∀ d, some d ∉ clear habdev (slots vhCdevs k) := by
  intro k
  cases hcdev : vhCdevs k with
  | none =>
      have hslots : slots vhCdevs k = [] := by rw [slots, hcdev]
      have hdel : delHabDeviceFromCdev mmid habdev vmidRemote vhCdevs = vhCdevs := by
        rw [delHabDeviceFromCdev, hcdev]
      rw [hdel, hslots]
      exact Or.inl rfl
  | some cdev =>
      have hslots : slots vhCdevs k = cdev.habdevs := by rw [slots, hcdev]
      rw [delHabDeviceFromCdev, hcdev, hslots]
      simp only [slots_update]
      rw [if_pos rfl]
      split_ifs with hdestroy
      · refine Or.inr ⟨rfl, ?_⟩
        intro d hd
        obtain ⟨hd, hne⟩ := mem_clear_iff.mp hd
        have hslot := List.all_eq_true.mp hdestroy _ hd
        simp [hne] at hslot
      · exact Or.inl rfl

theorem slots_del_of_ne {k' : ℕ} (h : k' ≠ cdevIndex (mmid / 100) vmidRemote) :
    slots (delHabDeviceFromCdev mmid habdev vmidRemote vhCdevs) k' = slots vhCdevs k' := by
  rw [delHabDeviceFromCdev]
  cases vhCdevs (cdevIndex (mmid / 100) vmidRemote) with
  | none => rfl
  | some cdev =>
      simp only [slots_update]
      rw [if_neg h]

theorem mem_slots_del {k' : ℕ} :
    some d ∈ slots (delHabDeviceFromCdev mmid habdev vmidRemote vhCdevs) k' ↔
      some d ∈ slots vhCdevs k' ∧ (k' = cdevIndex (mmid / 100) vmidRemote → d ≠ habdev) := by
  by_cases hk : k' = cdevIndex (mmid / 100) vmidRemote
  · rw [hk, eq_self, true_imp_iff, ← mem_clear_iff]
    rcases slots_del_self mmid habdev vmidRemote vhCdevs with hslots | ⟨hslots, hnone⟩
    · rw [hslots]
    · rw [hslots]
      exact iff_of_false List.not_mem_nil (hnone d)
  · rw [slots_del_of_ne hk, iff_self_and]
    exact fun _ heq ↦ absurd heq hk

theorem visible_del_iff {k' : ℕ} :
    Visible (slots (delHabDeviceFromCdev mmid habdev vmidRemote vhCdevs) k') ↔
      if k' = cdevIndex (mmid / 100) vmidRemote then Behind habdev (slots vhCdevs k')
      else Visible (slots vhCdevs k') := by
  split_ifs with hk
  · rw [hk, ← visible_clear_iff]
    rcases slots_del_self mmid habdev vmidRemote vhCdevs with hslots | ⟨hslots, hnone⟩
    · rw [hslots]
    · rw [hslots]
      refine iff_of_true ?_ (visible_of_forall_not_mem hnone)
      exact visible_of_forall_not_mem fun d ↦ List.not_mem_nil
  · rw [slots_del_of_ne hk]

/-! ## Both tables of a device -/

def groupOf (habdev : HabDevice) : ℕ := mmidOf habdev / 100

/-- The node for all areas of a vm. -/
def allIndex (vmidRemote : Vmid) : ℕ := cdevIndex (habMmidAllArea / 100) vmidRemote

/-- The node of the device's group. -/
def groupIndex (habdev : HabDevice) (vmidRemote : Vmid) : ℕ :=
  cdevIndex (groupOf habdev) vmidRemote

theorem groupOf_bounds (habdev : HabDevice) :
    0 < groupOf habdev ∧ groupOf habdev ≤ habcfgMmidAreaMax := by
  have hall : ∀ d : HabDevice, 0 < groupOf d ∧ groupOf d ≤ habcfgMmidAreaMax := by decide
  exact hall habdev

theorem cdevIndex_inj {i j : ℕ} {v w : Vmid} (hi : i ≤ habcfgMmidAreaMax)
    (hj : j ≤ habcfgMmidAreaMax) : cdevIndex i v = cdevIndex j w ↔ i = j ∧ v = w := by
  rw [cdevIndex, cdevIndex, Fin.ext_iff]
  have hmax : habcfgMmidAreaMax = 16 := rfl
  rw [hmax] at hi hj ⊢
  omega

theorem allIndex_ne_groupIndex (habdev : HabDevice) (v w : Vmid) :
    allIndex v ≠ groupIndex habdev w := by
  obtain ⟨hpos, hle⟩ := groupOf_bounds habdev
  intro h
  have hzero := ((cdevIndex_inj (Nat.zero_le _) hle).mp h).1
  omega

variable {createdAll createdGroup : Bool}

theorem addAt_of_ne {k' : ℕ} (h : k' ≠ k) : addAt k habdev vhCdevs k' = vhCdevs k' := by
  rw [addAt, Function.update_of_ne h]

theorem obtains_addAt {k' : ℕ} (h : k' ≠ k) :
    Obtains created (addAt k habdev vhCdevs) k' ↔ Obtains created vhCdevs k' := by
  rw [Obtains, addAt_of_ne h, Obtains]

theorem add_of_obtains (hall : Obtains createdAll vhCdevs (allIndex vmidRemote))
    (hgroup : Obtains createdGroup vhCdevs (groupIndex habdev vmidRemote)) :
    vhostHabCdevAddHabDevice createdAll createdGroup habdev vmidRemote vhCdevs =
      (0, addAt (groupIndex habdev vmidRemote) habdev
        (addAt (allIndex vmidRemote) habdev vhCdevs)) := by
  have hne := (allIndex_ne_groupIndex habdev vmidRemote vmidRemote).symm
  rw [vhostHabCdevAddHabDevice, addHabDeviceToCdev_of_obtains hall rfl]
  simp only
  rw [addHabDeviceToCdev_of_obtains ((obtains_addAt hne).mpr hgroup) rfl]
  rfl

theorem add_of_not_obtains_all (hall : ¬ Obtains createdAll vhCdevs (allIndex vmidRemote)) :
    vhostHabCdevAddHabDevice createdAll createdGroup habdev vmidRemote vhCdevs =
      (-19, vhCdevs) := by
  rw [vhostHabCdevAddHabDevice, addHabDeviceToCdev_of_not_obtains hall rfl]
  rfl

theorem add_of_not_obtains_group (hall : Obtains createdAll vhCdevs (allIndex vmidRemote))
    (hgroup : ¬ Obtains createdGroup vhCdevs (groupIndex habdev vmidRemote)) :
    vhostHabCdevAddHabDevice createdAll createdGroup habdev vmidRemote vhCdevs =
      (-19, delHabDeviceFromCdev habMmidAllArea habdev vmidRemote
        (addAt (allIndex vmidRemote) habdev vhCdevs)) := by
  have hne := (allIndex_ne_groupIndex habdev vmidRemote vmidRemote).symm
  rw [vhostHabCdevAddHabDevice, addHabDeviceToCdev_of_obtains hall rfl]
  simp only
  rw [addHabDeviceToCdev_of_not_obtains (mt (obtains_addAt hne).mp hgroup) rfl]
  rfl

/-! ## Runs -/

/-- The tables, and for each vm the devices whose addition returned 0 and that were not
deleted since. -/
structure State where
  vhCdevs : VhCdevs
  added : Vmid → HabDevice → Bool

def State.initial : State where
  vhCdevs := fun _ ↦ none
  added := fun _ _ ↦ false

def setAdded (added : Vmid → HabDevice → Bool) (vmidRemote : Vmid) (habdev : HabDevice)
    (value : Bool) : Vmid → HabDevice → Bool :=
  Function.update added vmidRemote (Function.update (added vmidRemote) habdev value)

inductive Call where
  | add (createdAll createdGroup : Bool) (habdev : HabDevice) (vmidRemote : Vmid)
  | del (habdev : HabDevice) (vmidRemote : Vmid)

def State.call (s : State) : Call → State
  | .add createdAll createdGroup habdev vmidRemote =>
      match vhostHabCdevAddHabDevice createdAll createdGroup habdev vmidRemote s.vhCdevs with
      | (0, vhCdevs) =>
          { vhCdevs := vhCdevs, added := setAdded s.added vmidRemote habdev true }
      | (_, vhCdevs) => { s with vhCdevs := vhCdevs }
  | .del habdev vmidRemote =>
      { vhCdevs := vhostHabCdevDelHabDevice habdev vmidRemote s.vhCdevs,
        added := setAdded s.added vmidRemote habdev false }

def State.step (s : State) (c : Call) : Option State := some (s.call c)

/-- The device was added to the vm and belongs to the node with this `domain_id`. -/
def State.Belongs (s : State) (vmidRemote : Vmid) (domainId : ℕ) (habdev : HabDevice) : Prop :=
  s.added vmidRemote habdev = true ∧ (domainId = 0 ∨ domainId = groupOf habdev)

structure State.Complete (s : State) : Prop where
  /-- What was added has a slot in both tables. -/
  slots : ∀ vmidRemote habdev, s.added vmidRemote habdev = true →
    some habdev ∈ slots s.vhCdevs (allIndex vmidRemote) ∧
      some habdev ∈ slots s.vhCdevs (groupIndex habdev vmidRemote)
  /-- And `vhost_hab_open` comes to what was added, and to nothing else. -/
  visits : ∀ vmidRemote domainId habdev, domainId ≤ habcfgMmidAreaMax →
    (habdev ∈ visited s.vhCdevs domainId vmidRemote ↔ s.Belongs vmidRemote domainId habdev)

/-- An addition that gets its nodes finds room in both; a deletion finds each other device
of the two tables also in front of the one it deletes. -/
def State.Fits (s : State) : Call → Prop
  | .add createdAll createdGroup habdev vmidRemote =>
      Obtains createdAll s.vhCdevs (allIndex vmidRemote) →
        Obtains createdGroup s.vhCdevs (groupIndex habdev vmidRemote) →
          HasRoom habdev s.vhCdevs (allIndex vmidRemote) ∧
            HasRoom habdev s.vhCdevs (groupIndex habdev vmidRemote)
  | .del habdev vmidRemote =>
      Behind habdev (slots s.vhCdevs (allIndex vmidRemote)) ∧
        Behind habdev (slots s.vhCdevs (groupIndex habdev vmidRemote))

instance (s : State) : (c : Call) → Decidable (s.Fits c)
  | .add _ _ _ _ => inferInstanceAs (Decidable (_ → _ → _ ∧ _))
  | .del _ _ => inferInstanceAs (Decidable (_ ∧ _))

/-- No table lists what does not belong to it. -/
def State.Sound (s : State) : Prop :=
  ∀ vmidRemote domainId habdev, domainId ≤ habcfgMmidAreaMax →
    some habdev ∈ slots s.vhCdevs (cdevIndex domainId vmidRemote) →
      s.Belongs vmidRemote domainId habdev

/-- Each table lists what belongs to it, all of it in front of the first free slot. -/
structure State.Lists (s : State) : Prop where
  mem_iff : ∀ vmidRemote domainId habdev, domainId ≤ habcfgMmidAreaMax →
    (some habdev ∈ VhostTables.slots s.vhCdevs (cdevIndex domainId vmidRemote) ↔
      s.Belongs vmidRemote domainId habdev)
  visible : ∀ vmidRemote domainId, domainId ≤ habcfgMmidAreaMax →
    Visible (VhostTables.slots s.vhCdevs (cdevIndex domainId vmidRemote))

theorem State.Lists.complete {s : State} (h : s.Lists) : s.Complete where
  slots := by
    intro v d hadded
    refine ⟨(h.mem_iff v 0 d (Nat.zero_le _)).mpr ⟨hadded, Or.inl rfl⟩, ?_⟩
    exact (h.mem_iff v (groupOf d) d (groupOf_bounds d).2).mpr ⟨hadded, Or.inr rfl⟩
  visits := by
    intro v domainId d hle
    rw [visited, (h.visible v domainId hle).mem_scan_iff]
    exact h.mem_iff v domainId d hle

theorem State.Complete.lists {s : State} (h : s.Complete) (hsound : s.Sound) : s.Lists where
  mem_iff := by
    intro v domainId d hle
    refine ⟨hsound v domainId d hle, ?_⟩
    intro hbelongs
    exact mem_of_mem_scan ((h.visits v domainId d hle).mpr hbelongs)
  visible := by
    intro v domainId hle d hd
    exact (h.visits v domainId d hle).mpr (hsound v domainId d hle hd)

theorem complete_iff_lists {s : State} (hsound : s.Sound) : s.Complete ↔ s.Lists :=
  ⟨fun h ↦ h.lists hsound, State.Lists.complete⟩

/-! ## Steps -/

theorem mem_slots_addBoth {v : Vmid} :
    some d ∈ slots (addAt (groupIndex habdev v) habdev (addAt (allIndex v) habdev vhCdevs)) k ↔
      some d ∈ slots vhCdevs k ∨
        d = habdev ∧
          (k = allIndex v ∧ none ∈ ((vhCdevs (allIndex v)).getD Cdev.zeroed).habdevs ∨
            k = groupIndex habdev v ∧
              none ∈ ((vhCdevs (groupIndex habdev v)).getD Cdev.zeroed).habdevs) := by
  rw [mem_slots_addAt, mem_slots_addAt, addAt_of_ne (allIndex_ne_groupIndex habdev v v).symm]
  tauto

theorem mem_slots_delBoth {v : Vmid} :
    some d ∈ slots (vhostHabCdevDelHabDevice habdev v vhCdevs) k ↔
      some d ∈ slots vhCdevs k ∧ (k = groupIndex habdev v ∨ k = allIndex v → d ≠ habdev) := by
  rw [vhostHabCdevDelHabDevice, mem_slots_del, mem_slots_del, and_assoc, or_imp]
  rfl

theorem visible_delBoth_iff {v : Vmid} :
    Visible (slots (vhostHabCdevDelHabDevice habdev v vhCdevs) k) ↔
      if k = allIndex v ∨ k = groupIndex habdev v then Behind habdev (slots vhCdevs k)
      else Visible (slots vhCdevs k) := by
  have hdel : cdevIndex (habMmidAllArea / 100) v = allIndex v := rfl
  have hdelGroup : cdevIndex (mmidOf habdev / 100) v = groupIndex habdev v := rfl
  rw [vhostHabCdevDelHabDevice, visible_del_iff, hdel]
  by_cases hall : k = allIndex v
  · have hgroup : k ≠ groupIndex habdev v := by
      rw [hall]
      exact allIndex_ne_groupIndex habdev v v
    rw [if_pos hall, if_pos (Or.inl hall), slots_del_of_ne hgroup]
  · rw [if_neg hall, visible_del_iff, hdelGroup]
    by_cases hgroup : k = groupIndex habdev v
    · rw [if_pos hgroup, if_pos (Or.inr hgroup)]
    · rw [if_neg hgroup, if_neg (not_or.mpr ⟨hall, hgroup⟩)]

/-- A device that is added only to the first table is taken out of it again. -/
theorem mem_slots_undo {v : Vmid}
    (h : some d ∈ slots (delHabDeviceFromCdev habMmidAllArea habdev v
      (addAt (allIndex v) habdev vhCdevs)) k) : some d ∈ slots vhCdevs k := by
  obtain ⟨hd, hne⟩ := mem_slots_del.mp h
  rcases mem_slots_addAt.mp hd with hd | ⟨hk, heq, -⟩
  · exact hd
  · exact absurd heq (hne hk)

theorem mem_slots_undo_iff {v : Vmid} (hnew : some habdev ∉ slots vhCdevs (allIndex v)) :
    some d ∈ slots (delHabDeviceFromCdev habMmidAllArea habdev v
      (addAt (allIndex v) habdev vhCdevs)) k ↔ some d ∈ slots vhCdevs k := by
  refine ⟨mem_slots_undo, ?_⟩
  intro hd
  refine mem_slots_del.mpr ⟨mem_slots_addAt.mpr (Or.inl hd), ?_⟩
  rintro hk rfl
  rw [hk] at hd
  exact hnew hd

theorem visible_undo {v : Vmid} (hnew : some habdev ∉ slots vhCdevs (allIndex v))
    (h : Visible (slots vhCdevs k)) :
    Visible (slots (delHabDeviceFromCdev habMmidAllArea habdev v
      (addAt (allIndex v) habdev vhCdevs)) k) := by
  rw [visible_del_iff]
  split_ifs with hk
  · have hindex : k = allIndex v := hk
    rw [hindex] at h ⊢
    rw [addAt, slots_update, if_pos rfl, ← visible_clear_iff, Cdev.add,
      clear_place (mt mem_zeroed_iff.mp hnew), visible_zeroed_iff]
    exact h
  · exact visible_addAt h

theorem setAdded_apply (added : Vmid → HabDevice → Bool) (v w : Vmid) (d e : HabDevice)
    (value : Bool) :
    setAdded added v d value w e = if w = v ∧ e = d then value else added w e := by
  rw [setAdded, Function.update_apply]
  by_cases hw : w = v
  · subst hw
    rw [if_pos rfl, Function.update_apply]
    simp
  · rw [if_neg hw, if_neg fun h ↦ hw h.1]

theorem call_add_of_obtains {s : State} {v : Vmid}
    (hall : Obtains createdAll s.vhCdevs (allIndex v))
    (hgroup : Obtains createdGroup s.vhCdevs (groupIndex habdev v)) :
    s.call (.add createdAll createdGroup habdev v) =
      { vhCdevs := addAt (groupIndex habdev v) habdev (addAt (allIndex v) habdev s.vhCdevs),
        added := setAdded s.added v habdev true } := by
  rw [State.call, add_of_obtains hall hgroup]
  rfl

theorem call_add_of_not_obtains_all {s : State} {v : Vmid}
    (hall : ¬ Obtains createdAll s.vhCdevs (allIndex v)) :
    s.call (.add createdAll createdGroup habdev v) = s := by
  rw [State.call, add_of_not_obtains_all hall]
  rfl

theorem call_add_of_not_obtains_group {s : State} {v : Vmid}
    (hall : Obtains createdAll s.vhCdevs (allIndex v))
    (hgroup : ¬ Obtains createdGroup s.vhCdevs (groupIndex habdev v)) :
    s.call (.add createdAll createdGroup habdev v) =
      { vhCdevs := delHabDeviceFromCdev habMmidAllArea habdev v
          (addAt (allIndex v) habdev s.vhCdevs),
        added := s.added } := by
  rw [State.call, add_of_not_obtains_group hall hgroup]
  rfl

theorem belongs_setAdded_true {s : State} {t : VhCdevs} {v w : Vmid} {domainId : ℕ} :
    State.Belongs { vhCdevs := t, added := setAdded s.added v habdev true } w domainId d ↔
      s.Belongs w domainId d ∨
        (w = v ∧ d = habdev) ∧ (domainId = 0 ∨ domainId = groupOf habdev) := by
  simp only [State.Belongs, setAdded_apply]
  split_ifs with h
  · rw [h.2]
    tauto
  · tauto

theorem belongs_setAdded_false {s : State} {t : VhCdevs} {v w : Vmid} {domainId : ℕ} :
    State.Belongs { vhCdevs := t, added := setAdded s.added v habdev false } w domainId d ↔
      s.Belongs w domainId d ∧ ¬ (w = v ∧ d = habdev) := by
  simp only [State.Belongs, setAdded_apply]
  split_ifs with h
  · simp [h]
  · tauto

theorem index_iff (habdev : HabDevice) (v w : Vmid) {domainId : ℕ}
    (hle : domainId ≤ habcfgMmidAreaMax) :
    (cdevIndex domainId w = allIndex v ↔ domainId = 0 ∧ w = v) ∧
      (cdevIndex domainId w = groupIndex habdev v ↔ domainId = groupOf habdev ∧ w = v) :=
  ⟨cdevIndex_inj hle (Nat.zero_le _), cdevIndex_inj hle (groupOf_bounds habdev).2⟩

theorem State.Sound.call {s : State} (h : s.Sound) (c : Call) : (s.call c).Sound := by
  intro w domainId d hle hd
  have hold := h w domainId d hle
  cases c with
  | add createdAll createdGroup habdev v =>
      obtain ⟨hallIff, hgroupIff⟩ := index_iff habdev v w hle
      by_cases hall : Obtains createdAll s.vhCdevs (allIndex v)
      · by_cases hgroup : Obtains createdGroup s.vhCdevs (groupIndex habdev v)
        · rw [call_add_of_obtains hall hgroup] at hd ⊢
          rw [belongs_setAdded_true]
          rcases mem_slots_addBoth.mp hd with hd | ⟨hdev, ⟨hk, -⟩ | ⟨hk, -⟩⟩
          · exact Or.inl (hold hd)
          · exact Or.inr ⟨⟨(hallIff.mp hk).2, hdev⟩, Or.inl (hallIff.mp hk).1⟩
          · exact Or.inr ⟨⟨(hgroupIff.mp hk).2, hdev⟩, Or.inr (hgroupIff.mp hk).1⟩
        · rw [call_add_of_not_obtains_group hall hgroup] at hd ⊢
          exact hold (mem_slots_undo hd)
      · rw [call_add_of_not_obtains_all hall] at hd ⊢
        exact hold hd
  | del habdev v =>
      obtain ⟨hallIff, hgroupIff⟩ := index_iff habdev v w hle
      obtain ⟨hmem, hne⟩ := mem_slots_delBoth.mp hd
      refine belongs_setAdded_false.mpr ⟨hold hmem, ?_⟩
      rintro ⟨rfl, rfl⟩
      rcases (hold hmem).2 with hzero | hgroup
      · exact hne (Or.inr (hallIff.mpr ⟨hzero, rfl⟩)) rfl
      · exact hne (Or.inl (hgroupIff.mpr ⟨hgroup, rfl⟩)) rfl

theorem State.Lists.add_of_room {s : State} (h : s.Lists) {v : Vmid}
    (hall : Obtains createdAll s.vhCdevs (allIndex v))
    (hgroup : Obtains createdGroup s.vhCdevs (groupIndex habdev v))
    (hroom : HasRoom habdev s.vhCdevs (allIndex v))
    (hroomGroup : HasRoom habdev s.vhCdevs (groupIndex habdev v)) :
    (s.call (.add createdAll createdGroup habdev v)).Lists := by
  rw [call_add_of_obtains hall hgroup]
  refine ⟨?_, ?_⟩
  · intro w domainId d hle
    obtain ⟨hallIff, hgroupIff⟩ := index_iff habdev v w hle
    have hold := h.mem_iff w domainId d hle
    rw [belongs_setAdded_true, ← hold, mem_slots_addBoth, hallIff, hgroupIff]
    constructor
    · tauto
    · rintro (hd | ⟨⟨rfl, rfl⟩, rfl | rfl⟩)
      · exact Or.inl hd
      · rcases hroom with hd | hfree
        · exact Or.inl hd
        · exact Or.inr ⟨rfl, Or.inl ⟨⟨rfl, rfl⟩, hfree⟩⟩
      · rcases hroomGroup with hd | hfree
        · exact Or.inl hd
        · exact Or.inr ⟨rfl, Or.inr ⟨⟨rfl, rfl⟩, hfree⟩⟩
  · intro w domainId hle
    exact visible_addAt (visible_addAt (h.visible w domainId hle))

/-- The device cannot have been added before: there would be a node for its group. -/
theorem State.Lists.add_of_not_obtains_group {s : State} (h : s.Lists) {v : Vmid}
    (hall : Obtains createdAll s.vhCdevs (allIndex v))
    (hgroup : ¬ Obtains createdGroup s.vhCdevs (groupIndex habdev v)) :
    (s.call (.add createdAll createdGroup habdev v)).Lists := by
  rw [call_add_of_not_obtains_group hall hgroup]
  have hnew : some habdev ∉ VhostTables.slots s.vhCdevs (allIndex v) := by
    intro hd
    have hbelongs := (h.mem_iff v 0 habdev (Nat.zero_le _)).mp hd
    have hmem : some habdev ∈ VhostTables.slots s.vhCdevs (groupIndex habdev v) :=
      (h.mem_iff v (groupOf habdev) habdev (groupOf_bounds habdev).2).mpr
        ⟨hbelongs.1, Or.inr rfl⟩
    obtain ⟨hnone, -⟩ := not_or.mp hgroup
    rw [VhostTables.slots, Option.not_isSome_iff_eq_none.mp hnone] at hmem
    exact absurd hmem List.not_mem_nil
  refine ⟨?_, ?_⟩
  · intro w domainId d hle
    rw [mem_slots_undo_iff hnew, h.mem_iff w domainId d hle]
    rfl
  · intro w domainId hle
    exact visible_undo hnew (h.visible w domainId hle)

theorem State.Lists.del_iff {s : State} (h : s.Lists) {v : Vmid} :
    (s.call (.del habdev v)).Lists ↔ s.Fits (.del habdev v) := by
  constructor
  · intro hlists
    have hall := (visible_delBoth_iff (k := allIndex v)).mp (hlists.visible v 0 (Nat.zero_le _))
    have hgroup := (visible_delBoth_iff (k := groupIndex habdev v)).mp
      (hlists.visible v (groupOf habdev) (groupOf_bounds habdev).2)
    rw [if_pos (Or.inl rfl)] at hall
    rw [if_pos (Or.inr rfl)] at hgroup
    exact ⟨hall, hgroup⟩
  · rintro ⟨hall, hgroup⟩
    refine ⟨?_, ?_⟩
    · intro w domainId d hle
      obtain ⟨hallIff, hgroupIff⟩ := index_iff habdev v w hle
      have hold := h.mem_iff w domainId d hle
      refine mem_slots_delBoth.trans (Iff.trans ?_ belongs_setAdded_false.symm)
      rw [hold, hallIff, hgroupIff, and_congr_right_iff]
      rintro ⟨-, hdomain⟩
      constructor
      · rintro hdel ⟨rfl, rfl⟩
        rcases hdomain with hzero | hgroup
        · exact hdel (Or.inr ⟨hzero, rfl⟩) rfl
        · exact hdel (Or.inl ⟨hgroup, rfl⟩) rfl
      · rintro hdel (⟨-, rfl⟩ | ⟨-, rfl⟩) rfl
        · exact hdel ⟨rfl, rfl⟩
        · exact hdel ⟨rfl, rfl⟩
    · intro w domainId hle
      refine visible_delBoth_iff.mpr ?_
      split_ifs with hk
      · rcases hk with hk | hk
        · rw [hk]
          exact hall
        · rw [hk]
          exact hgroup
      · exact h.visible w domainId hle

theorem State.Complete.hasRoom {s : State} {v : Vmid}
    (hall : Obtains createdAll s.vhCdevs (allIndex v))
    (hgroup : Obtains createdGroup s.vhCdevs (groupIndex habdev v))
    (h : (s.call (.add createdAll createdGroup habdev v)).Complete) :
    HasRoom habdev s.vhCdevs (allIndex v) ∧ HasRoom habdev s.vhCdevs (groupIndex habdev v) := by
  have hne := allIndex_ne_groupIndex habdev v v
  rw [call_add_of_obtains hall hgroup] at h
  have hadded : setAdded s.added v habdev true v habdev = true := by
    rw [setAdded_apply, if_pos ⟨rfl, rfl⟩]
  obtain ⟨hmem, hmemGroup⟩ := h.slots v habdev hadded
  constructor
  · rcases mem_slots_addBoth.mp hmem with hd | ⟨-, ⟨-, hfree⟩ | ⟨hk, -⟩⟩
    · exact Or.inl hd
    · exact Or.inr hfree
    · exact absurd hk hne
  · rcases mem_slots_addBoth.mp hmemGroup with hd | ⟨-, ⟨hk, -⟩ | ⟨-, hfree⟩⟩
    · exact Or.inl hd
    · exact absurd hk hne.symm
    · exact Or.inr hfree

theorem State.Complete.call_iff {s : State} (hsound : s.Sound) (h : s.Complete) (c : Call) :
    (s.call c).Complete ↔ s.Fits c := by
  have hlists := h.lists hsound
  cases c with
  | add createdAll createdGroup habdev v =>
      constructor
      · intro hcomplete hall hgroup
        exact hcomplete.hasRoom hall hgroup
      · intro hfits
        by_cases hall : Obtains createdAll s.vhCdevs (allIndex v)
        · by_cases hgroup : Obtains createdGroup s.vhCdevs (groupIndex habdev v)
          · obtain ⟨hroom, hroomGroup⟩ := hfits hall hgroup
            exact (hlists.add_of_room hall hgroup hroom hroomGroup).complete
          · exact (hlists.add_of_not_obtains_group hall hgroup).complete
        · rw [call_add_of_not_obtains_all hall]
          exact h
  | del habdev v => rw [complete_iff_lists (hsound.call _), hlists.del_iff]

theorem State.lists_initial : State.initial.Lists where
  mem_iff := by
    intro v domainId d hle
    refine iff_of_false List.not_mem_nil ?_
    rintro ⟨hadded, -⟩
    exact Bool.false_ne_true hadded
  visible := by
    intro v domainId hle
    exact visible_of_forall_not_mem fun d ↦ List.not_mem_nil

def mmAud1 : HabDevice := ⟨0, Nat.zero_lt_succ 29⟩

def mmAud2 : HabDevice := ⟨1, Nat.succ_lt_succ (Nat.zero_lt_succ 28)⟩

/-- The vm that has the default nodes. -/
def gvm : Vmid := ⟨2, Nat.succ_lt_succ (Nat.succ_lt_succ (Nat.zero_lt_succ 13))⟩

/-- The tables are complete in all states of a run exactly if each of its calls fits. -/
theorem complete_iff_fits (calls : List Call) :
    (∀ earlier, earlier <+: calls → ∀ s, Runs.exec State.step State.initial earlier = some s →
        s.Complete) ↔
      Runs.Meets State.step State.Fits State.initial calls := by
  refine Runs.forall_prefix_iff_meets (J := State.Sound) ?_ ?_ ?_ ?_ ?_
  · intro s c _ _ hstuck
    exact absurd hstuck (Option.some_ne_none (s.call c))
  · intro s c t hsound hstep
    cases hstep
    exact hsound.call c
  · intro s c t hsound hcomplete hstep
    cases hstep
    exact hcomplete.call_iff hsound c
  · intro v domainId d hle hd
    exact absurd hd List.not_mem_nil
  · exact State.lists_initial.complete

-- the last one may be deleted
example : Runs.Meets State.step State.Fits State.initial
    [.add true true mmAud1 gvm, .add true true mmAud2 gvm, .del mmAud2 gvm] := by decide

/-- Deleting the first of two devices hides the second. -/
theorem not_complete_after_del :
    ¬ ∀ s, Runs.exec State.step State.initial
        [.add true true mmAud1 gvm, .add true true mmAud2 gvm, .del mmAud1 gvm] = some s →
      s.Complete := by
  intro h
  have hvisits := (h _ rfl).visits gvm 0 mmAud2 (Nat.zero_le _)
  have hbelongs : mmAud2 ∈ visited _ 0 gvm := hvisits.mpr ⟨by decide, Or.inl rfl⟩
  exact absurd hbelongs (by decide)

end VhostTables

end Hab
