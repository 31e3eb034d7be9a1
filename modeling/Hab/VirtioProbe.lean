import Mathlib.Data.List.Pairwise
import Mathlib.Tactic.Common
import Hab.HabDevices
import Hab.Library.Runs

/-!
# Probing the virtio devices (`hypervisor/virtio/hab_virtio.c`)

A virtio device serves either all mmids or those of one group.  Probing one puts it on
`vhab_list`, unless the check of `virthab_pchan_avail_check` finds its first mmid in the
range of a device that is there; removing it takes it off.
-/

namespace Hab

namespace Probe

/-- What is read of `struct virtio_device`. -/
structure VirtioDevice where
  addr : UInt64
  /-- `id.device`. -/
  device : UInt32
  /-- It has `VIRTIO_F_VERSION_1`. -/
  version1 : Bool
deriving DecidableEq

/-- `struct virtio_hab`; `freed` and `failed` are not in the code. -/
structure VirtioHab where
  vdev : VirtioDevice
  mmidStart : UInt32
  mmidRange : ℕ
  /-- `cbs` is not NULL. -/
  cbs : Bool
  ready : Bool
  /-- It was given to `kfree`. -/
  freed : Bool
  /-- The probe that allocated it did not succeed. -/
  failed : Bool
deriving DecidableEq

/-- The mmids whose queues the device has. -/
def mmids (mmidStart : UInt32) (mmidRange : ℕ) : List UInt32 :=
  (habDeviceIds.drop (habDeviceIds.idxOf mmidStart)).take mmidRange

def VirtioHab.mmids (vh : VirtioHab) : List UInt32 := Probe.mmids vh.mmidStart vh.mmidRange

/-- The branch of `virthab_probe` that a device takes. -/
structure Request where
  /-- The mmid under which the device is stored in `vdev_tbl`. -/
  stored : Option UInt32
  mmidStart : UInt32
  mmidRange : ℕ

/-- The ids from `HAB_VIRTIO_DEVICE_ID_HAB` to `HAB_VIRTIO_DEVICE_ID_VIDEO`. -/
def deviceIdHab : UInt32 := 88
def deviceIdBufferq : UInt32 := 89
def deviceIdMisc : UInt32 := 90
def deviceIdAudio : UInt32 := 91
def deviceIdCamera : UInt32 := 92
def deviceIdDisplay : UInt32 := 93
def deviceIdGraphics : UInt32 := 94
def deviceIdVideo : UInt32 := 95

def request (device : UInt32) : Request :=
  if device = deviceIdHab then ⟨some 0, 101, habDeviceIds.length⟩
  else if device = deviceIdBufferq then ⟨some 1001, 1001, 1002 - 1000 - 1⟩
  else if device = deviceIdMisc then ⟨some 601, 601, 602 - 600 - 1⟩
  else if device = deviceIdAudio then ⟨some 101, 101, 105 - 100 - 1⟩
  else if device = deviceIdCamera then ⟨some 201, 201, 203 - 200 - 1⟩
  else if device = deviceIdDisplay then ⟨some 301, 301, 306 - 300 - 1⟩
  else if device = deviceIdGraphics then ⟨some 401, 401, 402 - 400 - 1⟩
  else if device = deviceIdVideo then ⟨some 501, 501, 504 - 500 - 1⟩
  else ⟨none, 0, 0⟩

def takenRangeCalc (mmidStart : UInt32) (mmidRange : ℕ) : UInt32 × UInt32 :=
  (List.range habDeviceIds.length).foldl
    (fun taken i ↦
      if mmidStart = habDeviceIds.getD i 0 then
        (mmidStart, habDeviceIds.getD (i + mmidRange - 1) 0)
      else taken)
    (0, 0)

/-- The new range starts in the one that is taken. -/
def startsIn (mmidStart takenStart : UInt32) (takenRange : ℕ) : Bool :=
  let taken := takenRangeCalc takenStart takenRange
  mmidStart ≥ taken.1 && mmidStart ≤ taken.2

def virthabPchanAvailCheck (id mmidStart : UInt32) : List VirtioHab → Bool
  | [] => true
  | vh :: rest =>
      if vh.vdev.device = id then false
      else if startsIn mmidStart vh.mmidStart vh.mmidRange then false
      else virthabPchanAvailCheck id mmidStart rest

/-- How the steps of a probe end: whether the allocations succeed, whether each device of
the range has a pchan, and what `virtio_find_vqs` and `virthab_queue_inbufs` return. -/
structure ProbeEnv where
  vh : Bool
  vqs : Bool
  cbs : Bool
  names : Bool
  vqpchans : Bool
  nameSlots : Bool
  pchans : Bool
  findVqs : ℤ
  queueInbufs : ℤ

/-- `virthab_alloc` with `virthab_alloc_mmid_device`; the entry is ready to be listed. -/
def virthabAlloc (env : ProbeEnv) (vdev : VirtioDevice) (mmidStart : UInt32) (mmidRange : ℕ) :
    Except ℤ VirtioHab :=
  if !env.vh then .error (-12)
  else if !env.vqs then .error (-12)
  -- after the allocation of `cbs` it is again `vqs` that is tested
  else if !env.vqs then .error (-12)
  else if !env.names then .error (-12)
  else if !env.vqpchans then .error (-12)
  else if !env.nameSlots then .error (-12)
  else
    .ok { vdev, mmidStart, mmidRange, cbs := env.cbs, ready := false, freed := false,
          failed := false }

/-- `virthab_init_vqs_pre`; nothing is returned when it writes through a NULL `cbs`. -/
def virthabInitVqsPre (vh : VirtioHab) : Option ℤ :=
  if findHabDevice vh.mmidStart = none then some (-19)
  else if habDeviceIds.idxOf vh.mmidStart + vh.mmidRange > habDeviceIds.length then some (-22)
  else if !vh.cbs && vh.mmidRange ≠ 0 then none
  else some 0

/-- `virthab_init_vqs_post` reads `hyp_data` through the NULL pchan of a device without
pchans, which `virthab_init_vqs_pre` has only reported. -/
def virthabInitVqsPost (env : ProbeEnv) (vh : VirtioHab) : Option ℤ :=
  if !env.pchans && vh.mmidRange ≠ 0 then none else some 0

def virthabInitVqs (env : ProbeEnv) (vh : VirtioHab) : Option ℤ :=
  match virthabInitVqsPre vh with
  | some 0 => if env.findVqs = 0 then virthabInitVqsPost env vh else some env.findVqs
  | ret => ret

structure State where
  vhabList : List VirtioHab
  /-- `mmid` and `vdev` of `vdev_tbl`. -/
  vdevTbl : List (UInt32 × Option VirtioDevice)

def virthabStoreVdev (mmid : UInt32) (vdev : VirtioDevice) :
    List (UInt32 × Option VirtioDevice) → List (UInt32 × Option VirtioDevice)
  | [] => []
  | row :: rest =>
      if row.1 = mmid then (mmid, some vdev) :: rest
      else row :: virthabStoreVdev mmid vdev rest

def State.store (s : State) (request : Request) (vdev : VirtioDevice) : State :=
  match request.stored with
  | none => s
  | some mmid => { s with vdevTbl := virthabStoreVdev mmid vdev s.vdevTbl }

/-- `list_add_tail`. -/
def State.add (s : State) (vh : VirtioHab) : State := { s with vhabList := s.vhabList ++ [vh] }

/-- `virthab_probe` from `virthab_init_vqs` on. -/
def virthabStart (env : ProbeEnv) (vh : VirtioHab) (s : State) : Option ℤ × State :=
  match virthabInitVqs env vh with
  | none => (none, s.add { vh with failed := true })
  | some 0 =>
      match env.queueInbufs with
      | 0 => (some 0, s.add { vh with ready := true })
      | ret => (some ret, s.add { vh with failed := true })
  -- `kfree(vh)`, which is still on the list
  | some err => (some err, s.add { vh with freed := true, failed := true })

/-- `virthab_probe`: what it returns, if it returns, and the lists. -/
def virthabProbe (env : ProbeEnv) (vdev : VirtioDevice) (s : State) : Option ℤ × State :=
  if !vdev.version1 then (some (-19), s)
  else
    let request := request vdev.device
    let s := s.store request vdev
    if !virthabPchanAvailCheck vdev.device request.mmidStart s.vhabList then (some (-22), s)
    else
      match virthabAlloc env vdev request.mmidStart request.mmidRange with
      | .error err => (some err, s)
      | .ok vh => virthabStart env vh s

/-- `virthab_remove`, for a device with an entry: that of `get_vh`. -/
def virthabRemove (vdev : VirtioDevice) (s : State) : State :=
  { s with vhabList := s.vhabList.eraseP fun vh ↦ vh.vdev = vdev }

inductive Call where
  | probe (env : ProbeEnv) (vdev : VirtioDevice)
  | remove (vdev : VirtioDevice)

/-- What a list with a freed entry is taken for, and what `virthab_remove` does to a device
that has none, the code leaves open. -/
def State.step (s : State) (c : Call) : Option State :=
  if s.vhabList.any fun vh ↦ vh.freed then none
  else
    match c with
    | .probe env vdev => some (virthabProbe env vdev s).2
    | .remove vdev =>
        if s.vhabList.any fun vh ↦ vh.vdev = vdev then some (virthabRemove vdev s) else none

def State.initial : State where
  vhabList := []
  vdevTbl := [0, 1001, 601, 101, 201, 301, 401, 501].map fun mmid ↦ (mmid, none)

/-- The entries are allocated, their probes did not fail, and no two share an mmid. -/
structure State.Clean (s : State) : Prop where
  allocated : ∀ vh ∈ s.vhabList, vh.freed = false
  probed : ∀ vh ∈ s.vhabList, vh.failed = false
  disjoint : s.vhabList.Pairwise fun a b ↦ List.Disjoint a.mmids b.mmids

/-! ## The ranges -/

/-- The device ids that `virthab_probe` knows. -/
def knownDevices : List UInt32 :=
  [deviceIdHab, deviceIdBufferq, deviceIdMisc, deviceIdAudio, deviceIdCamera, deviceIdDisplay,
    deviceIdGraphics, deviceIdVideo]

variable {vdev : VirtioDevice} {env : ProbeEnv} {device : UInt32}

theorem request_of_not_mem (h : device ∉ knownDevices) : request device = ⟨none, 0, 0⟩ := by
  simp only [knownDevices, List.mem_cons, List.not_mem_nil, or_false, not_or] at h
  simp only [request, h, if_false]

theorem request_of_mem (h : device ∈ knownDevices) :
    findHabDevice (request device).mmidStart ≠ none ∧
      habDeviceIds.idxOf (request device).mmidStart + (request device).mmidRange ≤
        habDeviceIds.length ∧
      (request device).mmidRange ≠ 0 := by
  have hall : knownDevices.all (fun device ↦
      findHabDevice (request device).mmidStart ≠ none ∧
        habDeviceIds.idxOf (request device).mmidStart + (request device).mmidRange ≤
          habDeviceIds.length ∧
        (request device).mmidRange ≠ 0) = true := by decide
  exact of_decide_eq_true (List.all_eq_true.mp hall device h)

/-- The mmids that a device asks for. -/
def wanted (device : UInt32) : List UInt32 :=
  mmids (request device).mmidStart (request device).mmidRange

/-- Among the groups, and between a group and a device with all mmids that is there, it is
enough to look at the first mmid. -/
theorem disjoint_wanted {a b : UInt32} (ha : a ∈ knownDevices) (hb : b ∈ knownDevices)
    (hne : a ≠ b) (hall : b ≠ deviceIdHab)
    (hstart : startsIn (request b).mmidStart (request a).mmidStart (request a).mmidRange = false) :
    List.Disjoint (wanted a) (wanted b) := by
  have hcases : knownDevices.all (fun a ↦ knownDevices.all fun b ↦
      a = b || b = deviceIdHab ||
        startsIn (request b).mmidStart (request a).mmidStart (request a).mmidRange ||
        (wanted a).all (· ∉ wanted b)) = true := by decide
  have hpair := List.all_eq_true.mp (List.all_eq_true.mp hcases a ha) b hb
  simp only [hne, hall, hstart, decide_false, Bool.false_or] at hpair
  intro mmid hmem
  have hnot := List.all_eq_true.mp hpair mmid hmem
  simpa using hnot

/-- A device with all mmids shares one with each other device. -/
theorem not_disjoint_wanted_hab {a : UInt32} (ha : a ∈ knownDevices) :
    ¬ List.Disjoint (wanted a) (wanted deviceIdHab) := by
  have hcases : knownDevices.all (fun a ↦
      (request a).mmidStart ∈ wanted a ∧ (request a).mmidStart ∈ wanted deviceIdHab) = true := by
    decide
  obtain ⟨hmem, hmemHab⟩ := of_decide_eq_true (List.all_eq_true.mp hcases a ha)
  exact fun hdisjoint ↦ hdisjoint hmem hmemHab

/-! ## What a probe leaves -/

theorem virthabPchanAvailCheck_iff {id mmidStart : UInt32} {vhabList : List VirtioHab} :
    virthabPchanAvailCheck id mmidStart vhabList = true ↔
      ∀ vh ∈ vhabList,
        vh.vdev.device ≠ id ∧ startsIn mmidStart vh.mmidStart vh.mmidRange = false := by
  induction vhabList with
  | nil => simp [virthabPchanAvailCheck]
  | cons vh rest ih =>
      rw [virthabPchanAvailCheck, List.forall_mem_cons, ← ih]
      split_ifs with hid hstart
      · simp [hid]
      · simp [hstart]
      · simp [hid, hstart]

/-- All tested allocations succeed. -/
def ProbeEnv.allocates (env : ProbeEnv) : Bool :=
  env.vh && env.vqs && env.names && env.vqpchans && env.nameSlots

theorem virthabAlloc_eq (env : ProbeEnv) (vdev : VirtioDevice) (mmidStart : UInt32)
    (mmidRange : ℕ) :
    virthabAlloc env vdev mmidStart mmidRange =
      if env.allocates then
        .ok { vdev, mmidStart, mmidRange, cbs := env.cbs, ready := false, freed := false,
              failed := false }
      else .error (-12) := by
  rw [virthabAlloc, ProbeEnv.allocates]
  cases env.vh <;> cases env.vqs <;> cases env.names <;> cases env.vqpchans <;>
    cases env.nameSlots <;> rfl

/-- What is left for a probe to succeed once its entry is listed. -/
def Succeeds (env : ProbeEnv) (vdev : VirtioDevice) : Prop :=
  env.cbs = true ∧ vdev.device ∈ knownDevices ∧ env.findVqs = 0 ∧ env.pchans = true ∧
    env.queueInbufs = 0

instance (env : ProbeEnv) (vdev : VirtioDevice) : Decidable (Succeeds env vdev) :=
  inferInstanceAs (Decidable (_ ∧ _ ∧ _ ∧ _ ∧ _))

/-- The probe gets as far as the list. -/
def State.Lists (s : State) (env : ProbeEnv) (vdev : VirtioDevice) : Prop :=
  vdev.version1 = true ∧
    virthabPchanAvailCheck vdev.device (request vdev.device).mmidStart s.vhabList = true ∧
    env.allocates = true

instance (s : State) (env : ProbeEnv) (vdev : VirtioDevice) : Decidable (s.Lists env vdev) :=
  inferInstanceAs (Decidable (_ ∧ _ ∧ _))

@[simp] theorem State.vhabList_store (s : State) (request : Request) (vdev : VirtioDevice) :
    (s.store request vdev).vhabList = s.vhabList := by
  rw [State.store]
  cases request.stored <;> rfl

theorem virthabInitVqs_of_mem {vh : VirtioHab} (h : device ∈ knownDevices)
    (hstart : vh.mmidStart = (request device).mmidStart)
    (hrange : vh.mmidRange = (request device).mmidRange) :
    virthabInitVqs env vh =
      if vh.cbs = false ∨ env.findVqs = 0 ∧ env.pchans = false then none
      else some env.findVqs := by
  obtain ⟨hfind, hle, hpos⟩ := request_of_mem h
  rw [← hstart] at hfind hle
  rw [← hrange] at hle hpos
  rw [virthabInitVqs, virthabInitVqsPre, if_neg hfind, if_neg (by omega), virthabInitVqsPost]
  cases vh.cbs with
  | false => simp [hpos]
  | true =>
      by_cases hzero : env.findVqs = 0
      · cases env.pchans <;> simp [hpos, hzero]
      · simp [hzero]

theorem virthabInitVqs_of_zero {vh : VirtioHab} (h : vh.mmidStart = 0) :
    virthabInitVqs env vh = some (-19) := by
  have hfind : findHabDevice 0 = none := by decide
  rw [virthabInitVqs, virthabInitVqsPre, h, if_pos hfind]
  rfl

/-- The entry as `virthab_alloc` lists it. -/
def allocated (env : ProbeEnv) (vdev : VirtioDevice) : VirtioHab :=
  { vdev, mmidStart := (request vdev.device).mmidStart,
    mmidRange := (request vdev.device).mmidRange, cbs := env.cbs, ready := false, freed := false,
    failed := false }

section Start

variable {vh : VirtioHab} {s : State}

theorem virthabStart_of_stuck (hinit : virthabInitVqs env vh = none) :
    (virthabStart env vh s).2 = s.add { vh with failed := true } := by
  rw [virthabStart, hinit]

theorem virthabStart_of_error {err : ℤ} (hinit : virthabInitVqs env vh = some err)
    (herr : err ≠ 0) :
    (virthabStart env vh s).2 = s.add { vh with freed := true, failed := true } := by
  rw [virthabStart, hinit]
  split
  next heq => cases heq
  next heq => exact absurd (Option.some.inj heq) herr
  next heq => rfl

theorem virthabStart_of_queue (hinit : virthabInitVqs env vh = some 0)
    (hqueue : env.queueInbufs ≠ 0) :
    (virthabStart env vh s).2 = s.add { vh with failed := true } := by
  rw [virthabStart, hinit]
  simp only

theorem virthabStart_of_ready (hinit : virthabInitVqs env vh = some 0)
    (hqueue : env.queueInbufs = 0) :
    (virthabStart env vh s).2 = s.add { vh with ready := true } := by
  rw [virthabStart, hinit, hqueue]
  rfl

end Start

/-- The entry that a probe leaves on the list. -/
def left (env : ProbeEnv) (vdev : VirtioDevice) : VirtioHab :=
  match virthabInitVqs env (allocated env vdev) with
  | none => { allocated env vdev with failed := true }
  | some err =>
      if err ≠ 0 then { allocated env vdev with freed := true, failed := true }
      else if env.queueInbufs ≠ 0 then { allocated env vdev with failed := true }
      else { allocated env vdev with ready := true }

theorem virthabStart_eq (env : ProbeEnv) (vdev : VirtioDevice) (s : State) :
    (virthabStart env (allocated env vdev) s).2 = s.add (left env vdev) := by
  rw [left]
  cases hinit : virthabInitVqs env (allocated env vdev) with
  | none => rw [virthabStart_of_stuck hinit]
  | some err =>
      by_cases herr : err = 0
      · rw [herr] at hinit
        by_cases hqueue : env.queueInbufs = 0
        · simp [virthabStart_of_ready hinit hqueue, herr, hqueue]
        · simp [virthabStart_of_queue hinit hqueue, herr, hqueue]
      · simp [virthabStart_of_error hinit herr, herr]

theorem left_range (env : ProbeEnv) (vdev : VirtioDevice) :
    (left env vdev).vdev = vdev ∧
      (left env vdev).mmidStart = (request vdev.device).mmidStart ∧
      (left env vdev).mmidRange = (request vdev.device).mmidRange := by
  rw [left]
  split
  · exact ⟨rfl, rfl, rfl⟩
  · split_ifs <;> exact ⟨rfl, rfl, rfl⟩

theorem freed_left (h : (left env vdev).failed = false) : (left env vdev).freed = false := by
  rw [left] at h ⊢
  split at h
  · cases h
  · split_ifs at h with herr hqueue
    rw [if_neg herr, if_neg hqueue]
    rfl

theorem virthabInitVqs_allocated (env : ProbeEnv) (vdev : VirtioDevice) :
    virthabInitVqs env (allocated env vdev) =
      if vdev.device ∈ knownDevices then
        if env.cbs = false ∨ env.findVqs = 0 ∧ env.pchans = false then none
        else some env.findVqs
      else some (-19) := by
  by_cases hknown : vdev.device ∈ knownDevices
  · rw [if_pos hknown]
    exact virthabInitVqs_of_mem hknown rfl rfl
  · rw [if_neg hknown]
    refine virthabInitVqs_of_zero ?_
    rw [allocated, request_of_not_mem hknown]

theorem failed_left_iff : (left env vdev).failed = false ↔ Succeeds env vdev := by
  rw [left, virthabInitVqs_allocated, Succeeds]
  by_cases hknown : vdev.device ∈ knownDevices
  · rw [if_pos hknown]
    by_cases hstuck : env.cbs = false ∨ env.findVqs = 0 ∧ env.pchans = false
    · rw [if_pos hstuck]
      refine iff_of_false (Bool.noConfusion ·) ?_
      rintro ⟨hcbs, -, hfind, hpchans, -⟩
      rcases hstuck with hno | ⟨-, hno⟩
      · exact absurd (hcbs.symm.trans hno) Bool.noConfusion
      · exact absurd (hpchans.symm.trans hno) Bool.noConfusion
    · rw [if_neg hstuck]
      rw [not_or, not_and, Bool.not_eq_false, Bool.not_eq_false] at hstuck
      obtain ⟨hcbs, hpchans⟩ := hstuck
      by_cases hfind : env.findVqs = 0
      · by_cases hqueue : env.queueInbufs = 0
        · simp [hknown, hcbs, hfind, hpchans hfind, hqueue, allocated]
        · simp [hqueue, hfind]
      · simp [hfind]
  · simp [hknown]

theorem vhabList_virthabProbe (env : ProbeEnv) (vdev : VirtioDevice) (s : State) :
    (virthabProbe env vdev s).2.vhabList =
      if s.Lists env vdev then s.vhabList ++ [left env vdev] else s.vhabList := by
  simp only [virthabProbe, virthabAlloc_eq, State.vhabList_store]
  by_cases hversion : vdev.version1 = true
  · by_cases havail : virthabPchanAvailCheck vdev.device (request vdev.device).mmidStart
        s.vhabList = true
    · by_cases halloc : env.allocates = true
      · have hlists : s.Lists env vdev := ⟨hversion, havail, halloc⟩
        have hstart := virthabStart_eq env vdev (s.store (request vdev.device) vdev)
        rw [allocated] at hstart
        simp [hversion, havail, halloc, hlists, hstart, State.add]
      · have hlists : ¬ s.Lists env vdev := fun h ↦ halloc h.2.2
        simp [hversion, havail, halloc, hlists]
    · have hlists : ¬ s.Lists env vdev := fun h ↦ havail h.2.1
      simp [hversion, havail, hlists]
  · have hlists : ¬ s.Lists env vdev := fun h ↦ hversion h.1
    simp [hversion, hlists]

/-! ## Runs -/

/-- A probe that gets as far as the list succeeds, and one of a device with all mmids finds
the list empty. -/
def State.Fits (s : State) : Call → Prop
  | .probe env vdev =>
      s.Lists env vdev → Succeeds env vdev ∧ (vdev.device = deviceIdHab → s.vhabList = [])
  | .remove _ => True

instance (s : State) : (c : Call) → Decidable (s.Fits c)
  | .probe _ _ => inferInstanceAs (Decidable (_ → _ ∧ (_ → _)))
  | .remove _ => inferInstanceAs (Decidable True)

/-- An entry has the range that its device asked for. -/
structure VirtioHab.Sound (vh : VirtioHab) : Prop where
  mmidStart_eq : vh.mmidStart = (request vh.vdev.device).mmidStart
  mmidRange_eq : vh.mmidRange = (request vh.vdev.device).mmidRange
  known : vh.failed = false → vh.vdev.device ∈ knownDevices

theorem VirtioHab.Sound.mmids_eq {vh : VirtioHab} (h : vh.Sound) :
    vh.mmids = wanted vh.vdev.device := by
  rw [VirtioHab.mmids, h.mmidStart_eq, h.mmidRange_eq, wanted]

theorem sound_left (env : ProbeEnv) (vdev : VirtioDevice) : (left env vdev).Sound := by
  obtain ⟨hvdev, hstart, hrange⟩ := left_range env vdev
  refine ⟨?_, ?_, ?_⟩
  · rw [hvdev, hstart]
  · rw [hvdev, hrange]
  · intro hfailed
    rw [hvdev]
    exact (failed_left_iff.mp hfailed).2.1

def State.Sound (s : State) : Prop := ∀ vh ∈ s.vhabList, vh.Sound

theorem step_probe {s t : State} (hstep : s.step (.probe env vdev) = some t) :
    t.vhabList = if s.Lists env vdev then s.vhabList ++ [left env vdev] else s.vhabList := by
  rw [State.step] at hstep
  split_ifs at hstep
  rw [← Option.some.inj hstep, vhabList_virthabProbe]

theorem step_remove {s t : State} (hstep : s.step (.remove vdev) = some t) :
    t.vhabList = s.vhabList.eraseP fun vh ↦ vh.vdev = vdev := by
  rw [State.step] at hstep
  split_ifs at hstep
  rw [← Option.some.inj hstep, virthabRemove]

theorem State.Sound.step {s t : State} {c : Call} (h : s.Sound) (hstep : s.step c = some t) :
    t.Sound := by
  intro vh hvh
  cases c with
  | probe env vdev =>
      rw [step_probe hstep] at hvh
      split_ifs at hvh
      · rcases List.mem_append.mp hvh with hold | hnew
        · exact h vh hold
        · rw [List.mem_singleton.mp hnew]
          exact sound_left env vdev
      · exact h vh hvh
  | remove vdev =>
      rw [step_remove hstep] at hvh
      exact h vh (List.mem_of_mem_eraseP hvh)

/-- Where no entry failed, the new one shares no mmid with them exactly if it is not the
one with all mmids. -/
theorem disjoint_left_iff {s : State} (hsound : s.Sound) (hclean : s.Clean)
    (hlists : s.Lists env vdev) (hsucceeds : Succeeds env vdev) :
    (∀ vh ∈ s.vhabList, List.Disjoint vh.mmids (left env vdev).mmids) ↔
      (vdev.device = deviceIdHab → s.vhabList = []) := by
  have hnew : (left env vdev).mmids = wanted vdev.device := by
    rw [(sound_left env vdev).mmids_eq, (left_range env vdev).1]
  rw [hnew]
  constructor
  · intro hdisjoint hall
    refine List.eq_nil_iff_forall_not_mem.mpr ?_
    intro vh hvh
    have hknown := (hsound vh hvh).known (hclean.probed vh hvh)
    have hshares := hdisjoint vh hvh
    rw [hall, (hsound vh hvh).mmids_eq] at hshares
    exact not_disjoint_wanted_hab hknown hshares
  · intro hempty vh hvh
    have hknown := (hsound vh hvh).known (hclean.probed vh hvh)
    obtain ⟨hne, hstart⟩ := virthabPchanAvailCheck_iff.mp hlists.2.1 vh hvh
    rw [(hsound vh hvh).mmids_eq]
    rw [(hsound vh hvh).mmidStart_eq, (hsound vh hvh).mmidRange_eq] at hstart
    refine disjoint_wanted hknown hsucceeds.2.1 hne ?_ hstart
    intro hall
    rw [hempty hall] at hvh
    exact absurd hvh List.not_mem_nil

theorem State.Clean.probe_iff {s t : State} (h : s.Clean) (hsound : s.Sound)
    (hstep : s.step (.probe env vdev) = some t) : t.Clean ↔ s.Fits (.probe env vdev) := by
  have hlist := step_probe hstep
  by_cases hlists : s.Lists env vdev
  · rw [if_pos hlists] at hlist
    have hleft : left env vdev ∈ t.vhabList := by
      rw [hlist]
      exact List.mem_append_right _ List.mem_cons_self
    constructor
    · intro hclean _
      have hsucceeds := failed_left_iff.mp (hclean.probed _ hleft)
      refine ⟨hsucceeds, (disjoint_left_iff hsound h hlists hsucceeds).mp ?_⟩
      have hdisjoint := hclean.disjoint
      rw [hlist, List.pairwise_append] at hdisjoint
      intro vh hvh
      exact hdisjoint.2.2 vh hvh _ List.mem_cons_self
    · intro hfits
      obtain ⟨hsucceeds, hempty⟩ := hfits hlists
      have hfailed := failed_left_iff.mpr hsucceeds
      refine ⟨?_, ?_, ?_⟩
      · rw [hlist, List.forall_mem_append]
        exact ⟨h.allocated, List.forall_mem_singleton.mpr (freed_left hfailed)⟩
      · rw [hlist, List.forall_mem_append]
        exact ⟨h.probed, List.forall_mem_singleton.mpr hfailed⟩
      · rw [hlist, List.pairwise_append]
        refine ⟨h.disjoint, List.pairwise_singleton _ _, ?_⟩
        intro vh hvh new hnew
        rw [List.mem_singleton.mp hnew]
        exact (disjoint_left_iff hsound h hlists hsucceeds).mpr hempty vh hvh
  · rw [if_neg hlists] at hlist
    refine iff_of_true ?_ fun hl ↦ absurd hl hlists
    refine ⟨?_, ?_, ?_⟩
    · rw [hlist]
      exact h.allocated
    · rw [hlist]
      exact h.probed
    · rw [hlist]
      exact h.disjoint

theorem State.Clean.remove {s t : State} (h : s.Clean) (hstep : s.step (.remove vdev) = some t) :
    t.Clean := by
  have hsublist : t.vhabList.Sublist s.vhabList := by
    rw [step_remove hstep]
    exact List.eraseP_sublist
  refine ⟨?_, ?_, h.disjoint.sublist hsublist⟩
  · exact fun vh hvh ↦ h.allocated vh (hsublist.subset hvh)
  · exact fun vh hvh ↦ h.probed vh (hsublist.subset hvh)

/-- From a list without a freed entry only a removal can be refused. -/
theorem State.Clean.fits_of_stuck {s : State} (h : s.Clean) {c : Call}
    (hstuck : s.step c = none) : s.Fits c := by
  have hany : s.vhabList.any (fun vh ↦ vh.freed) = false := by
    rw [List.any_eq_false]
    intro vh hvh
    rw [h.allocated vh hvh]
    exact Bool.false_ne_true
  cases c with
  | probe env vdev =>
      rw [State.step, hany] at hstuck
      exact absurd hstuck (Option.some_ne_none _)
  | remove vdev => trivial

def ProbeEnv.good : ProbeEnv where
  vh := true
  vqs := true
  cbs := true
  names := true
  vqpchans := true
  nameSlots := true
  pchans := true
  findVqs := 0
  queueInbufs := 0

/-- The entries are clean in all states of a run exactly if all probes of it fit. -/
theorem clean_iff_fits (calls : List Call) :
    (∀ earlier, earlier <+: calls → ∀ s, Runs.exec State.step State.initial earlier = some s →
        s.Clean) ↔
      Runs.Meets State.step State.Fits State.initial calls := by
  refine Runs.forall_prefix_iff_meets (J := State.Sound) ?_ ?_ ?_ ?_ ?_
  · intro s c _ hclean hstuck
    exact hclean.fits_of_stuck hstuck
  · intro s c t hsound hstep
    exact hsound.step hstep
  · intro s c t hsound hclean hstep
    cases c with
    | probe env vdev => exact hclean.probe_iff hsound hstep
    | remove vdev => exact iff_of_true (hclean.remove hstep) trivial
  · intro vh hvh
    exact absurd hvh List.not_mem_nil
  · exact ⟨by decide, by decide, List.Pairwise.nil⟩

-- that of a group is refused after it
example : Runs.Meets State.step State.Fits State.initial
    [.probe ProbeEnv.good ⟨1, deviceIdHab, true⟩,
      .probe ProbeEnv.good ⟨0, deviceIdMisc, true⟩] := by decide

/-- The device with all mmids is taken in after one of a group. -/
theorem not_clean_after_hab :
    ¬ ∀ s, Runs.exec State.step State.initial
        [.probe ProbeEnv.good ⟨0, deviceIdMisc, true⟩,
          .probe ProbeEnv.good ⟨1, deviceIdHab, true⟩] = some s → s.Clean := by
  intro h
  have hdisjoint := (h _ rfl).disjoint
  have hpair := (List.pairwise_cons.mp hdisjoint).1 _ List.mem_cons_self
  have hmem : (601 : UInt32) ∈ mmids 601 1 := by decide
  have hmemHab : (601 : UInt32) ∈ mmids 101 30 := by decide
  exact hpair hmem hmemHab

end Probe

end Hab
