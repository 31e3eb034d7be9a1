import Hab.HabDevices
import Hab.Library.StatusLoop

/-!
# Generating the pchans (`hab_generate_pchan_list`)

The settings table has a row for each VM and in it a column for each group of mmids.  Three
loops, one in the other, go over the rows, the columns and the devices of a group, and ask
the hypervisor layer for one pchan each time.
-/

namespace Hab

namespace Generation

structure LocalVmid where
  self : ℤ
  /-- `vmid_mmid_list[i].vmid`. -/
  vmid : ℕ → ℤ
  /-- `vmid_mmid_list[i].mmid[j]`. -/
  mmid : ℕ → ℕ → ℤ
  /-- `vmid_mmid_list[i].is_listener[j]`. -/
  isListener : ℕ → ℕ → ℤ

/-- A call of `habhyp_commdev_alloc`, with the row and the column it is made for. -/
structure PchanAttempt where
  row : ℕ
  column : ℕ
  /-- `habdev->id`. -/
  dev : UInt32
  vmidLocal : ℤ
  vmidRemote : ℤ
  isBe : ℤ
deriving DecidableEq

/-- How each call of `habhyp_commdev_alloc` ends: 0, or the number of an error. -/
abbrev CommdevAlloc := PchanAttempt → ℕ

def LocalVmid.attempt (settings : LocalVmid) (i j : ℕ) (dev : UInt32) : PchanAttempt where
  row := i
  column := j
  dev := dev
  vmidLocal := settings.self
  vmidRemote := settings.vmid i
  isBe := settings.isListener i j

/-- `-EINVAL`. -/
def einval : ℤ := -22

/-- `hab_initialize_pchan_entry`: what it returns, and the attempts. -/
def habInitializePchanEntry (alloc : CommdevAlloc) (settings : LocalVmid) (i j : ℕ)
    (dev : Option UInt32) : ℤ × List PchanAttempt :=
  match dev with
  | none => (einval, [])
  | some dev => (-(alloc (settings.attempt i j dev) : ℤ), [settings.attempt i j dev])

def habGeneratePchanGroup (alloc : CommdevAlloc) (settings : LocalVmid) (i j : ℕ)
    (group : MmidGroup) : ℤ × List PchanAttempt :=
  (List.range' (group.first + 1) (group.last - (group.first + 1))).foldl
    (fun acc k ↦
      let entry := habInitializePchanEntry alloc settings i j (findHabDevice (UInt32.ofNat k))
      (acc.1 + entry.1, acc.2 ++ entry.2))
    (0, [])

/-- The group that the `switch` of `hab_generate_pchan` takes. -/
def LocalVmid.group (settings : LocalVmid) (i j : ℕ) : Option MmidGroup :=
  mmidGroups.find? fun group ↦ ((group.first / 100 : ℕ) : ℤ) = settings.mmid i j

def habGeneratePchan (alloc : CommdevAlloc) (settings : LocalVmid) (i j : ℕ) :
    ℤ × List PchanAttempt :=
  match settings.group i j with
  | none => (0, [])
  | some group => habGeneratePchanGroup alloc settings i j group

def habGeneratePchanList (alloc : CommdevAlloc) (settings : LocalVmid) :
    ℤ × List PchanAttempt :=
  (List.range habcfgVmidMax).foldl
    (fun acc i ↦
      if settings.vmid i ≠ habcfgVmidInvalid ∧ settings.vmid i ≠ settings.self then
        (List.range' 1 habcfgMmidAreaMax).foldl
          (fun acc j ↦
            if settings.mmid i j ≠ habcfgVmidInvalid then
              let generated := habGeneratePchan alloc settings i j
              (generated.1, acc.2 ++ generated.2)
            else acc)
          acc
      else acc)
    (0, [])

/-! ## What is to be attempted -/

/-- The columns of a row that are enabled. -/
def LocalVmid.columns (settings : LocalVmid) (i : ℕ) : List ℕ :=
  (List.range' 1 habcfgMmidAreaMax).filter fun j ↦ settings.mmid i j ≠ habcfgVmidInvalid

/-- The rows of the other VMs. -/
def LocalVmid.rows (settings : LocalVmid) : List ℕ :=
  (List.range habcfgVmidMax).filter fun i ↦
    settings.vmid i ≠ habcfgVmidInvalid ∧ settings.vmid i ≠ settings.self

/-- Rows and columns in the order of the loops. -/
def LocalVmid.enabled (settings : LocalVmid) : List (ℕ × ℕ) :=
  settings.rows.flatMap fun i ↦ (settings.columns i).map fun j ↦ (i, j)

/-- One pchan for each device of the group in a row and a column. -/
def LocalVmid.groupAttempts (settings : LocalVmid) (i j : ℕ) : List PchanAttempt :=
  match settings.group i j with
  | none => []
  | some group => group.ids.map fun k ↦ settings.attempt i j (UInt32.ofNat k)

def LocalVmid.attempts (settings : LocalVmid) : List PchanAttempt :=
  settings.enabled.flatMap fun place ↦ settings.groupAttempts place.1 place.2

/-- The attempts in the row and the column that the loops come to last. -/
def LocalVmid.lastAttempts (settings : LocalVmid) : List PchanAttempt :=
  settings.enabled.getLast?.elim [] fun place ↦ settings.groupAttempts place.1 place.2

variable {alloc : CommdevAlloc} {settings : LocalVmid} {i j : ℕ}

theorem LocalVmid.mem_enabled :
    (i, j) ∈ settings.enabled ↔
      (i < habcfgVmidMax ∧ settings.vmid i ≠ habcfgVmidInvalid ∧
          settings.vmid i ≠ settings.self) ∧
        (1 ≤ j ∧ j ≤ habcfgMmidAreaMax) ∧ settings.mmid i j ≠ habcfgVmidInvalid := by
  have hcolumns : ∀ i, j ∈ settings.columns i ↔
      (1 ≤ j ∧ j ≤ habcfgMmidAreaMax) ∧ settings.mmid i j ≠ habcfgVmidInvalid := by
    intro i
    have hrange : 1 ≤ j ∧ j < 1 + habcfgMmidAreaMax ↔ 1 ≤ j ∧ j ≤ habcfgMmidAreaMax := by omega
    rw [columns, List.mem_filter, List.mem_range'_1, hrange, decide_eq_true_iff]
  rw [enabled, List.mem_flatMap]
  constructor
  · rintro ⟨row, hrow, hplace⟩
    obtain ⟨column, hcolumn, heq⟩ := List.mem_map.mp hplace
    cases heq
    rw [rows, List.mem_filter, List.mem_range, decide_eq_true_iff] at hrow
    exact ⟨hrow, (hcolumns i).mp hcolumn⟩
  · rintro ⟨hrow, hcolumn⟩
    refine ⟨i, ?_, List.mem_map.mpr ⟨j, (hcolumns i).mpr hcolumn, rfl⟩⟩
    rw [rows, List.mem_filter, List.mem_range, decide_eq_true_iff]
    exact hrow

theorem LocalVmid.group_eq_some_iff {group : MmidGroup} :
    settings.group i j = some group ↔
      group ∈ mmidGroups ∧ ((group.first / 100 : ℕ) : ℤ) = settings.mmid i j := by
  have hdistinct : ∀ a ∈ mmidGroups, ∀ b ∈ mmidGroups, a.first / 100 = b.first / 100 → a = b := by
    decide
  constructor
  · intro h
    exact ⟨List.mem_of_find?_eq_some h, by simpa using List.find?_some h⟩
  · rintro ⟨hmem, heq⟩
    have hsome : (settings.group i j).isSome :=
      List.find?_isSome.mpr ⟨group, hmem, by simpa using heq⟩
    obtain ⟨other, hother⟩ := Option.isSome_iff_exists.mp hsome
    have hfound : ((other.first / 100 : ℕ) : ℤ) = settings.mmid i j := by
      simpa using List.find?_some hother
    have hsame : other.first / 100 = group.first / 100 := by
      have hcast := hfound.trans heq.symm
      exact_mod_cast hcast
    rw [hother, hdistinct other (List.mem_of_find?_eq_some hother) group hmem hsame]

theorem LocalVmid.mem_groupAttempts {attempt : PchanAttempt} :
    attempt ∈ settings.groupAttempts i j ↔
      ∃ group ∈ mmidGroups, ((group.first / 100 : ℕ) : ℤ) = settings.mmid i j ∧
        ∃ k, (group.first < k ∧ k < group.last) ∧
          attempt = settings.attempt i j (UInt32.ofNat k) := by
  unfold groupAttempts
  cases hgroup : settings.group i j with
  | none =>
      refine iff_of_false List.not_mem_nil ?_
      rintro ⟨group, hmem, hmmid, -⟩
      rw [group_eq_some_iff.mpr ⟨hmem, hmmid⟩] at hgroup
      exact absurd hgroup (Option.some_ne_none group)
  | some group =>
      rw [List.mem_map]
      constructor
      · rintro ⟨k, hk, rfl⟩
        obtain ⟨hmem, hmmid⟩ := group_eq_some_iff.mp hgroup
        exact ⟨group, hmem, hmmid, k, MmidGroup.mem_ids.mp hk, rfl⟩
      · rintro ⟨other, hmem, hmmid, k, hk, rfl⟩
        rw [group_eq_some_iff.mpr ⟨hmem, hmmid⟩] at hgroup
        cases hgroup
        exact ⟨k, MmidGroup.mem_ids.mpr hk, rfl⟩

/-! ## The loops -/

theorem habInitializePchanEntry_eq (alloc : CommdevAlloc) (settings : LocalVmid) (i j : ℕ)
    {group : MmidGroup} (hgroup : group ∈ mmidGroups) {k : ℕ} (hk : k ∈ group.ids) :
    habInitializePchanEntry alloc settings i j (findHabDevice (UInt32.ofNat k)) =
      (-(alloc (settings.attempt i j (UInt32.ofNat k)) : ℤ),
        [settings.attempt i j (UInt32.ofNat k)]) := by
  rw [findHabDevice_of_mem_ids hgroup hk]
  rfl

theorem habGeneratePchan_spec (alloc : CommdevAlloc) (settings : LocalVmid) (i j : ℕ) :
    (habGeneratePchan alloc settings i j).2 = settings.groupAttempts i j ∧
      ((habGeneratePchan alloc settings i j).1 = 0 ↔
        ∀ attempt ∈ settings.groupAttempts i j, alloc attempt = 0) := by
  unfold habGeneratePchan LocalVmid.groupAttempts
  cases hgroup : settings.group i j with
  | none => simp
  | some group =>
      obtain ⟨hmem, -⟩ := LocalVmid.group_eq_some_iff.mp hgroup
      have hloop : habGeneratePchanGroup alloc settings i j group =
          StatusLoop.summing (fun k ↦ habInitializePchanEntry alloc settings i j
            (findHabDevice (UInt32.ofNat k))) group.ids (0, []) := rfl
      have hentry : ∀ k ∈ group.ids, _ := fun k hk ↦
        habInitializePchanEntry_eq alloc settings i j hmem hk
      simp only
      rw [hloop]
      constructor
      · rw [StatusLoop.summing_snd, List.nil_append, List.map_eq_flatMap]
        exact List.flatMap_congr fun k hk ↦ congrArg Prod.snd (hentry k hk)
      · rw [StatusLoop.summing_eq_zero_iff, List.forall_mem_map]
        · refine forall₂_congr fun k hk ↦ ?_
          rw [hentry k hk]
          simp only
          omega
        · intro k hk
          rw [hentry k hk]
          simp only
          omega

/-- The status of the list is the one that was assigned last. -/
theorem habGeneratePchanList_eq (alloc : CommdevAlloc) (settings : LocalVmid) :
    habGeneratePchanList alloc settings =
      StatusLoop.assigning (fun place ↦ habGeneratePchan alloc settings place.1 place.2)
        settings.enabled (0, []) := by
  rw [StatusLoop.assigning, LocalVmid.enabled, List.foldl_flatMap, LocalVmid.rows,
    List.foldl_filter]
  simp only [List.foldl_map, LocalVmid.columns, List.foldl_filter, decide_eq_true_eq]
  rfl

/-- The loops attempt what they are to attempt. -/
theorem habGeneratePchanList_snd (alloc : CommdevAlloc) (settings : LocalVmid) :
    (habGeneratePchanList alloc settings).2 = settings.attempts := by
  rw [habGeneratePchanList_eq, StatusLoop.assigning_snd, List.nil_append]
  exact List.flatMap_congr fun place _ ↦ (habGeneratePchan_spec alloc settings place.1 place.2).1

/-- What they return is about the last place only. -/
theorem habGeneratePchanList_fst_eq_zero_iff (alloc : CommdevAlloc) (settings : LocalVmid) :
    (habGeneratePchanList alloc settings).1 = 0 ↔
      ∀ attempt ∈ settings.lastAttempts, alloc attempt = 0 := by
  rw [habGeneratePchanList_eq, StatusLoop.assigning_fst, LocalVmid.lastAttempts]
  cases settings.enabled.getLast? with
  | none => simp
  | some place => exact (habGeneratePchan_spec alloc settings place.1 place.2).2

/-! ## No attempt is made twice -/

theorem LocalVmid.enabled_nodup : settings.enabled.Nodup := by
  have hrows : settings.rows.Nodup := List.nodup_range.filter _
  have hcolumns : ∀ i, (settings.columns i).Nodup := fun i ↦ List.Nodup.filter _ List.nodup_range'
  rw [enabled, List.nodup_flatMap]
  constructor
  · intro i _
    exact (hcolumns i).map fun _ _ heq ↦ (Prod.mk.inj heq).2
  · refine hrows.imp fun hne ↦ ?_
    intro place ha hb
    obtain ⟨j, -, rfl⟩ := List.mem_map.mp ha
    obtain ⟨k, -, heq⟩ := List.mem_map.mp hb
    exact hne (Prod.mk.inj heq).1.symm

theorem LocalVmid.groupAttempts_nodup : (settings.groupAttempts i j).Nodup := by
  have hsmall : ∀ group ∈ mmidGroups, ∀ k ∈ group.ids, k < 2 ^ 32 := by decide
  unfold groupAttempts
  cases hgroup : settings.group i j with
  | none => exact List.nodup_nil
  | some group =>
      obtain ⟨hmem, -⟩ := group_eq_some_iff.mp hgroup
      refine List.Nodup.map_on ?_ List.nodup_range'
      intro k hk l hl heq
      have hdev : UInt32.ofNat k = UInt32.ofNat l := congrArg PchanAttempt.dev heq
      have hnat := congrArg UInt32.toNat hdev
      rwa [UInt32.toNat_ofNat', UInt32.toNat_ofNat', Nat.mod_eq_of_lt (hsmall group hmem k hk),
        Nat.mod_eq_of_lt (hsmall group hmem l hl)] at hnat

theorem LocalVmid.place_of_mem_groupAttempts {attempt : PchanAttempt}
    (h : attempt ∈ settings.groupAttempts i j) : attempt.row = i ∧ attempt.column = j := by
  obtain ⟨group, -, -, k, -, rfl⟩ := mem_groupAttempts.mp h
  exact ⟨rfl, rfl⟩

theorem LocalVmid.attempts_nodup : settings.attempts.Nodup := by
  rw [attempts, List.nodup_flatMap]
  refine ⟨fun place _ ↦ groupAttempts_nodup, ?_⟩
  refine settings.enabled_nodup.imp fun hne ↦ ?_
  intro attempt ha hb
  obtain ⟨hrow, hcolumn⟩ := place_of_mem_groupAttempts ha
  obtain ⟨hrow', hcolumn'⟩ := place_of_mem_groupAttempts hb
  exact hne (Prod.ext (hrow.symm.trans hrow') (hcolumn.symm.trans hcolumn'))

/-- An attempt for each row of another VM, each enabled column of it and each device id
strictly between the ends of the group in that column. -/
theorem LocalVmid.mem_attempts {attempt : PchanAttempt} :
    attempt ∈ settings.attempts ↔
      ∃ i j, (i < habcfgVmidMax ∧ settings.vmid i ≠ habcfgVmidInvalid ∧
          settings.vmid i ≠ settings.self) ∧
        ((1 ≤ j ∧ j ≤ habcfgMmidAreaMax) ∧ settings.mmid i j ≠ habcfgVmidInvalid) ∧
        ∃ group ∈ mmidGroups, ((group.first / 100 : ℕ) : ℤ) = settings.mmid i j ∧
          ∃ k, (group.first < k ∧ k < group.last) ∧
            attempt = settings.attempt i j (UInt32.ofNat k) := by
  rw [attempts, List.mem_flatMap]
  constructor
  · rintro ⟨⟨i, j⟩, hplace, hattempt⟩
    obtain ⟨hrow, hcolumn⟩ := mem_enabled.mp hplace
    exact ⟨i, j, hrow, hcolumn, mem_groupAttempts.mp hattempt⟩
  · rintro ⟨i, j, hrow, hcolumn, hattempt⟩
    exact ⟨(i, j), mem_enabled.mpr ⟨hrow, hcolumn⟩, mem_groupAttempts.mpr hattempt⟩

/-! ## What is reported -/

/-- Each pchan is attempted once, no other is, and 0 is returned only if all attempts
succeeded. -/
def Reports (alloc : CommdevAlloc) (settings : LocalVmid) : Prop :=
  (habGeneratePchanList alloc settings).2.Nodup ∧
    (∀ attempt, attempt ∈ (habGeneratePchanList alloc settings).2 ↔
      ∃ i j, (i < habcfgVmidMax ∧ settings.vmid i ≠ habcfgVmidInvalid ∧
          settings.vmid i ≠ settings.self) ∧
        ((1 ≤ j ∧ j ≤ habcfgMmidAreaMax) ∧ settings.mmid i j ≠ habcfgVmidInvalid) ∧
        ∃ group ∈ mmidGroups, ((group.first / 100 : ℕ) : ℤ) = settings.mmid i j ∧
          ∃ k, (group.first < k ∧ k < group.last) ∧
            attempt = settings.attempt i j (UInt32.ofNat k)) ∧
    ((habGeneratePchanList alloc settings).1 = 0 →
      ∀ attempt ∈ (habGeneratePchanList alloc settings).2, alloc attempt = 0)

/-- The attempts are the right ones; a failure is reported exactly if the group that comes
last has one too. -/
theorem reports_iff (alloc : CommdevAlloc) (settings : LocalVmid) :
    Reports alloc settings ↔
      ((∃ attempt ∈ settings.attempts, alloc attempt ≠ 0) →
        ∃ attempt ∈ settings.lastAttempts, alloc attempt ≠ 0) := by
  rw [Reports, habGeneratePchanList_snd, habGeneratePchanList_fst_eq_zero_iff]
  constructor
  · rintro ⟨-, -, hreports⟩ ⟨attempt, hmem, hfails⟩
    by_contra hlast
    have hzero : ∀ attempt ∈ settings.lastAttempts, alloc attempt = 0 := by
      intro attempt hattempt
      by_contra hne
      exact hlast ⟨attempt, hattempt, hne⟩
    exact hfails (hreports hzero attempt hmem)
  · intro h
    refine ⟨settings.attempts_nodup, fun attempt ↦ LocalVmid.mem_attempts, ?_⟩
    intro hzero attempt hmem
    by_contra hfails
    obtain ⟨other, hother, hne⟩ := h ⟨attempt, hmem, hfails⟩
    exact hne (hzero other hother)

/-- The audio group fails and the misc group behind it does not. -/
theorem not_forall_reports : ¬ ∀ alloc settings, Reports alloc settings := by
  intro h
  have hreports := (h (fun attempt ↦ if attempt.dev = 101 then 12 else 0)
    { self := 2
      vmid := fun i ↦ if i = 0 then 0 else habcfgVmidInvalid
      mmid := fun _ j ↦ if j = 1 ∨ j = 6 then j else habcfgVmidInvalid
      isListener := fun _ _ ↦ 0 }).2.2
  exact absurd (hreports (by decide)
    ⟨0, 1, 101, 2, 0, 0⟩ (by decide)) (by decide)

end Generation

end Hab
