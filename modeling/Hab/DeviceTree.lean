import Hab.Library.Writes
import Hab.PchanGeneration
import Mathlib.Data.List.TakeWhile

/-!
# From the device tree to the pchans (`hab_parser.c`, `do_hab_parse`)

The settings table is set to `HABCFG_VMID_INVALID` and filled from the groups of mmids in
the device tree.  If a property cannot be read, the default settings are written over what
was filled so far, and the pchans are generated from that.  A result `none` stands for an
access outside the table or the array of vmids.
-/

namespace Hab

namespace Generation

/-- What an `of_property_read` function returns when it fails. -/
structure OfError where
  code : ℤ
  negative : code < 0

/-- A child of the node `qcom,hab`. -/
structure MmidGrpNode where
  grpStartId : Except OfError UInt32
  role : Except OfError String
  remoteVmids : Except OfError (List UInt32)

structure HabNode where
  vmid : Except OfError UInt32
  children : List MmidGrpNode

/-- `-ENODEV`. -/
def enodev : ℤ := -19

namespace LocalVmid

/-- The table after `memset`. -/
def invalid : LocalVmid :=
  ⟨habcfgVmidInvalid, fun _ ↦ habcfgVmidInvalid, fun _ _ ↦ habcfgVmidInvalid,
    fun _ _ ↦ habcfgVmidInvalid⟩

/-- The table after `memset`, with the vmid of this VM. -/
def cleared (self : ℤ) : LocalVmid := { invalid with self := self }

def setVmid (settings : LocalVmid) (i : ℕ) : LocalVmid :=
  { settings with vmid := Function.update settings.vmid i i }

def setMmid (settings : LocalVmid) (i j : ℕ) (be : ℤ) : LocalVmid :=
  { settings with
    mmid := Function.update settings.mmid i (Function.update (settings.mmid i) j j)
    isListener :=
      Function.update settings.isListener i (Function.update (settings.isListener i) j be) }

end LocalVmid

/-- The columns that `mmid` and `is_listener` have. -/
def InRow (j : ℤ) : Prop := 0 ≤ j ∧ j ≤ habcfgMmidAreaMax

instance (j : ℤ) : Decidable (InRow j) := inferInstanceAs (Decidable (_ ∧ _))

/-- The inner loop of `fill_vmid_mmid_tbl`, over the columns of a row. -/
def fillColumns (be : ℤ) (i : ℕ) : LocalVmid → List ℤ → Option LocalVmid
  | settings, [] => some settings
  | settings, j :: columns =>
      if InRow j then fillColumns be i (settings.setMmid i j.toNat be) columns else none

/-- The outer loop. -/
def fillRows (be : ℤ) (columns : List ℤ) : LocalVmid → List ℤ → Option LocalVmid
  | settings, [] => some settings
  | settings, i :: rows =>
      if 0 ≤ i ∧ i < habcfgVmidMax then
        match fillColumns be i.toNat (settings.setVmid i.toNat) columns with
        | none => none
        | some settings => fillRows be columns settings rows
      else none

/-- The numbers from `start` on. -/
def numbersFrom (start range : ℤ) : List ℤ :=
  (List.range range.toNat).map fun k : ℕ ↦ start + (k : ℤ)

def fillVmidMmidTbl (settings : LocalVmid) (vmStart vmRange mmidStart mmidRange be : ℤ) :
    Option LocalVmid :=
  fillRows be (numbersFrom mmidStart mmidRange) settings (numbersFrom vmStart vmRange)

/-- `MM_AUD_START` and `MM_ID_MAX`. -/
def mmAudStart : ℤ := 100

def mmIdMax : ℤ := 1603

/-- `fill_default_gvm_settings`, in a host with `CONFIG_MSM_VHOST_HAB` and elsewhere. -/
def fillDefaultGvmSettings (vhost : Bool) (settings : LocalVmid) (vmid mmidStart mmidEnd : ℤ) :
    Option LocalVmid :=
  if vhost then
    fillVmidMmidTbl { settings with self := 0 } vmid 1 (mmidStart.tdiv 100)
      ((mmidEnd - mmidStart).tdiv 100 + 1) 1
  else
    fillVmidMmidTbl { settings with self := vmid } 0 1 (mmidStart.tdiv 100)
      ((mmidEnd - mmidStart).tdiv 100 + 1) 0

/-- The loop over the vmids of a group: what is returned, and the table. -/
def parseVmids (grpStartId be : ℤ) : LocalVmid → List UInt32 → Option (ℤ × LocalVmid)
  | settings, [] => some (0, settings)
  | settings, v :: vmids =>
      if habcfgVmidMax ≤ v.toNat then some (einval, settings)
      else
        (fillVmidMmidTbl settings v.toNat 1 (grpStartId.tdiv 100) 1 be).bind fun settings ↦
          parseVmids grpStartId be settings vmids

/-- `u32 vmids[16]`. -/
def vmidsMax : ℕ := 16

/-- What is read of a child. -/
structure MmidGrp where
  grpStartId : ℤ
  be : ℤ
  vmids : List UInt32

/-- The three properties of a child, in the order in which they are read. -/
def MmidGrpNode.read (node : MmidGrpNode) : Except OfError MmidGrp :=
  match node.grpStartId with
  | .error e => .error e
  | .ok grpStartId =>
      match node.role with
      | .error e => .error e
      | .ok role =>
          match node.remoteVmids with
          | .error e => .error e
          | .ok vmids => .ok ⟨grpStartId.toInt32.toInt, if role = "be" then 1 else 0, vmids⟩

/-- The loop over the children. -/
def parseChildren : LocalVmid → List MmidGrpNode → Option (ℤ × LocalVmid)
  | settings, [] => some (0, settings)
  | settings, node :: nodes =>
      match node.read with
      | .error e => some (e.code, settings)
      | .ok grp =>
          if vmidsMax < grp.vmids.length then none
          else
            match parseVmids grp.grpStartId grp.be settings grp.vmids with
            | none => none
            | some (result, settings) =>
                if result ≠ 0 then some (result, settings) else parseChildren settings nodes

/-- `hab_parse_dt`. -/
def habParseDt (settings : LocalVmid) (node : Option HabNode) : Option (ℤ × LocalVmid) :=
  match node with
  | none => some (enodev, settings)
  | some node =>
      match node.vmid with
      | .error e => some (e.code, settings)
      | .ok vmid => parseChildren { settings with self := vmid.toInt32.toInt } node.children

/-- `DEFAULT_GVMID`. -/
def defaultGvmid : ℤ := 2

/-- The settings that `do_hab_parse` generates the pchans from. -/
def parsedSettings (vhost : Bool) (node : Option HabNode) : Option LocalVmid :=
  match habParseDt .invalid node with
  | none => none
  | some (result, settings) =>
      if result ≠ 0 then fillDefaultGvmSettings vhost settings defaultGvmid mmAudStart mmIdMax
      else some settings

/-- `do_hab_parse`, behind `hab_hypervisor_register`: what it returns, and the attempts. -/
def doHabParse (vhost : Bool) (alloc : CommdevAlloc) (node : Option HabNode) :
    Option (ℤ × List PchanAttempt) :=
  (parsedSettings vhost node).map (habGeneratePchanList alloc)

/-! ## Entries of the table -/

/-- A cell of the table, and what `is_listener` is set to in it. -/
structure Entry where
  row : ℕ
  column : ℕ
  be : ℤ
deriving DecidableEq

def Entry.place (entry : Entry) : ℕ × ℕ := (entry.row, entry.column)

namespace LocalVmid

/-- The settings after the entries, the first one first. -/
def fill (settings : LocalVmid) (entries : List Entry) : LocalVmid where
  self := settings.self
  vmid := Writes.apply Entry.row (fun entry ↦ (entry.row : ℤ)) entries settings.vmid
  mmid := fun i j ↦
    Writes.apply Entry.place (fun entry ↦ (entry.column : ℤ)) entries
      (Function.uncurry settings.mmid) (i, j)
  isListener := fun i j ↦
    Writes.apply Entry.place Entry.be entries (Function.uncurry settings.isListener) (i, j)

variable {settings : LocalVmid} {entries later : List Entry} {i j : ℕ} {be : ℤ}

@[simp] theorem fill_self (settings : LocalVmid) (entries : List Entry) :
    (settings.fill entries).self = settings.self := rfl

@[simp] theorem fill_nil (settings : LocalVmid) : settings.fill [] = settings := rfl

theorem fill_append (settings : LocalVmid) (entries later : List Entry) :
    settings.fill (entries ++ later) = (settings.fill entries).fill later := by
  unfold fill
  simp only [Writes.apply_append]
  rfl

/-- The two assignments of the inner loop, with the one of the outer loop. -/
theorem fill_singleton (settings : LocalVmid) (i j : ℕ) (be : ℤ) :
    settings.fill [⟨i, j, be⟩] = (settings.setVmid i).setMmid i j be := by
  have hcell : ∀ (table : ℕ → ℕ → ℤ) (value : ℤ) (row column : ℕ),
      Function.update (Function.uncurry table) (i, j) value (row, column) =
        Function.update table i (Function.update (table i) j value) row column := by
    intro table value row column
    rcases eq_or_ne row i with rfl | hrow
    · rw [Function.update_self]
      rcases eq_or_ne column j with rfl | hcolumn
      · rw [Function.update_self, Function.update_self]
      · rw [Function.update_of_ne hcolumn, Function.update_of_ne (by simp [hcolumn])]
        rfl
    · rw [Function.update_of_ne hrow, Function.update_of_ne (by simp [hrow])]
      rfl
  unfold fill setVmid setMmid
  congr 1
  · funext row column
    exact hcell settings.mmid j row column
  · funext row column
    exact hcell settings.isListener be row column

theorem vmid_fill (settings : LocalVmid) (h : ∃ entry ∈ entries, entry.row = i) :
    (settings.fill entries).vmid i = i :=
  Writes.apply_eq_of_forall h fun _ _ heq ↦ congrArg Nat.cast heq

/-- A row with an entry in it has its vmid. -/
theorem setVmid_fill (h : ∃ entry ∈ entries, entry.row = i) :
    (settings.fill entries).setVmid i = settings.fill entries := by
  unfold setVmid
  rw [Function.update_eq_self_iff.mpr (vmid_fill settings h).symm]

end LocalVmid

theorem fillColumns_eq (be : ℤ) (i : ℕ) (settings : LocalVmid) (columns : List ℤ) :
    fillColumns be i (settings.setVmid i) columns =
      if ∀ j ∈ columns, InRow j then
        some ((settings.fill (columns.map fun j ↦ ⟨i, j.toNat, be⟩)).setVmid i)
      else none := by
  induction columns generalizing settings with
  | nil => simp [fillColumns]
  | cons j columns ih =>
      rw [fillColumns]
      by_cases hj : InRow j
      · have hcell : (settings.setVmid i).setMmid i j.toNat be =
            (settings.fill [⟨i, j.toNat, be⟩]).setVmid i := by
          rw [LocalVmid.setVmid_fill ⟨_, List.mem_singleton_self _, rfl⟩, LocalVmid.fill_singleton]
        rw [if_pos hj, hcell, ih, ← LocalVmid.fill_append]
        simp [hj]
      · rw [if_neg hj, if_neg fun hall ↦ hj (hall j List.mem_cons_self)]

/-- One row of `fill_vmid_mmid_tbl`. -/
theorem fillVmidMmidTbl_row {i : ℕ} (hi : i < habcfgVmidMax) (settings : LocalVmid) (start be : ℤ)
    {range : ℤ} (hrange : 0 < range) :
    fillVmidMmidTbl settings i 1 start range be =
      if ∀ j ∈ numbersFrom start range, InRow j then
        some (settings.fill ((numbersFrom start range).map fun j ↦ ⟨i, j.toNat, be⟩))
      else none := by
  have hrow : numbersFrom i 1 = [(i : ℤ)] := by simp [numbersFrom]
  have hfirst : start ∈ numbersFrom start range := by
    refine List.mem_map.mpr ⟨0, List.mem_range.mpr (by omega), by simp⟩
  rw [fillVmidMmidTbl, hrow, fillRows, if_pos ⟨Int.natCast_nonneg i, by exact_mod_cast hi⟩,
    Int.toNat_natCast, fillColumns_eq]
  by_cases hall : ∀ j ∈ numbersFrom start range, InRow j
  · rw [if_pos hall, if_pos hall, LocalVmid.setVmid_fill ⟨_, List.mem_map_of_mem hfirst, rfl⟩]
    rfl
  · rw [if_neg hall, if_neg hall]

/-- The entry of a group for one vmid. -/
theorem fillVmidMmidTbl_cell {i : ℕ} (hi : i < habcfgVmidMax) (settings : LocalVmid) (j be : ℤ) :
    fillVmidMmidTbl settings i 1 j 1 be =
      if InRow j then some (settings.fill [⟨i, j.toNat, be⟩]) else none := by
  rw [fillVmidMmidTbl_row hi settings j be one_pos]
  simp [numbersFrom]

/-- Row and role of the default settings. -/
def defaultRow (vhost : Bool) : ℕ := if vhost then 2 else 0

def defaultBe (vhost : Bool) : ℤ := if vhost then 1 else 0

/-- `self` of the default settings. -/
def defaultSelf (vhost : Bool) : ℤ := if vhost then 0 else 2

/-- All mmids of one VM. -/
def defaultEntries (vhost : Bool) : List Entry :=
  (List.range' 1 habcfgMmidAreaMax).map fun j ↦ ⟨defaultRow vhost, j, defaultBe vhost⟩

theorem fillDefaultGvmSettings_eq (vhost : Bool) (settings : LocalVmid) :
    fillDefaultGvmSettings vhost settings defaultGvmid mmAudStart mmIdMax =
      some (({ settings with self := defaultSelf vhost }).fill (defaultEntries vhost)) := by
  have hcolumns : ∀ j ∈ numbersFrom (mmAudStart.tdiv 100)
      ((mmIdMax - mmAudStart).tdiv 100 + 1), InRow j := by decide
  have hrange : 0 < (mmIdMax - mmAudStart).tdiv 100 + 1 := by decide
  have hrow := fillVmidMmidTbl_row (i := defaultRow vhost) (by cases vhost <;> decide)
    { settings with self := defaultSelf vhost } (mmAudStart.tdiv 100) (defaultBe vhost) hrange
  rw [if_pos hcolumns] at hrow
  cases vhost with
  | false => exact hrow
  | true => exact hrow

/-! ## What is read of the tree -/

/-- The vmids up to the first that is too big. -/
def validVmids (vmids : List UInt32) : List UInt32 :=
  vmids.takeWhile fun v ↦ v.toNat < habcfgVmidMax

namespace MmidGrp

/-- The column that the id stands for. -/
def column (grp : MmidGrp) : ℤ := grp.grpStartId.tdiv 100

def Complete (grp : MmidGrp) : Prop := ∀ v ∈ grp.vmids, v.toNat < habcfgVmidMax

instance (grp : MmidGrp) : Decidable grp.Complete := List.decidableBAll _ grp.vmids

def entries (grp : MmidGrp) : List Entry :=
  (validVmids grp.vmids).map fun v ↦ ⟨v.toNat, grp.column.toNat, grp.be⟩

/-- The vmids fit into the array, and the column into the table if there is an entry. -/
def Fits (grp : MmidGrp) : Prop :=
  grp.vmids.length ≤ vmidsMax ∧ (grp.entries ≠ [] → InRow grp.column)

instance (grp : MmidGrp) : Decidable grp.Fits := inferInstanceAs (Decidable (_ ∧ _))

end MmidGrp

/-- A child that the loop goes on from. -/
def MmidGrpNode.Parses (node : MmidGrpNode) : Prop := ∃ grp, node.read = .ok grp ∧ grp.Complete

theorem validVmids_cons (v : UInt32) (vmids : List UInt32) :
    validVmids (v :: vmids) = if v.toNat < habcfgVmidMax then v :: validVmids vmids else [] := by
  simp [validVmids, List.takeWhile_cons]

section Vmids

variable (id be : ℤ) {v : UInt32} (vmids : List UInt32)

theorem MmidGrp.complete_cons :
    (MmidGrp.mk id be (v :: vmids)).Complete ↔
      v.toNat < habcfgVmidMax ∧ (MmidGrp.mk id be vmids).Complete :=
  List.forall_mem_cons

theorem MmidGrp.entries_cons (hv : v.toNat < habcfgVmidMax) :
    (MmidGrp.mk id be (v :: vmids)).entries =
      ⟨v.toNat, (id.tdiv 100).toNat, be⟩ :: (MmidGrp.mk id be vmids).entries := by
  rw [MmidGrp.entries, validVmids_cons, if_pos hv]
  rfl

theorem MmidGrp.entries_cons_of_le (hv : habcfgVmidMax ≤ v.toNat) :
    (MmidGrp.mk id be (v :: vmids)).entries = [] := by
  rw [MmidGrp.entries, validVmids_cons, if_neg (Nat.not_lt.mpr hv)]
  rfl

/-- The loop over the vmids of a group. -/
theorem parseVmids_eq (settings : LocalVmid) :
    parseVmids id be settings vmids =
      if (MmidGrp.mk id be vmids).entries ≠ [] → InRow (id.tdiv 100) then
        some (if (MmidGrp.mk id be vmids).Complete then 0 else einval,
          settings.fill (MmidGrp.mk id be vmids).entries)
      else none := by
  induction vmids generalizing settings with
  | nil => rfl
  | cons v vmids ih =>
      rw [parseVmids]
      by_cases hv : v.toNat < habcfgVmidMax
      · rw [if_neg (Nat.not_le.mpr hv), fillVmidMmidTbl_cell hv, MmidGrp.entries_cons id be vmids hv]
        by_cases hrow : InRow (id.tdiv 100)
        · rw [if_pos hrow, if_pos fun _ ↦ hrow, Option.bind_some, ih, if_pos fun _ ↦ hrow,
            ← LocalVmid.fill_append, List.singleton_append]
          simp [MmidGrp.complete_cons, hv]
        · rw [if_neg hrow, if_neg fun h ↦ hrow (h (List.cons_ne_nil _ _)), Option.bind_none]
      · have hle := Nat.not_lt.mp hv
        have hbad : ¬ (MmidGrp.mk id be (v :: vmids)).Complete := fun h ↦ hv (h v List.mem_cons_self)
        have hnone := MmidGrp.entries_cons_of_le id be vmids hle
        rw [if_pos hle, if_pos fun h ↦ absurd hnone h, if_neg hbad, hnone]
        rfl

end Vmids

/-- The groups that the loop over the children comes to. -/
def reached : List MmidGrpNode → List MmidGrp
  | [] => []
  | node :: nodes =>
      match node.read with
      | .error _ => []
      | .ok grp => grp :: if grp.Complete then reached nodes else []

/-- What the loop returns. -/
def status : List MmidGrpNode → ℤ
  | [] => 0
  | node :: nodes =>
      match node.read with
      | .error e => e.code
      | .ok grp => if grp.Complete then status nodes else einval

/-- One round of the loop. -/
theorem parseChildren_cons (settings : LocalVmid) (node : MmidGrpNode)
    (nodes : List MmidGrpNode) :
    parseChildren settings (node :: nodes) =
      match node.read with
      | .error e => some (e.code, settings)
      | .ok grp =>
          if grp.Fits then
            if grp.Complete then parseChildren (settings.fill grp.entries) nodes
            else some (einval, settings.fill grp.entries)
          else none := by
  rw [parseChildren]
  cases node.read with
  | error e => rfl
  | ok grp =>
      have hvmids : parseVmids grp.grpStartId grp.be settings grp.vmids =
          if grp.entries ≠ [] → InRow grp.column then
            some (if grp.Complete then 0 else einval, settings.fill grp.entries)
          else none := parseVmids_eq grp.grpStartId grp.be grp.vmids settings
      dsimp only
      rw [hvmids]
      by_cases hlength : vmidsMax < grp.vmids.length
      · rw [if_pos hlength, if_neg fun h : grp.Fits ↦ absurd h.1 (Nat.not_le.mpr hlength)]
      · rw [if_neg hlength]
        by_cases hrow : grp.entries ≠ [] → InRow grp.column
        · have hfits : grp.Fits := ⟨Nat.not_lt.mp hlength, hrow⟩
          rw [if_pos hrow, if_pos hfits]
          by_cases hcomplete : grp.Complete
          · simp [hcomplete]
          · simp [hcomplete, einval]
        · rw [if_neg hrow, if_neg fun h : grp.Fits ↦ hrow h.2]

/-- The loop, from any settings. -/
theorem parseChildren_eq (settings : LocalVmid) (nodes : List MmidGrpNode) :
    parseChildren settings nodes =
      if ∀ grp ∈ reached nodes, grp.Fits then
        some (status nodes, settings.fill ((reached nodes).flatMap MmidGrp.entries))
      else none := by
  induction nodes generalizing settings with
  | nil => simp [parseChildren, reached, status]
  | cons node nodes ih =>
      rw [parseChildren_cons, reached, status]
      cases node.read with
      | error e => simp
      | ok grp =>
          dsimp only
          by_cases hfits : grp.Fits
          · by_cases hcomplete : grp.Complete
            · simp only [if_pos hcomplete, List.forall_mem_cons, hfits, true_and, if_true, ih,
                List.flatMap_cons, LocalVmid.fill_append]
            · simp [hfits, hcomplete]
          · rw [if_neg hfits, if_neg fun h ↦ hfits (h grp List.mem_cons_self)]

theorem status_eq_zero_iff {nodes : List MmidGrpNode} :
    status nodes = 0 ↔ ∀ node ∈ nodes, node.Parses := by
  induction nodes with
  | nil => simp [status]
  | cons node nodes ih =>
      rw [status, List.forall_mem_cons, MmidGrpNode.Parses]
      cases node.read with
      | error e => simpa using e.negative.ne
      | ok grp =>
          by_cases hcomplete : grp.Complete
          · simp [hcomplete, ih]
          · simp [hcomplete, einval]

/-- All groups before one that is reached have parsed. -/
theorem mem_reached_iff {nodes : List MmidGrpNode} {grp : MmidGrp} :
    grp ∈ reached nodes ↔
      ∃ before node later, nodes = before ++ node :: later ∧
        (∀ earlier ∈ before, earlier.Parses) ∧ node.read = .ok grp := by
  induction nodes with
  | nil => simp [reached]
  | cons node nodes ih =>
      have hsplit : (∃ before next later, node :: nodes = before ++ next :: later ∧
          (∀ earlier ∈ before, earlier.Parses) ∧ next.read = .ok grp) ↔
            node.read = .ok grp ∨ node.Parses ∧ ∃ before next later,
              nodes = before ++ next :: later ∧
                (∀ earlier ∈ before, earlier.Parses) ∧ next.read = .ok grp := by
        constructor
        · rintro ⟨before, next, later, heq, hbefore, hread⟩
          cases before with
          | nil =>
              cases heq
              exact .inl hread
          | cons first before =>
              cases heq
              obtain ⟨hfirst, hrest⟩ := List.forall_mem_cons.mp hbefore
              exact .inr ⟨hfirst, before, next, later, rfl, hrest, hread⟩
        · rintro (hread | ⟨hfirst, before, next, later, rfl, hrest, hread⟩)
          · exact ⟨[], node, nodes, rfl, List.forall_mem_nil _, hread⟩
          · exact ⟨node :: before, next, later, rfl, List.forall_mem_cons.mpr ⟨hfirst, hrest⟩, hread⟩
      rw [hsplit, ← ih, reached, MmidGrpNode.Parses]
      cases node.read with
      | error e => simp
      | ok own =>
          by_cases hcomplete : own.Complete
          · simp [hcomplete, eq_comm]
          · simp [hcomplete, eq_comm]

/-! ## The pchans of a list of entries -/

/-- The devices of the area in a cell are attempted, with the role of the cell. -/
def Entry.Attempts (entry : Entry) (self : ℤ) (attempt : PchanAttempt) : Prop :=
  (entry.row : ℤ) ≠ self ∧
    ∃ area ∈ mmidGroups, area.first / 100 = entry.column ∧
      ∃ k, (area.first < k ∧ k < area.last) ∧
        attempt = ⟨entry.row, entry.column, UInt32.ofNat k, self, entry.row, entry.be⟩

theorem attempt_fill (settings : LocalVmid) {entries : List Entry} {entry : Entry}
    (hlast : Writes.Last Entry.place entries entry) (dev : UInt32) :
    (settings.fill entries).mmid entry.row entry.column = entry.column ∧
      (settings.fill entries).attempt entry.row entry.column dev =
        ⟨entry.row, entry.column, dev, settings.self, entry.row, entry.be⟩ := by
  have hbe : (settings.fill entries).isListener entry.row entry.column = entry.be := hlast.apply_key
  constructor
  · exact hlast.apply_key
  · rw [LocalVmid.attempt, LocalVmid.vmid_fill settings ⟨entry, hlast.mem, rfl⟩, hbe,
      LocalVmid.fill_self]

/-- From a table that was invalid before: the last entry of each cell decides. -/
theorem mem_attempts_fill {self : ℤ} {entries : List Entry} {attempt : PchanAttempt}
    (hrows : ∀ entry ∈ entries, entry.row < habcfgVmidMax) :
    attempt ∈ ((LocalVmid.cleared self).fill entries).attempts ↔
      ∃ entry, Writes.Last Entry.place entries entry ∧ entry.Attempts self attempt := by
  have hareas : ∀ area ∈ mmidGroups, 1 ≤ area.first / 100 ∧ area.first / 100 ≤ habcfgMmidAreaMax := by
    decide
  rw [LocalVmid.mem_attempts]
  constructor
  · rintro ⟨i, j, ⟨-, -, hother⟩, ⟨-, hmmid⟩, area, harea, hcolumn, k, hk, rfl⟩
    obtain ⟨entry, hplace, hlast⟩ := Writes.exists_last (Writes.exists_of_apply_ne hmmid)
    obtain ⟨rfl, rfl⟩ : entry.row = i ∧ entry.column = j := by
      simpa [Entry.place] using hplace
    rw [LocalVmid.vmid_fill _ ⟨entry, hlast.mem, rfl⟩] at hother
    rw [(attempt_fill _ hlast 0).1] at hcolumn
    exact ⟨entry, hlast, hother, area, harea, by exact_mod_cast hcolumn, k, hk,
      (attempt_fill _ hlast _).2⟩
  · rintro ⟨entry, hlast, hother, area, harea, hcolumn, k, hk, rfl⟩
    have hvmid := LocalVmid.vmid_fill (.cleared self) ⟨entry, hlast.mem, rfl⟩
    obtain ⟨hmmid, -⟩ := attempt_fill (.cleared self) hlast 0
    have hnat : ∀ n : ℕ, (n : ℤ) ≠ habcfgVmidInvalid := fun n ↦ by unfold habcfgVmidInvalid; omega
    refine ⟨entry.row, entry.column, ⟨hrows entry hlast.mem, ?_, ?_⟩, ⟨?_, ?_⟩, area, harea, ?_, k,
      hk, (attempt_fill (.cleared self) hlast _).2.symm⟩
    · exact hvmid ▸ hnat _
    · exact hvmid ▸ hother
    · exact hcolumn ▸ hareas area harea
    · exact hmmid ▸ hnat _
    · exact hmmid ▸ congrArg Nat.cast hcolumn

/-! ## The settings that come out -/

/-- A tree in which nothing fails. -/
def HabNode.Parses (hab : HabNode) (vmid : UInt32) : Prop :=
  hab.vmid = .ok vmid ∧ ∀ child ∈ hab.children, child.Parses

/-- The groups whose vmids are gone through. -/
def groups : Option HabNode → List MmidGrp
  | none => []
  | some hab =>
      match hab.vmid with
      | .error _ => []
      | .ok _ => reached hab.children

section Settings

variable {vhost : Bool} {node : Option HabNode} {settings : LocalVmid}

theorem parsedSettings_eq_none_iff :
    parsedSettings vhost node = none ↔ ∃ grp ∈ groups node, ¬ grp.Fits := by
  unfold parsedSettings habParseDt groups
  cases node with
  | none => simp [enodev, fillDefaultGvmSettings_eq]
  | some hab =>
      cases hvmid : hab.vmid with
      | error e => simp [hvmid, e.negative.ne, fillDefaultGvmSettings_eq]
      | ok vmid =>
          simp only [hvmid, parseChildren_eq]
          by_cases hfits : ∀ grp ∈ reached hab.children, grp.Fits
          · have hno : ¬ ∃ grp ∈ reached hab.children, ¬ grp.Fits := by
              rintro ⟨grp, hgrp, hbad⟩
              exact hbad (hfits grp hgrp)
            rw [if_pos hfits]
            refine iff_of_false ?_ hno
            by_cases hstatus : status hab.children = 0
            · simp [hstatus]
            · simp [hstatus, fillDefaultGvmSettings_eq]
          · rw [if_neg hfits]
            refine iff_of_true rfl ?_
            simpa only [not_forall, exists_prop] using hfits

theorem parsedSettings_of_parses {hab : HabNode} {vmid : UInt32} (hparses : hab.Parses vmid)
    (h : parsedSettings vhost (some hab) = some settings) :
    settings = (LocalVmid.cleared vmid.toInt32.toInt).fill
      ((reached hab.children).flatMap MmidGrp.entries) := by
  obtain ⟨hvmid, hchildren⟩ := hparses
  unfold parsedSettings habParseDt at h
  simp only [hvmid, parseChildren_eq] at h
  split at h
  next => cases h
  next heq =>
    split at heq
    next =>
      cases heq
      rw [status_eq_zero_iff.mpr hchildren] at h
      exact (Option.some.inj h).symm
    next => cases heq

/-- The default settings come over what was filled before the failure. -/
theorem parsedSettings_of_fails (hfails : ∀ hab vmid, node = some hab → ¬ hab.Parses vmid)
    (h : parsedSettings vhost node = some settings) :
    settings = (LocalVmid.cleared (defaultSelf vhost)).fill
      ((groups node).flatMap MmidGrp.entries ++ defaultEntries vhost) := by
  unfold parsedSettings habParseDt at h
  cases node with
  | none =>
      simp only [enodev, ne_eq, fillDefaultGvmSettings_eq] at h
      exact (Option.some.inj h).symm
  | some hab =>
      cases hvmid : hab.vmid with
      | error e =>
          simp only [hvmid, ne_eq, e.negative.ne, not_false_eq_true, if_true,
            fillDefaultGvmSettings_eq] at h
          simp only [groups, hvmid]
          exact (Option.some.inj h).symm
      | ok vmid =>
          simp only [hvmid, parseChildren_eq] at h
          simp only [groups, hvmid]
          split at h
          next => cases h
          next heq =>
            split at heq
            next =>
              cases heq
              have hstatus : status hab.children ≠ 0 := fun hzero ↦
                hfails hab vmid rfl ⟨hvmid, status_eq_zero_iff.mp hzero⟩
              rw [if_pos hstatus, fillDefaultGvmSettings_eq] at h
              rw [LocalVmid.fill_append]
              exact (Option.some.inj h).symm
            next => cases heq

end Settings

theorem mem_validVmids {v : UInt32} {vmids : List UInt32} (h : v ∈ validVmids vmids) :
    v ∈ vmids ∧ v.toNat < habcfgVmidMax := by
  refine ⟨(List.takeWhile_prefix _).subset h, ?_⟩
  simpa using List.mem_takeWhile_imp h

namespace MmidGrp

variable {grp : MmidGrp} {entry : Entry}

theorem mem_entries :
    entry ∈ grp.entries ↔
      ∃ v ∈ validVmids grp.vmids, entry = ⟨v.toNat, grp.column.toNat, grp.be⟩ := by
  rw [entries, List.mem_map]
  exact exists_congr fun v ↦ and_congr_right fun _ ↦ eq_comm

theorem row_lt_of_mem_entries (h : entry ∈ grp.entries) : entry.row < habcfgVmidMax := by
  obtain ⟨v, hv, rfl⟩ := mem_entries.mp h
  exact (mem_validVmids hv).2

theorem validVmids_of_complete (h : grp.Complete) : validVmids grp.vmids = grp.vmids :=
  List.takeWhile_eq_self_iff.mpr fun v hv ↦ decide_eq_true (h v hv)

/-- The entries of one group in one cell are the same. -/
theorem last_entries : Writes.Last Entry.place grp.entries entry ↔ entry ∈ grp.entries := by
  refine Writes.last_iff_mem fun a ha c hc heq ↦ ?_
  obtain ⟨v, -, rfl⟩ := mem_entries.mp ha
  obtain ⟨w, -, rfl⟩ := mem_entries.mp hc
  have hrow : v.toNat = w.toNat := (Prod.mk.inj heq).1
  rw [hrow]

end MmidGrp

section Whole

variable {vhost : Bool} {alloc : CommdevAlloc} {node : Option HabNode} {result : ℤ}
variable {attempts : List PchanAttempt} {attempt : PchanAttempt}

theorem attempts_of_doHabParse (h : doHabParse vhost alloc node = some (result, attempts)) :
    ∃ settings, parsedSettings vhost node = some settings ∧ attempts = settings.attempts := by
  obtain ⟨settings, hsettings, heq⟩ := Option.map_eq_some_iff.mp h
  refine ⟨settings, hsettings, ?_⟩
  rw [← habGeneratePchanList_snd alloc settings, heq]

/-- The parser leaves its table or its array of vmids exactly in a tree with a group that
does not fit, behind groups that all parsed. -/
theorem doHabParse_eq_none_iff (vhost : Bool) (alloc : CommdevAlloc) (node : Option HabNode) :
    doHabParse vhost alloc node = none ↔
      ∃ hab vmid before child later grp, node = some hab ∧ hab.vmid = .ok vmid ∧
        hab.children = before ++ child :: later ∧ (∀ earlier ∈ before, earlier.Parses) ∧
          child.read = .ok grp ∧ ¬ grp.Fits := by
  rw [doHabParse, Option.map_eq_none_iff, parsedSettings_eq_none_iff]
  constructor
  · rintro ⟨grp, hgrp, hbad⟩
    unfold groups at hgrp
    split at hgrp
    next => cases hgrp
    next hab =>
      split at hgrp
      next => cases hgrp
      next vmid hvmid =>
        obtain ⟨before, child, later, hsplit, hbefore, hread⟩ := mem_reached_iff.mp hgrp
        exact ⟨hab, vmid, before, child, later, grp, rfl, hvmid, hsplit, hbefore, hread, hbad⟩
  · rintro ⟨hab, vmid, before, child, later, grp, rfl, hvmid, hsplit, hbefore, hread, hbad⟩
    refine ⟨grp, ?_, hbad⟩
    simp only [groups, hvmid]
    exact mem_reached_iff.mpr ⟨before, child, later, hsplit, hbefore, hread⟩

theorem reached_of_read {nodes : List MmidGrpNode} {grps : List MmidGrp}
    (hread : nodes.map MmidGrpNode.read = grps.map .ok) (hcomplete : ∀ grp ∈ grps, grp.Complete) :
    reached nodes = grps ∧ ∀ node ∈ nodes, node.Parses := by
  induction nodes generalizing grps with
  | nil =>
      cases grps with
      | nil => exact ⟨rfl, List.forall_mem_nil _⟩
      | cons grp grps => cases hread
  | cons node nodes ih =>
      cases grps with
      | nil => cases hread
      | cons grp grps =>
          obtain ⟨hnode, hrest⟩ := List.cons.inj hread
          obtain ⟨hgrp, hgrps⟩ := List.forall_mem_cons.mp hcomplete
          obtain ⟨hreached, hparses⟩ := ih hrest hgrps
          refine ⟨?_, List.forall_mem_cons.mpr ⟨⟨grp, hnode, hgrp⟩, hparses⟩⟩
          simp [reached, hnode, hgrp, hreached]

/-- In a tree in which nothing fails, the attempts are the devices of the areas that are
listed for other VMs, each with the role of the last group that lists it. -/
theorem mem_attempts_of_parses {hab : HabNode} {vmid : UInt32} {grps : List MmidGrp}
    (hvmid : hab.vmid = .ok vmid) (hread : hab.children.map MmidGrpNode.read = grps.map .ok)
    (hcomplete : ∀ grp ∈ grps, grp.Complete)
    (h : doHabParse vhost alloc (some hab) = some (result, attempts)) :
    attempt ∈ attempts ↔
      ∃ before grp later, grps = before ++ grp :: later ∧
        ∃ v ∈ grp.vmids, (∀ next ∈ later, next.column = grp.column → v ∉ next.vmids) ∧
          (Entry.mk v.toNat grp.column.toNat grp.be).Attempts vmid.toInt32.toInt attempt := by
  obtain ⟨hreached, hparses⟩ := reached_of_read hread hcomplete
  obtain ⟨settings, hsettings, rfl⟩ := attempts_of_doHabParse h
  have hfits : ∀ grp ∈ grps, grp.Fits := by
    intro grp hgrp
    by_contra hbad
    have hnone : parsedSettings vhost (some hab) = none := parsedSettings_eq_none_iff.mpr
      ⟨grp, by simpa only [groups, hvmid, hreached] using hgrp, hbad⟩
    rw [hnone] at hsettings
    cases hsettings
  obtain rfl := parsedSettings_of_parses ⟨hvmid, hparses⟩ hsettings
  rw [hreached, mem_attempts_fill]
  · constructor
    · rintro ⟨entry, hlast, hattempt⟩
      obtain ⟨before, grp, later, rfl, hentry, hno⟩ := Writes.last_flatMap.mp hlast
      obtain ⟨v, hv, rfl⟩ := MmidGrp.mem_entries.mp (MmidGrp.last_entries.mp hentry)
      refine ⟨before, grp, later, rfl, v, (mem_validVmids hv).1, ?_, hattempt⟩
      intro next hnext hcolumn hmem
      have hcomplete' := hcomplete next (List.mem_append_right _ (List.mem_cons_of_mem _ hnext))
      refine hno next hnext ⟨v.toNat, next.column.toNat, next.be⟩ (MmidGrp.mem_entries.mpr
        ⟨v, (MmidGrp.validVmids_of_complete hcomplete').symm ▸ hmem, rfl⟩) ?_
      rw [Entry.place, Entry.place, hcolumn]
    · rintro ⟨before, grp, later, rfl, v, hv, hno, hattempt⟩
      have hgrp : grp ∈ before ++ grp :: later := List.mem_append_right _ List.mem_cons_self
      have hvalid : v ∈ validVmids grp.vmids :=
        (MmidGrp.validVmids_of_complete (hcomplete grp hgrp)).symm ▸ hv
      have hentry := MmidGrp.mem_entries.mpr ⟨v, hvalid, rfl⟩
      refine ⟨_, Writes.last_flatMap.mpr ⟨before, grp, later, rfl, MmidGrp.last_entries.mpr hentry,
        ?_⟩, hattempt⟩
      intro next hnext entry hnextEntry heq
      have hmem : next ∈ before ++ grp :: later :=
        List.mem_append_right _ (List.mem_cons_of_mem _ hnext)
      obtain ⟨w, hw, rfl⟩ := MmidGrp.mem_entries.mp hnextEntry
      obtain ⟨hrow, hcolumn⟩ := Prod.mk.inj heq
      have hwv : w = v := UInt32.toNat_inj.mp hrow
      have hin : InRow next.column := (hfits next hmem).2 (List.ne_nil_of_mem hnextEntry)
      have hin' : InRow grp.column := (hfits grp hgrp).2 (List.ne_nil_of_mem hentry)
      have hcolumns : next.column = grp.column := by
        unfold InRow at hin hin'
        dsimp only at hcolumn
        omega
      exact hno next hnext hcolumns (hwv ▸ (mem_validVmids hw).1)
  · intro entry hentry
    obtain ⟨grp, -, hmem⟩ := List.mem_flatMap.mp hentry
    exact MmidGrp.row_lt_of_mem_entries hmem

/-- The host is listed twice for the same area. -/
def relisted : HabNode where
  vmid := .ok 2
  children := [⟨.ok 100, .ok "fe", .ok [0]⟩, ⟨.ok 100, .ok "be", .ok [0]⟩]

theorem mem_attempts_of_parses_relisted :
    ∃ p, doHabParse false (fun _ ↦ 0) (some relisted) = some p ∧ ⟨0, 1, 101, 2, 0, 1⟩ ∈ p.2 := by
  obtain ⟨p, hp⟩ : ∃ p, doHabParse false (fun _ ↦ 0) (some relisted) = some p :=
    Option.isSome_iff_exists.mp (by decide +kernel)
  have hread : relisted.children.map MmidGrpNode.read =
      ([⟨100, 0, [0]⟩, ⟨100, 1, [0]⟩] : List MmidGrp).map .ok := rfl
  refine ⟨p, hp, (mem_attempts_of_parses rfl hread (by decide) hp).mpr ?_⟩
  exact ⟨[⟨100, 0, [0]⟩], ⟨100, 1, [0]⟩, [], rfl, 0, List.mem_singleton_self _,
    List.forall_mem_nil _, by decide, ⟨100, 105⟩, by decide, rfl, 101, by decide, rfl⟩

/-- After a failure, the attempts for the default VM are all devices there are, whatever
was filled before; those for other VMs are the ones that were filled before. -/
theorem mem_attempts_of_fails (hfails : ∀ hab vmid, node = some hab → ¬ hab.Parses vmid)
    (h : doHabParse vhost alloc node = some (result, attempts)) :
    attempt ∈ attempts ↔
      (∃ area ∈ mmidGroups, ∃ k, (area.first < k ∧ k < area.last) ∧
          attempt = ⟨defaultRow vhost, area.first / 100, UInt32.ofNat k, defaultSelf vhost,
            defaultRow vhost, defaultBe vhost⟩) ∨
        ∃ entry, Writes.Last Entry.place ((groups node).flatMap MmidGrp.entries) entry ∧
          entry.row ≠ defaultRow vhost ∧ entry.Attempts (defaultSelf vhost) attempt := by
  obtain ⟨settings, hsettings, rfl⟩ := attempts_of_doHabParse h
  obtain rfl := parsedSettings_of_fails hfails hsettings
  have hself : (defaultRow vhost : ℤ) ≠ defaultSelf vhost := by cases vhost <;> decide
  have hareas : ∀ area ∈ mmidGroups, area.first / 100 ∈ List.range' 1 habcfgMmidAreaMax := by decide
  have hdefault : ∀ {entry : Entry}, entry ∈ defaultEntries vhost ↔
      ∃ j ∈ List.range' 1 habcfgMmidAreaMax,
        entry = ⟨defaultRow vhost, j, defaultBe vhost⟩ := by
    intro entry
    rw [defaultEntries, List.mem_map]
    exact exists_congr fun j ↦ and_congr_right fun _ ↦ eq_comm
  have hlast : ∀ {entry : Entry}, Writes.Last Entry.place (defaultEntries vhost) entry ↔
      entry ∈ defaultEntries vhost := by
    intro entry
    refine Writes.last_iff_mem fun a ha c hc heq ↦ ?_
    obtain ⟨j, -, rfl⟩ := hdefault.mp ha
    obtain ⟨k, -, rfl⟩ := hdefault.mp hc
    have hcolumn : j = k := (Prod.mk.inj heq).2
    rw [hcolumn]
  rw [mem_attempts_fill]
  · constructor
    · rintro ⟨entry, hentry, hattempt⟩
      rcases Writes.last_append.mp hentry with hentry | ⟨hentry, hno⟩
      · obtain ⟨j, -, rfl⟩ := hdefault.mp (hlast.mp hentry)
        obtain ⟨-, area, harea, rfl, k, hk, rfl⟩ := hattempt
        exact .inl ⟨area, harea, k, hk, rfl⟩
      · refine .inr ⟨entry, hentry, ?_, hattempt⟩
        obtain ⟨-, area, harea, hcolumn, -⟩ := hattempt
        intro hrow
        refine hno ⟨defaultRow vhost, area.first / 100, defaultBe vhost⟩
          (hdefault.mpr ⟨_, hareas area harea, rfl⟩) ?_
        rw [Entry.place, Entry.place, hrow, hcolumn]
    · rintro (⟨area, harea, k, hk, rfl⟩ | ⟨entry, hentry, hrow, hattempt⟩)
      · exact ⟨_, Writes.last_append.mpr (.inl (hlast.mpr
          (hdefault.mpr ⟨_, hareas area harea, rfl⟩))), hself, area, harea, rfl, k, hk, rfl⟩
      · refine ⟨entry, Writes.last_append.mpr (.inr ⟨hentry, ?_⟩), hattempt⟩
        intro next hnext heq
        obtain ⟨j, -, rfl⟩ := hdefault.mp hnext
        exact hrow (Prod.mk.inj heq).1.symm
  · intro entry hentry
    rcases List.mem_append.mp hentry with hentry | hentry
    · obtain ⟨grp, -, hmem⟩ := List.mem_flatMap.mp hentry
      exact MmidGrp.row_lt_of_mem_entries hmem
    · obtain ⟨j, -, rfl⟩ := hdefault.mp hentry
      have hrow : defaultRow vhost < habcfgVmidMax := by cases vhost <;> decide
      exact hrow

/-- The role of a group cannot be read; the host was listed in the group before it. -/
def halfRead : HabNode where
  vmid := .ok 3
  children :=
    [⟨.ok 200, .ok "be", .ok [0, 5]⟩, ⟨.ok 300, .error ⟨einval, by decide⟩, .ok [0]⟩]

theorem mem_attempts_of_fails_halfRead :
    ∃ p, doHabParse false (fun _ ↦ 0) (some halfRead) = some p ∧ ⟨0, 2, 201, 2, 0, 0⟩ ∈ p.2 ∧
      ⟨5, 2, 201, 2, 5, 1⟩ ∈ p.2 := by
  have hfails : ∀ hab vmid, some halfRead = some hab → ¬ hab.Parses vmid := by
    rintro hab vmid heq ⟨-, hchildren⟩
    cases heq
    obtain ⟨grp, hread, -⟩ := hchildren _ (List.mem_cons_of_mem _ (List.mem_singleton_self _))
    cases hread
  obtain ⟨p, hp⟩ : ∃ p, doHabParse false (fun _ ↦ 0) (some halfRead) = some p :=
    Option.isSome_iff_exists.mp (by decide +kernel)
  refine ⟨p, hp, (mem_attempts_of_fails hfails hp).mpr (.inl ?_),
    (mem_attempts_of_fails hfails hp).mpr (.inr ?_)⟩
  · exact ⟨⟨200, 203⟩, by decide, 201, by decide, rfl⟩
  · refine ⟨⟨5, 2, 1⟩, ⟨[⟨0, 2, 1⟩], [], by decide +kernel, List.forall_mem_nil _⟩, by decide, ?_⟩
    exact ⟨by decide, ⟨200, 203⟩, by decide, rfl, 201, by decide, rfl⟩

end Whole

end Generation

end Hab
