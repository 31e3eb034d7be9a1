import Hab.ExportLists

/-!
# Exported memory stays while it is imported

One flag stands for all importers of an export, and only `hab_mem_unexport`
looks at it in the same lock section that takes the id out of the table.  The
run theorem says that this is enough as long as no UNIMPORT comes while other
imports are outstanding, no import is acknowledged once a context's end or the
reclaim worker has decided to release the export, and neither of these takes an
id that meanwhile belongs to another export out of the table.  All opens settle
on the new protocol here.
-/

set_option linter.unusedSectionVars false

namespace Hab

open Runs

variable {π : Type*} [DecidableEq π]

/-- The id of the descriptor leads to it. -/
def ExportVm.InTable (vm : ExportVm π) (e : ℕ) : Prop :=
  ∃ p, (vm.desc e).pchan = some p ∧ vm.expidIdr p (vm.desc e).exportId = some e

/-- More IMPORT_ACKs have been sent for the export than UNIMPORTs received. -/
def ExportVm.Imported (vm : ExportVm π) (e : ℕ) : Prop :=
  (vm.log e).unimports < (vm.log e).acks

instance (vm : ExportVm π) (e : ℕ) : Decidable (vm.Imported e) :=
  inferInstanceAs (Decidable (_ < _))

namespace ExportSystem

/-- Every imported export is in its table, and neither revoked nor destroyed. -/
def Pinned (s : ExportSystem π) : Prop :=
  ∀ e, s.vm.Imported e →
    s.vm.InTable e ∧ (s.vm.log e).revoked = false ∧ (s.vm.log e).destroyed = false

/-- The context's end or the reclaim worker, about to take the descriptor's id
out of the table, would take another export's entry. -/
def Misses (s : ExportSystem π) (e : ℕ) : Prop :=
  ∃ p e', (s.vm.desc e).pchan = some p ∧ s.vm.expidIdr p (s.vm.desc e).exportId = some e' ∧ e' ≠ e

/-- The condition on a step. -/
def Careful (s : ExportSystem π) : ExportAct π → Prop
  | .recvImport v data sent =>
      ∀ vchan e, s.vchanAt v = some vchan → s.vm.acknowledged vchan.pchan data = some e →
        sent = true → ∀ i stage, s.calls.get i = some stage → stage.chose e = false
  | .recvUnimport p id =>
      ∀ e, s.vm.expidIdr p id = some e → (s.vm.log e).acks ≤ (s.vm.log e).unimports + 1
  | .advance i _ =>
      ∀ c e freeList, s.calls.get i = some (.dropped c e) ∨
        s.calls.get i = some (.reclaiming (e :: freeList)) → ¬ s.Misses e
  | .negotiate _ newProto => newProto = true
  | _ => True

end ExportSystem

/-! ## The invariant -/

namespace ExportVm

/-- What holds of the tables and of every imported export. -/
structure Tables (vm : ExportVm π) : Prop where
  entry : ∀ p id e, vm.expidIdr p id = some e →
    e < vm.nextDesc ∧ (vm.desc e).exportId = id ∧ (vm.desc e).pchan = some p
  pinned : ∀ e, vm.Imported e → vm.InTable e ∧ (vm.desc e).remoteImported = true ∧
    (vm.log e).revoked = false ∧ (vm.log e).destroyed = false
  newProto : ∀ p, vm.memProto p = true

/-- An allocated descriptor without outstanding imports. -/
structure Idle (vm : ExportVm π) (e : ℕ) : Prop where
  allocated : e < vm.nextDesc
  idle : ¬ vm.Imported e

variable {vm vm' : ExportVm π}

/-- An export is idle as long as no import has set its flag. -/
theorem Tables.not_imported (h : vm.Tables) {e : ℕ} (hflag : (vm.desc e).remoteImported = false) :
    ¬ vm.Imported e := by
  intro himp
  rw [(h.pinned e himp).2.1] at hflag
  cases hflag

/-- A step that touches neither the tables nor what an imported export needs. -/
structure Quiet (vm vm' : ExportVm π) : Prop where
  idr : vm'.expidIdr = vm.expidIdr
  nextDesc : vm'.nextDesc = vm.nextDesc
  memProto : vm'.memProto = vm.memProto
  desc : ∀ e, (vm'.desc e).exportId = (vm.desc e).exportId ∧
    (vm'.desc e).pchan = (vm.desc e).pchan ∧
      (vm'.desc e).remoteImported = (vm.desc e).remoteImported ∧
        (vm'.desc e).expState = (vm.desc e).expState
  counts : ∀ e, (vm'.log e).acks = (vm.log e).acks ∧
    (vm'.log e).unimports = (vm.log e).unimports
  flags : ∀ e, vm.Imported e → (vm'.log e).revoked = (vm.log e).revoked ∧
    (vm'.log e).destroyed = (vm.log e).destroyed

theorem Quiet.imported (h : Quiet vm vm') (e : ℕ) : vm'.Imported e ↔ vm.Imported e := by
  obtain ⟨hacks, hunimports⟩ := h.counts e
  rw [Imported, Imported, hacks, hunimports]

theorem Quiet.tables (hq : Quiet vm vm') (h : vm.Tables) : vm'.Tables := by
  constructor
  · intro p id e he
    rw [hq.idr] at he
    obtain ⟨hlt, hid, hp⟩ := h.entry p id e he
    obtain ⟨hid', hp', -⟩ := hq.desc e
    exact ⟨hq.nextDesc ▸ hlt, hid'.trans hid, hp'.trans hp⟩
  · intro e he
    have hold := (hq.imported e).mp he
    obtain ⟨⟨p, hp, hentry⟩, hflag, hrev, hdes⟩ := h.pinned e hold
    obtain ⟨hid', hp', hflag', -⟩ := hq.desc e
    obtain ⟨hrevoked, hdestroyed⟩ := hq.flags e hold
    refine ⟨⟨p, hp'.trans hp, ?_⟩, hflag'.trans hflag, hrevoked.trans hrev, hdestroyed.trans hdes⟩
    rw [hq.idr, hid']
    exact hentry
  · rw [hq.memProto]
    exact h.newProto

theorem Quiet.refl (vm : ExportVm π) : Quiet vm vm :=
  ⟨rfl, rfl, rfl, fun _ ↦ ⟨rfl, rfl, rfl, rfl⟩, fun _ ↦ ⟨rfl, rfl⟩, fun _ _ ↦ ⟨rfl, rfl⟩⟩

/-- Marking an idle export revoked or destroyed is quiet. -/
theorem quiet_setLog {e : ℕ} (hidle : ¬ vm.Imported e) (revoked destroyed : Bool) :
    Quiet vm (vm.setLog e { vm.log e with revoked := revoked, destroyed := destroyed }) := by
  refine ⟨rfl, rfl, rfl, fun _ ↦ ⟨rfl, rfl, rfl, rfl⟩, fun e' ↦ ?_, fun e' himp ↦ ?_⟩
  · by_cases hne : e' = e
    · subst hne
      simp [setLog]
    · simp [setLog, hne]
  · have hne : e' ≠ e := by
      rintro rfl
      exact hidle himp
    simp [setLog, hne]

theorem quiet_habmemRemoveExport {e : ℕ} (hidle : ¬ vm.Imported e) :
    Quiet vm (vm.habmemRemoveExport e) := by
  unfold habmemRemoveExport
  split
  · exact Quiet.refl vm
  · rename_i c _
    have hlog := quiet_setLog hidle (vm.log e).revoked true
    refine ⟨rfl, rfl, rfl, fun e' ↦ ?_, hlog.counts, hlog.flags⟩
    by_cases hne : e' = e
    · subst hne
      simp [destroy, setLog, setDesc, setCtx]
    · simp [destroy, setLog, setDesc, setCtx, hne]

/-- Taking an id out of a table is fine unless it leads to an imported export. -/
theorem Tables.setIdr_none (h : vm.Tables) {p : π} {id : UInt32}
    (hidle : ∀ e, vm.expidIdr p id = some e → ¬ vm.Imported e) : (vm.setIdr p id none).Tables := by
  constructor
  · intro q id' e he
    exact h.entry q id' e (setIdr_none_eq_some.mp he).2
  · intro e he
    obtain ⟨⟨q, hq, hentry⟩, hrest⟩ := h.pinned e he
    refine ⟨⟨q, hq, setIdr_none_eq_some.mpr ⟨?_, hentry⟩⟩, hrest⟩
    rintro ⟨rfl, hid⟩
    rw [show (vm.desc e).exportId = id from hid] at hentry
    exact hidle e hentry he
  · exact h.newProto

end ExportVm

namespace ExportStage

/-- What a call that stands at this stage relies on. -/
structure Holds (vm : ExportVm π) (stage : ExportStage π) : Prop where
  exports : ∀ e, stage.exports = some e → vm.Idle e ∧ (vm.desc e).expState = .exporting
  chose : ∀ e, stage.chose e = true → vm.Idle e
  took : ∀ e, stage.took = some e → vm.Idle e ∧ ∀ p id, vm.expidIdr p id ≠ some e

variable {vm vm' : ExportVm π} {stage : ExportStage π}

theorem Holds.keep (h : Holds vm stage) (hnext : vm.nextDesc ≤ vm'.nextDesc)
    (hidle : ∀ e, stage.exports = some e ∨ stage.chose e = true ∨ stage.took = some e →
      e < vm.nextDesc → vm'.Imported e → vm.Imported e)
    (hstate : ∀ e, stage.exports = some e → e < vm.nextDesc →
      (vm'.desc e).expState = (vm.desc e).expState)
    (hentry : ∀ p id e, e < vm.nextDesc → vm'.expidIdr p id = some e →
      vm.expidIdr p id = some e) : Holds vm' stage := by
  constructor
  · intro e he
    obtain ⟨hid, hexp⟩ := h.exports e he
    exact ⟨⟨Nat.lt_of_lt_of_le hid.allocated hnext,
      fun himp ↦ hid.idle (hidle e (Or.inl he) hid.allocated himp)⟩,
      (hstate e he hid.allocated).trans hexp⟩
  · intro e he
    have hid := h.chose e he
    exact ⟨Nat.lt_of_lt_of_le hid.allocated hnext,
      fun himp ↦ hid.idle (hidle e (Or.inr (Or.inl he)) hid.allocated himp)⟩
  · intro e he
    obtain ⟨hid, hout⟩ := h.took e he
    exact ⟨⟨Nat.lt_of_lt_of_le hid.allocated hnext,
      fun himp ↦ hid.idle (hidle e (Or.inr (Or.inr he)) hid.allocated himp)⟩,
      fun p id hin ↦ hout p id (hentry p id e hid.allocated hin)⟩

theorem Holds.quiet (h : Holds vm stage) (hq : vm.Quiet vm') : Holds vm' stage :=
  h.keep (Nat.le_of_eq hq.nextDesc.symm) (fun e _ _ ↦ (hq.imported e).mp)
    (fun e _ _ ↦ (hq.desc e).2.2.2) (fun _ _ _ _ ↦ hq.idr ▸ id)

/-- Other calls do not mind that an id is taken out of a table. -/
theorem Holds.setIdr_none (h : Holds vm stage) (p : π) (id : UInt32) :
    Holds (vm.setIdr p id none) stage :=
  h.keep (Nat.le_refl _) (fun _ _ _ himp ↦ himp) (fun _ _ _ ↦ rfl)
    fun _ _ _ _ hin ↦ (ExportVm.setIdr_none_eq_some.mp hin).2

end ExportStage

namespace ExportSystem

structure Inv (s : ExportSystem π) : Prop where
  tables : s.vm.Tables
  stages : ∀ i stage, s.calls.get i = some stage → stage.Holds s.vm
  /-- No two calls build the same descriptor. -/
  distinct : ∀ i j stage stage' e, s.calls.get i = some stage → s.calls.get j = some stage' →
    stage.exports = some e → stage'.exports = some e → i = j
  /-- A descriptor that is not linked yet is in its table, and nowhere else. -/
  building : ∀ i stage p e, s.calls.get i = some stage → stage.builds = some (p, e) →
    ¬ s.Released e ∧ s.vm.expidIdr p (s.vm.desc e).exportId = some e
  allocated : ∀ e, s.Released e → e < s.vm.nextDesc
  /-- The new protocol sends no EXPORT. -/
  notSent : ∀ i vchan e, s.calls.get i ≠ some (.sent vchan e)

theorem inv_start : Inv (start : ExportSystem π) := by
  refine ⟨⟨?_, ?_, fun _ ↦ rfl⟩, ?_, ?_, ?_, ?_, ?_⟩
  · intro p id e he
    cases he
  · intro e he
    exact absurd he (Nat.lt_irrefl 0)
  · intro i stage h
    cases h
  · intro i j stage stage' e h
    cases h
  · intro i stage p e h
    cases h
  · rintro e (⟨c, hc⟩ | hreclaim | ⟨i, stage, h, -⟩)
    · cases hc
    · cases hreclaim
    · cases h
  · intro i vchan e h
    cases h

theorem Inv.pinned {s : ExportSystem π} (h : Inv s) : s.Pinned := by
  intro e he
  obtain ⟨hin, -, hrest⟩ := h.tables.pinned e he
  exact ⟨hin, hrest⟩

variable {s : ExportSystem π} {i : ℕ} {stage : ExportStage π} {vm' : ExportVm π}
  {stage' : Option (ExportStage π)}

theorem Inv.advance_of (h : Inv s) (hget : s.calls.get i = some stage)
    (hruns : ExportStage.Runs s.vm stage vm' stage') (htables : vm'.Tables)
    (hothers : ∀ j k, j ≠ i → s.calls.get j = some k → k.Holds vm')
    (hnew : ∀ k, stage' = some k → k.Holds vm')
    (hentry : ∀ j k p e, s.calls.get j = some k → k.builds = some (p, e) →
      (j = i → stage' ≠ none) → vm'.expidIdr p (vm'.desc e).exportId = some e) :
    Inv ⟨vm', s.calls.set i stage'⟩ := by
  have hi := Pool.lt_next hget
  have hfollows := follows_of_runs hget hruns
  constructor
  · exact htables
  · exact fun j k hk ↦ Pool.forall_set (P := fun _ k ↦ k.Holds vm') hi hnew hothers hk
  · intro j j' k k' e hk hk' hexp hexp'
    rcases (Pool.get_set hi).mp hk with ⟨rfl, hnow⟩ | ⟨hj, hnow⟩ <;>
      rcases (Pool.get_set hi).mp hk' with ⟨rfl, hnow'⟩ | ⟨hj', hnow'⟩
    · rfl
    · exact h.distinct _ _ _ _ e hget hnow' (hfollows.exports k e hnow hexp) hexp'
    · exact h.distinct _ _ _ _ e hnow hget hexp (hfollows.exports k' e hnow' hexp')
    · exact h.distinct _ _ _ _ e hnow hnow' hexp hexp'
  · intro j k p e hk hbuilds
    -- a call that builds after the step built before it
    have hbefore : ∃ k₀, s.calls.get j = some k₀ ∧ k₀.builds = some (p, e) ∧
        (j = i → ∃ k, stage' = some k ∧ k.builds = some (p, e)) := by
      rcases (Pool.get_set hi).mp hk with ⟨rfl, hnow⟩ | ⟨hj, hnow⟩
      · exact ⟨stage, hget, hfollows.builds k p e hnow hbuilds, fun _ ↦ ⟨k, hnow, hbuilds⟩⟩
      · exact ⟨k, hnow, hbuilds, fun heq ↦ absurd heq hj⟩
    obtain ⟨k₀, hk₀, hbuilds₀, hstill⟩ := hbefore
    obtain ⟨hprivate, -⟩ := h.building j k₀ p e hk₀ hbuilds₀
    refine ⟨fun hrel ↦ ?_, hentry j k₀ p e hk₀ hbuilds₀ fun heq ↦ ?_⟩
    · rcases hfollows.released hget hrel with hrel | ⟨hexp, hdone⟩
      · exact hprivate hrel
      · have hexp₀ := ExportStage.exports_of_builds hbuilds₀
        obtain ⟨k', hk', hb'⟩ := hstill (h.distinct _ _ _ _ e hk₀ hget hexp₀ hexp)
        exact hdone k' p hk' hb'
    · obtain ⟨k', hk', -⟩ := hstill heq
      rw [hk']
      nofun
  · intro e hrel
    rcases hfollows.released hget hrel with hrel | ⟨hexp, -⟩
    · exact hruns.frame.nextDesc ▸ h.allocated e hrel
    · exact hruns.frame.nextDesc ▸ ((h.stages i stage hget).exports e hexp).1.allocated
  · intro j vchan e hk
    rcases (Pool.get_set hi).mp hk with ⟨rfl, hnow⟩ | ⟨-, hnow⟩
    · subst hnow
      cases hruns with
      | sent vchan e hproto =>
          rw [h.tables.newProto] at hproto
          cases hproto
    · exact h.notSent j vchan e hnow

/-- A step of a call that leaves tables and imported exports alone. -/
theorem Inv.advance_quiet (h : Inv s) (hget : s.calls.get i = some stage)
    (hruns : ExportStage.Runs s.vm stage vm' stage') (hq : s.vm.Quiet vm')
    (hnew : ∀ k, stage' = some k → k.Holds s.vm) : Inv ⟨vm', s.calls.set i stage'⟩ := by
  refine h.advance_of hget hruns (hq.tables h.tables) (fun j k _ hk ↦ (h.stages j k hk).quiet hq)
    (fun k hk ↦ (hnew k hk).quiet hq) ?_
  intro j k p e hk hbuilds _
  rw [hq.idr, (hq.desc e).1]
  exact (h.building j k p e hk hbuilds).2

/-! ### `hab_mem_export` -/

theorem Inv.advance_notGranted (h : Inv s) {vchan : ExportVchan π} {e : ℕ}
    (hget : s.calls.get i = some (.added vchan e))
    (hruns : ExportStage.Runs s.vm (.added vchan e)
      ((s.vm.idrRemove vchan.pchan e).destroy e) none) :
    Inv ⟨(s.vm.idrRemove vchan.pchan e).destroy e, s.calls.set i none⟩ := by
  have hexp := (h.stages i _ hget).exports e rfl
  obtain ⟨hprivate, hentry⟩ := h.building i _ _ e hget rfl
  have hidle : ¬ (s.vm.idrRemove vchan.pchan e).Imported e := hexp.1.idle
  have hq : (s.vm.idrRemove vchan.pchan e).Quiet ((s.vm.idrRemove vchan.pchan e).destroy e) :=
    ExportVm.quiet_setLog hidle _ _
  refine h.advance_of hget hruns (hq.tables (h.tables.setIdr_none ?_)) ?_ nofun ?_
  · intro e' he'
    rw [hentry] at he'
    cases he'
    exact hexp.1.idle
  · exact fun j k _ hk ↦ ((h.stages j k hk).setIdr_none _ _).quiet hq
  · intro j k p e' hk hbuilds hother
    obtain ⟨-, hentry'⟩ := h.building j k p e' hk hbuilds
    refine ExportVm.setIdr_none_eq_some.mpr ⟨?_, hentry'⟩
    rintro ⟨rfl, hid⟩
    rw [show (s.vm.desc e').exportId = (s.vm.desc e).exportId from hid, hentry] at hentry'
    cases hentry'
    exact hother (h.distinct _ _ _ _ e hk hget (ExportStage.exports_of_builds hbuilds) rfl) rfl

/-- Publishing a descriptor concerns only the call that built it. -/
theorem Inv.advance_linked (h : Inv s) {vchan : ExportVchan π} {e : ℕ}
    (hget : s.calls.get i = some (.linked vchan e)) :
    Inv ⟨s.vm.publishExport e, s.calls.set i none⟩ := by
  have hdesc : ∀ e', ((s.vm.publishExport e).desc e').exportId = (s.vm.desc e').exportId ∧
      ((s.vm.publishExport e).desc e').pchan = (s.vm.desc e').pchan ∧
        ((s.vm.publishExport e).desc e').remoteImported = (s.vm.desc e').remoteImported := by
    intro e'
    by_cases hne : e' = e
    · subst hne
      simp [ExportVm.publishExport, ExportVm.setDesc]
    · simp [ExportVm.publishExport, ExportVm.setDesc, hne]
  refine h.advance_of hget (.published vchan e) ?_ ?_ (by rintro _ ⟨⟩) ?_
  · refine ⟨fun p id e' he' ↦ ?_, fun e' he' ↦ ?_, h.tables.newProto⟩
    · rw [(hdesc e').1, (hdesc e').2.1]
      exact h.tables.entry p id e' he'
    · obtain ⟨⟨p, hp, hentry⟩, hrest⟩ := h.tables.pinned e' he'
      refine ⟨⟨p, (hdesc e').2.1.trans hp, ?_⟩, (hdesc e').2.2.trans hrest.1, hrest.2⟩
      rw [(hdesc e').1]
      exact hentry
  · intro j k hj hk
    refine (h.stages j k hk).keep (Nat.le_refl _) (fun _ _ _ himp ↦ himp) ?_ fun _ _ _ _ hin ↦ hin
    intro e' hexp _
    have hne : e' ≠ e := by
      rintro rfl
      exact hj (h.distinct _ _ _ _ e' hk hget hexp rfl)
    simp [ExportVm.publishExport, ExportVm.setDesc, hne]
  · intro j k p e' hk hbuilds _
    rw [(hdesc e').1]
    exact (h.building j k p e' hk hbuilds).2

/-! ### Release -/

/-- What `hab_ctx_free` chooses for release has its flag clear. -/
theorem Inv.holds_chosen (h : Inv s) {c e : ℕ} (hmem : e ∈ (s.vm.ctx c).expWhse)
    (hflag : (s.vm.desc e).remoteImported = true → ∃ p, s.vm.memProto p = false) :
    (ExportStage.chosen c e).Holds s.vm := by
  refine ⟨nofun, fun e' he' ↦ ?_, nofun⟩
  simp only [ExportStage.chose, decide_eq_true_eq] at he'
  subst he'
  refine ⟨h.allocated e (Or.inl ⟨c, hmem⟩), h.tables.not_imported ?_⟩
  by_contra himported
  obtain ⟨p, hp⟩ := hflag (by simpa using himported)
  rw [h.tables.newProto] at hp
  cases hp

/-- A release that does not miss takes only the idle export's own id out of the
table. -/
theorem Inv.advance_idrRemove (h : Inv s) {e : ℕ} {p : π} {k : ExportStage π}
    (hget : s.calls.get i = some stage)
    (hruns : ExportStage.Runs s.vm stage (s.vm.idrRemove p e) (some k))
    (hchose : stage.chose e = true) (hp : (s.vm.desc e).pchan = some p) (hmiss : ¬ s.Misses e)
    (hexports : k.exports = none) (hchose' : ∀ e', k.chose e' = true → stage.chose e' = true)
    (htook : ∀ e', k.took = some e' → e' = e) :
    Inv ⟨s.vm.idrRemove p e, s.calls.set i (some k)⟩ := by
  have hholds := h.stages i _ hget
  have hidle := hholds.chose e hchose
  have hown : ∀ e', s.vm.expidIdr p (s.vm.desc e).exportId = some e' → e' = e := by
    intro e' he'
    by_contra hne
    exact hmiss ⟨p, e', hp, he', hne⟩
  have hrel : s.Released e := released_of_handles hget (ExportStage.handles_of_chose hchose)
  refine h.advance_of hget hruns (h.tables.setIdr_none ?_)
    (fun j m _ hm ↦ (h.stages j m hm).setIdr_none _ _) ?_ ?_
  · intro e' he'
    rw [hown e' he']
    exact hidle.idle
  · rintro _ ⟨⟩
    refine ⟨?_, fun e' he' ↦ ?_, fun e' he' ↦ ?_⟩
    · rw [hexports]
      nofun
    · obtain ⟨hlt, hnot⟩ := hholds.chose e' (hchose' e' he')
      exact ⟨hlt, hnot⟩
    · rw [htook e' he']
      refine ⟨⟨hidle.allocated, hidle.idle⟩, fun q id hin ↦ ?_⟩
      obtain ⟨hnot, hold⟩ := ExportVm.setIdr_none_eq_some.mp hin
      obtain ⟨-, hid, hq⟩ := h.tables.entry q id e hold
      exact hnot ⟨Option.some.inj (hq.symm.trans hp), hid.symm⟩
  · intro j m q e' hm hb _
    obtain ⟨hprivate, hentry⟩ := h.building j m q e' hm hb
    refine ExportVm.setIdr_none_eq_some.mpr ⟨?_, hentry⟩
    rintro ⟨rfl, hid⟩
    rw [show (s.vm.desc e').exportId = (s.vm.desc e).exportId from hid] at hentry
    rw [hown e' hentry] at hprivate
    exact hprivate hrel

/-! ### Any call -/

theorem Inv.advance (h : Inv s) {ok : Bool} (hget : s.calls.get i = some stage)
    (hcareful : s.Careful (.advance i ok)) (hrun : stage.run s.vm ok = some (vm', stage')) :
    Inv ⟨vm', s.calls.set i stage'⟩ := by
  have hruns := ExportStage.runs_of_run hrun
  have hholds := h.stages i _ hget
  have hlists : ∀ x y z, s.vm.Quiet { s.vm with ctx := x, reclaimList := y, vchans := z } :=
    fun _ _ _ ↦ ⟨rfl, rfl, rfl, fun _ ↦ ⟨rfl, rfl, rfl, rfl⟩, fun _ ↦ ⟨rfl, rfl⟩,
      fun _ _ ↦ ⟨rfl, rfl⟩⟩
  cases hruns with
  | granted vchan e =>
      refine h.advance_quiet hget (.granted vchan e) (ExportVm.Quiet.refl _) ?_
      rintro k ⟨⟩
      exact ⟨hholds.exports, hholds.chose, hholds.took⟩
  | notGranted vchan e => exact h.advance_notGranted hget (.notGranted vchan e)
  | linked vchan e =>
      refine h.advance_quiet hget (.linked vchan e) (hlists _ _ _) ?_
      rintro k ⟨⟩
      exact ⟨hholds.exports, hholds.chose, hholds.took⟩
  | sent vchan e hproto =>
      rw [h.tables.newProto] at hproto
      cases hproto
  | acked vchan e => exact absurd hget (h.notSent i vchan e)
  | notAcked vchan e => exact absurd hget (h.notSent i vchan e)
  | notLinked vchan e =>
      exact h.advance_quiet hget (.notLinked vchan e) (ExportVm.Quiet.refl _) nofun
  | published vchan e => exact h.advance_linked hget
  | unlinked vchan e =>
      refine h.advance_quiet hget (.unlinked vchan e) (hlists _ _ _) ?_
      rintro k ⟨⟩
      exact ⟨nofun, nofun, hholds.took⟩
  | revoked vchan e =>
      refine h.advance_quiet hget (.revoked vchan e)
        (ExportVm.quiet_setLog (hholds.took e rfl).1.idle _ _) ?_
      rintro k ⟨⟩
      exact ⟨nofun, nofun, hholds.took⟩
  | removed vchan e =>
      exact h.advance_quiet hget (.removed vchan e)
        (ExportVm.quiet_habmemRemoveExport (hholds.took e rfl).1.idle) nofun
  | freed c hnil => exact h.advance_quiet hget (.freed c hnil) (hlists _ _ _) nofun
  | spared c e rest hwhse =>
      refine h.advance_quiet hget (.spared c e rest hwhse) (hlists _ _ _) ?_
      rintro k ⟨⟩
      exact ⟨nofun, nofun, nofun⟩
  | chosen c e rest hwhse hflag =>
      refine h.advance_quiet hget (.chosen c e rest hwhse hflag) (hlists _ _ _) ?_
      rintro k ⟨⟩
      exact h.holds_chosen (hwhse ▸ List.mem_cons_self) hflag
  | reclaimLater c e =>
      refine h.advance_quiet hget (.reclaimLater c e) (hlists _ _ _) ?_
      rintro k ⟨⟩
      exact ⟨nofun, nofun, nofun⟩
  | dropped c e =>
      have hidle := hholds.chose e (by simp [ExportStage.chose])
      refine h.advance_quiet hget (.dropped c e) (ExportVm.quiet_setLog hidle.idle _ _) ?_
      rintro k ⟨⟩
      exact ⟨nofun, hholds.chose, nofun⟩
  | gone c e p hp =>
      refine h.advance_idrRemove hget (.gone c e p hp) (by simp [ExportStage.chose]) hp
        (hcareful c e [] (Or.inl hget)) rfl nofun ?_
      rintro e' ⟨⟩
      rfl
  | next c e =>
      refine h.advance_quiet hget (.next c e)
        (ExportVm.quiet_habmemRemoveExport (hholds.took e rfl).1.idle) ?_
      rintro k ⟨⟩
      exact ⟨nofun, nofun, nofun⟩
  | reclaimEnd => exact h.advance_quiet hget .reclaimEnd (ExportVm.Quiet.refl _) nofun
  | reclaimed e freeList p hp =>
      refine h.advance_idrRemove hget (.reclaimed e freeList p hp) (by simp [ExportStage.chose]) hp
        (hcareful 0 e freeList (Or.inr hget)) rfl ?_ ?_
      · intro e' he'
        simp only [ExportStage.chose, decide_eq_true_eq] at he' ⊢
        exact List.mem_cons_of_mem e he'
      · rintro e' ⟨⟩
        rfl
  | reclaimNext e freeList =>
      refine h.advance_quiet hget (.reclaimNext e freeList)
        (ExportVm.quiet_setLog (hholds.took e rfl).1.idle _ _) ?_
      rintro k ⟨⟩
      exact ⟨nofun, hholds.chose, nofun⟩

/-! ## What is in a table is not destroyed -/

/-- What is in a table is not destroyed, and revoked only once a context's end or
the reclaim worker has chosen it. -/
def Flagged (s : ExportSystem π) : Prop :=
  ∀ p id e, s.vm.expidIdr p id = some e → (s.vm.log e).destroyed = false ∧
    ((s.vm.log e).revoked = true →
      ∃ i stage, s.calls.get i = some stage ∧ stage.chose e = true)

/-- The step of a call marks only what the call has chosen, and what stays in the
table stays chosen. -/
theorem Flagged.advance_of (hf : s.Flagged) (hget : s.calls.get i = some stage)
    (hidr : ∀ p id e, vm'.expidIdr p id = some e → s.vm.expidIdr p id = some e)
    (hlog : ∀ p id e, vm'.expidIdr p id = some e →
      (vm'.log e).destroyed = (s.vm.log e).destroyed ∧
        ((vm'.log e).revoked = true → (s.vm.log e).revoked = true ∨ stage.chose e = true))
    (hchose : ∀ p id e, vm'.expidIdr p id = some e → stage.chose e = true →
      ∃ k, stage' = some k ∧ k.chose e = true) : Flagged ⟨vm', s.calls.set i stage'⟩ := by
  have hi := Pool.lt_next hget
  intro p id e he
  obtain ⟨hdes, hrev⟩ := hf p id e (hidr p id e he)
  obtain ⟨hsame, hmark⟩ := hlog p id e he
  refine ⟨hsame.trans hdes, fun hrevoked ↦ ?_⟩
  -- the call that has chosen the export is this one or another
  have hchosen : ∃ j m, s.calls.get j = some m ∧ m.chose e = true := by
    rcases hmark hrevoked with hold | hnow
    · exact hrev hold
    · exact ⟨i, stage, hget, hnow⟩
  obtain ⟨j, m, hm, hc⟩ := hchosen
  by_cases hj : j = i
  · subst hj
    rw [hget] at hm
    cases hm
    obtain ⟨k, hk, hkc⟩ := hchose p id e he hc
    exact ⟨j, k, (Pool.get_set hi).mpr (Or.inl ⟨rfl, hk⟩), hkc⟩
  · exact ⟨j, m, (Pool.get_set hi).mpr (Or.inr ⟨hj, hm⟩), hc⟩

/-- A call that has taken the id of an export out of the table may mark it. -/
theorem Flagged.advance_took (hf : s.Flagged) (h : Inv s) {e : ℕ}
    (hget : s.calls.get i = some stage) (htook : stage.took = some e)
    (hidr : vm'.expidIdr = s.vm.expidIdr) (hlog : ∀ e', e' ≠ e → vm'.log e' = s.vm.log e')
    (hchose : ∀ e', stage.chose e' = true → ∃ k, stage' = some k ∧ k.chose e' = true) :
    Flagged ⟨vm', s.calls.set i stage'⟩ := by
  refine hf.advance_of hget (fun p id e' he' ↦ hidr ▸ he') (fun p id e' he' ↦ ?_)
    fun _ _ e' _ ↦ hchose e'
  have hne : e' ≠ e := by
    rintro rfl
    exact ((h.stages i _ hget).took e' htook).2 p id (hidr ▸ he')
  rw [hlog e' hne]
  exact ⟨rfl, Or.inl⟩

theorem Flagged.advance_log (hf : s.Flagged) (hget : s.calls.get i = some stage)
    (hidr : ∀ p id e, vm'.expidIdr p id = some e → s.vm.expidIdr p id = some e)
    (hlog : ∀ p id e, vm'.expidIdr p id = some e → vm'.log e = s.vm.log e)
    (hchose : ∀ p id e, vm'.expidIdr p id = some e → stage.chose e = true →
      ∃ k, stage' = some k ∧ k.chose e = true) : Flagged ⟨vm', s.calls.set i stage'⟩ := by
  refine hf.advance_of hget hidr (fun p id e he ↦ ?_) hchose
  rw [hlog p id e he]
  exact ⟨rfl, Or.inl⟩

/-- A step that leaves table and marks alone, of a call that has chosen nothing. -/
theorem Flagged.advance_quiet (hf : s.Flagged) (hget : s.calls.get i = some stage)
    (hidr : vm'.expidIdr = s.vm.expidIdr) (hlog : vm'.log = s.vm.log)
    (hchose : ∀ e, stage.chose e = false) : Flagged ⟨vm', s.calls.set i stage'⟩ := by
  refine hf.advance_log hget (fun p id e he ↦ hidr ▸ he) (fun _ _ e _ ↦ congrFun hlog e) ?_
  intro p id e _ hc
  rw [hchose] at hc
  cases hc

theorem log_habmemRemoveExport (vm : ExportVm π) {e e' : ℕ} (hne : e' ≠ e) :
    (vm.habmemRemoveExport e).log e' = vm.log e' := by
  unfold ExportVm.habmemRemoveExport
  split
  · rfl
  · exact Function.update_of_ne hne _ _

/-- After `idr_remove` the descriptor is in no table. -/
theorem Inv.ne_of_idrRemove (h : Inv s) {e e' : ℕ} {p q : π} {id : UInt32}
    (hp : (s.vm.desc e).pchan = some p) (he : (s.vm.idrRemove p e).expidIdr q id = some e') :
    e' ≠ e := by
  rintro rfl
  obtain ⟨hnot, hold⟩ := ExportVm.setIdr_none_eq_some.mp he
  obtain ⟨-, hid, hq⟩ := h.tables.entry q id e' hold
  exact hnot ⟨Option.some.inj (hq.symm.trans hp), hid.symm⟩

theorem Flagged.advance (hf : s.Flagged) (h : Inv s) {ok : Bool}
    (hget : s.calls.get i = some stage) (hrun : stage.run s.vm ok = some (vm', stage')) :
    Flagged ⟨vm', s.calls.set i stage'⟩ := by
  cases stage with
  | added vchan e =>
      cases ok with
      | true =>
          cases hrun
          exact hf.advance_quiet hget rfl rfl fun _ ↦ rfl
      | false =>
          obtain ⟨-, -, hnext⟩ := Option.map_eq_some_iff.mp hrun
          cases hnext
          obtain ⟨-, hentry⟩ := h.building i _ _ e hget rfl
          obtain ⟨-, -, hp⟩ := h.tables.entry _ _ e hentry
          refine hf.advance_log hget (fun _ _ _ he ↦ (ExportVm.setIdr_none_eq_some.mp he).2)
            (fun p id e' he' ↦ ?_) fun _ _ _ _ hc ↦ (Bool.false_ne_true hc).elim
          exact Function.update_of_ne (h.ne_of_idrRemove hp he') _ _
  | granted vchan e =>
      cases ok with
      | true =>
          simp only [ExportStage.run, h.tables.newProto, Bool.not_true, Bool.false_eq_true,
            if_false, if_true] at hrun
          cases hrun
          exact hf.advance_quiet hget rfl rfl fun _ ↦ rfl
      | false =>
          cases hrun
          exact hf.advance_quiet hget rfl rfl fun _ ↦ rfl
  | sent vchan e => exact absurd hget (h.notSent i vchan e)
  | linked vchan e =>
      cases hrun
      exact hf.advance_quiet hget rfl rfl fun _ ↦ rfl
  | taken vchan e =>
      cases hrun
      exact hf.advance_quiet hget rfl rfl fun _ ↦ rfl
  | unlinked vchan e =>
      cases hrun
      exact hf.advance_took h hget rfl rfl (fun e' hne ↦ Function.update_of_ne hne _ _)
        fun _ hc ↦ (Bool.false_ne_true hc).elim
  | revoked vchan e =>
      cases hrun
      exact hf.advance_took h hget rfl (ExportVm.expidIdr_habmemRemoveExport _ _)
        (fun e' hne ↦ log_habmemRemoveExport _ hne) fun _ hc ↦ (Bool.false_ne_true hc).elim
  | freeing c =>
      simp only [ExportStage.run] at hrun
      split at hrun
      · cases hrun
        exact hf.advance_quiet hget rfl rfl fun _ ↦ rfl
      · split at hrun
        · obtain ⟨p, -, hnext⟩ := Option.map_eq_some_iff.mp hrun
          cases hnext
          exact hf.advance_quiet hget rfl rfl fun _ ↦ rfl
        · cases hrun
          exact hf.advance_quiet hget rfl rfl fun _ ↦ rfl
  | spared c e =>
      cases hrun
      exact hf.advance_quiet hget rfl rfl fun _ ↦ rfl
  | chosen c e =>
      cases hrun
      refine hf.advance_of hget (fun _ _ _ he ↦ he) (fun p id e' _ ↦ ?_)
        fun _ _ e' _ hc ↦ ⟨_, rfl, hc⟩
      by_cases hne : e' = e
      · subst hne
        simp [ExportVm.revoke, ExportVm.setLog, ExportStage.chose]
      · rw [show (s.vm.revoke e).log e' = s.vm.log e' from Function.update_of_ne hne _ _]
        exact ⟨rfl, Or.inl⟩
  | dropped c e =>
      obtain ⟨p, hp, hnext⟩ := Option.map_eq_some_iff.mp hrun
      cases hnext
      refine hf.advance_log hget (fun _ _ _ he ↦ (ExportVm.setIdr_none_eq_some.mp he).2)
        (fun _ _ _ _ ↦ rfl) fun q id e' he' hc ↦ ?_
      simp only [ExportStage.chose, decide_eq_true_eq] at hc
      exact absurd hc.symm (h.ne_of_idrRemove hp he')
  | gone c e =>
      cases hrun
      exact hf.advance_took h hget rfl (ExportVm.expidIdr_habmemRemoveExport _ _)
        (fun e' hne ↦ log_habmemRemoveExport _ hne) fun _ hc ↦ (Bool.false_ne_true hc).elim
  | reclaiming freeList =>
      cases freeList with
      | nil =>
          cases hrun
          exact hf.advance_quiet hget rfl rfl fun _ ↦ rfl
      | cons e freeList =>
          obtain ⟨p, hp, hnext⟩ := Option.map_eq_some_iff.mp hrun
          cases hnext
          refine hf.advance_log hget (fun _ _ _ he ↦ (ExportVm.setIdr_none_eq_some.mp he).2)
            (fun _ _ _ _ ↦ rfl) fun q id e' he' hc ↦ ⟨_, rfl, ?_⟩
          simp only [ExportStage.chose, decide_eq_true_eq] at hc ⊢
          exact (List.mem_cons.mp hc).resolve_left (h.ne_of_idrRemove hp he')
  | reclaimed e freeList =>
      cases hrun
      exact hf.advance_took h hget rfl rfl (fun e' hne ↦ Function.update_of_ne hne _ _)
        fun e' hc ↦ ⟨_, rfl, hc⟩

/-- A call that starts marks nothing, and an export that it adds is unmarked. -/
theorem Flagged.spawn_of (hf : s.Flagged) (k : ExportStage π)
    (hlog : ∀ p id e, vm'.expidIdr p id = some e →
      (s.vm.expidIdr p id = some e ∧ vm'.log e = s.vm.log e) ∨
        ((vm'.log e).destroyed = false ∧ (vm'.log e).revoked = false)) :
    Flagged ⟨vm', s.calls.spawn k⟩ := by
  intro p id e he
  rcases hlog p id e he with ⟨hold, hsame⟩ | ⟨hdes, hrev⟩
  · obtain ⟨hdes, hrev⟩ := hf p id e hold
    refine ⟨hsame ▸ hdes, fun hrevoked ↦ ?_⟩
    obtain ⟨i, stage, hget, hc⟩ := hrev (hsame ▸ hrevoked)
    exact ⟨i, stage, Pool.get_spawn.mpr (Or.inr hget), hc⟩
  · refine ⟨hdes, fun hrevoked ↦ ?_⟩
    rw [show (vm'.log e).revoked = false from hrev] at hrevoked
    cases hrevoked

/-- A step of no call marks nothing. -/
theorem Flagged.vm_of (hf : s.Flagged) (hidr : vm'.expidIdr = s.vm.expidIdr)
    (hlog : ∀ e, (vm'.log e).destroyed = (s.vm.log e).destroyed ∧
      (vm'.log e).revoked = (s.vm.log e).revoked) : Flagged { s with vm := vm' } := by
  intro p id e he
  obtain ⟨hdes, hrev⟩ := hf p id e (hidr ▸ he)
  exact ⟨(hlog e).1.trans hdes, fun hrevoked ↦ hrev ((hlog e).2.symm.trans hrevoked)⟩

/-! ## Calls that start, messages, contexts and vchans -/

theorem Inv.spawn_of (h : Inv s) {k : ExportStage π} (htables : vm'.Tables)
    (hnext : s.vm.nextDesc ≤ vm'.nextDesc)
    (hothers : ∀ j m, s.calls.get j = some m → m.Holds vm') (hnew : k.Holds vm')
    (hexports : ∀ j m e, s.calls.get j = some m → k.exports = some e → m.exports ≠ some e)
    (hbuilds : ∀ p e, k.builds = some (p, e) → ¬ s.Released e ∧ k.handles e = false ∧
      vm'.expidIdr p (vm'.desc e).exportId = some e)
    (hhandles : ∀ e, k.handles e = true → s.Released e)
    (hctx : vm'.ctx = s.vm.ctx) (hreclaim : ∀ e ∈ vm'.reclaimList, e ∈ s.vm.reclaimList)
    (hentry : ∀ j m p e, s.calls.get j = some m → m.builds = some (p, e) →
      vm'.expidIdr p (vm'.desc e).exportId = some e)
    (hsent : ∀ vchan e, k ≠ .sent vchan e) : Inv ⟨vm', s.calls.spawn k⟩ := by
  have hreleased : ∀ e, Released ⟨vm', s.calls.spawn k⟩ e → s.Released e := by
    rintro e (⟨c, hc⟩ | he | ⟨l, m, hm, hh⟩)
    · rw [hctx] at hc
      exact Or.inl ⟨c, hc⟩
    · exact Or.inr (Or.inl (hreclaim e he))
    · rcases Pool.get_spawn.mp hm with ⟨-, rfl⟩ | hm
      · exact hhandles e hh
      · exact Or.inr (Or.inr ⟨l, m, hm, hh⟩)
  constructor
  · exact htables
  · exact fun j m hm ↦ Pool.forall_spawn (P := fun _ m ↦ m.Holds vm') hnew hothers hm
  · intro j j' m m' e hm hm' hexp hexp'
    rcases Pool.get_spawn.mp hm with ⟨hj, rfl⟩ | hold <;>
      rcases Pool.get_spawn.mp hm' with ⟨hj', rfl⟩ | hold'
    · rw [hj, hj']
    · exact absurd hexp' (hexports _ _ e hold' hexp)
    · exact absurd hexp (hexports _ _ e hold hexp')
    · exact h.distinct _ _ _ _ e hold hold' hexp hexp'
  · intro j m p e hm hb
    rcases Pool.get_spawn.mp hm with ⟨-, rfl⟩ | hm
    · obtain ⟨hprivate, -, hin⟩ := hbuilds p e hb
      exact ⟨fun hrel ↦ hprivate (hreleased e hrel), hin⟩
    · exact ⟨fun hrel ↦ (h.building j m p e hm hb).1 (hreleased e hrel), hentry j m p e hm hb⟩
  · exact fun e hrel ↦ Nat.lt_of_lt_of_le (h.allocated e (hreleased e hrel)) hnext
  · intro j vchan e hm
    rcases Pool.get_spawn.mp hm with ⟨-, heq⟩ | hm
    · exact hsent vchan e heq.symm
    · exact h.notSent j vchan e hm

theorem Inv.vm_of (h : Inv s) (htables : vm'.Tables) (hnext : vm'.nextDesc = s.vm.nextDesc)
    (hothers : ∀ j m, s.calls.get j = some m → m.Holds vm')
    (hexpWhse : ∀ c, ∀ e ∈ (vm'.ctx c).expWhse, e ∈ (s.vm.ctx c).expWhse)
    (hreclaim : vm'.reclaimList = s.vm.reclaimList) (hidr : vm'.expidIdr = s.vm.expidIdr)
    (hid : ∀ e, (vm'.desc e).exportId = (s.vm.desc e).exportId) : Inv { s with vm := vm' } := by
  have hreleased : ∀ e, Released { s with vm := vm' } e → s.Released e := by
    rintro e (⟨c, hc⟩ | he | hcalls)
    · exact Or.inl ⟨c, hexpWhse c e hc⟩
    · exact Or.inr (Or.inl (hreclaim ▸ he))
    · exact Or.inr (Or.inr hcalls)
  refine ⟨htables, hothers, h.distinct, fun j m p e hm hb ↦ ?_, fun e hrel ↦ ?_, h.notSent⟩
  · obtain ⟨hprivate, hentry⟩ := h.building j m p e hm hb
    refine ⟨fun hrel ↦ hprivate (hreleased e hrel), ?_⟩
    rw [hid]
    exact hidr ▸ hentry
  · exact hnext ▸ h.allocated e (hreleased e hrel)

theorem Inv.vm_quiet (h : Inv s) (hq : s.vm.Quiet vm')
    (hexpWhse : ∀ c, ∀ e ∈ (vm'.ctx c).expWhse, e ∈ (s.vm.ctx c).expWhse)
    (hreclaim : vm'.reclaimList = s.vm.reclaimList) : Inv { s with vm := vm' } :=
  h.vm_of (hq.tables h.tables) hq.nextDesc (fun j m hm ↦ (h.stages j m hm).quiet hq) hexpWhse
    hreclaim hq.idr fun e ↦ (hq.desc e).1

theorem Inv.export (h : Inv s) {vchan : ExportVchan π} {id : UInt32}
    (hfree : s.vm.expidIdr vchan.pchan id = none) (payloadCount : UInt32) :
    Inv ⟨s.vm.habmemAddExport vchan id payloadCount,
      s.calls.spawn (.added vchan s.vm.nextDesc)⟩ := by
  have hdesc : ∀ e, e ≠ s.vm.nextDesc →
      (s.vm.habmemAddExport vchan id payloadCount).desc e = s.vm.desc e :=
    fun e hne ↦ Function.update_of_ne hne _ _
  have hlog : ∀ e, e ≠ s.vm.nextDesc →
      (s.vm.habmemAddExport vchan id payloadCount).log e = s.vm.log e :=
    fun e hne ↦ Function.update_of_ne hne _ _
  have hnew : ¬ (s.vm.habmemAddExport vchan id payloadCount).Imported s.vm.nextDesc := by
    simp [ExportVm.Imported, ExportVm.habmemAddExport, ExportVm.setDesc, ExportVm.setLog,
      ExportVm.setIdr]
  have himp : ∀ e, (s.vm.habmemAddExport vchan id payloadCount).Imported e → s.vm.Imported e := by
    intro e he
    have hne : e ≠ s.vm.nextDesc := by
      rintro rfl
      exact hnew he
    simpa [ExportVm.Imported, hlog e hne] using he
  have hkept : ∀ p id' e, s.vm.expidIdr p id' = some e →
      (s.vm.habmemAddExport vchan id payloadCount).expidIdr p id' = some e := by
    intro p id' e he
    refine ExportVm.setIdr_some_eq_some.mpr (Or.inr ⟨?_, he⟩)
    rintro ⟨rfl, rfl⟩
    rw [hfree] at he
    cases he
  refine h.spawn_of ⟨?_, ?_, h.tables.newProto⟩ (Nat.le_succ _) ?_
    ⟨?_, fun e he ↦ absurd he Bool.false_ne_true, fun e he ↦ absurd he.symm (Option.some_ne_none e)⟩
    ?_ ?_ (fun e he ↦ absurd he Bool.false_ne_true) rfl (fun e he ↦ he) ?_
    (fun _ _ heq ↦ by cases heq)
  · intro p id' e he
    rcases ExportVm.setIdr_some_eq_some.mp he with ⟨rfl, rfl, rfl⟩ | ⟨-, hold⟩
    · refine ⟨Nat.lt_succ_self _, ?_, ?_⟩ <;>
        simp [ExportVm.habmemAddExport, ExportVm.setDesc, ExportVm.setLog, ExportVm.setIdr,
          h.tables.newProto]
    · obtain ⟨hlt, hrest⟩ := h.tables.entry p id' e hold
      rw [hdesc e (Nat.ne_of_lt hlt)]
      exact ⟨Nat.lt_succ_of_lt hlt, hrest⟩
  · intro e he
    obtain ⟨⟨p, hp, hentry⟩, hrest⟩ := h.tables.pinned e (himp e he)
    have hne : e ≠ s.vm.nextDesc := Nat.ne_of_lt (h.tables.entry p _ e hentry).1
    rw [ExportVm.InTable, hdesc e hne, hlog e hne]
    exact ⟨⟨p, hp, hkept p _ e hentry⟩, hrest⟩
  · intro j m hm
    refine (h.stages j m hm).keep (Nat.le_succ _) (fun e _ _ ↦ himp e) (fun e _ hlt ↦ ?_)
      fun p id' e hlt hin ↦ ?_
    · rw [hdesc e (Nat.ne_of_lt hlt)]
    · rcases ExportVm.setIdr_some_eq_some.mp hin with ⟨-, -, rfl⟩ | ⟨-, hold⟩
      · exact absurd hlt (Nat.lt_irrefl _)
      · exact hold
  · rintro e ⟨⟩
    refine ⟨⟨Nat.lt_succ_self _, hnew⟩, ?_⟩
    simp [ExportVm.habmemAddExport, ExportVm.setDesc, ExportVm.setLog, ExportVm.setIdr]
  · rintro j m e hm ⟨⟩ hexp
    exact Nat.lt_irrefl _ ((h.stages j m hm).exports _ hexp).1.allocated
  · rintro p e ⟨⟩
    refine ⟨fun hrel ↦ Nat.lt_irrefl _ (h.allocated _ hrel), rfl, ?_⟩
    refine ExportVm.setIdr_some_eq_some.mpr (Or.inl ⟨rfl, ?_, rfl⟩)
    simp [ExportVm.habmemAddExport, ExportVm.setDesc, ExportVm.setLog, ExportVm.setIdr]
  · intro j m p e hm hb
    have hlt := ((h.stages j m hm).exports e (ExportStage.exports_of_builds hb)).1.allocated
    rw [hdesc e (Nat.ne_of_lt hlt)]
    exact hkept p _ e (h.building j m p e hm hb).2

/-- `hab_mem_unexport` decides and takes the id out under one lock. -/
theorem Inv.unexport (h : Inv s) {vchan : ExportVchan π} {c e : ℕ} {id : UInt32}
    (htake : s.vm.takeUnexport vchan.pchan c id = (.ok e, vm')) :
    Inv ⟨vm', s.calls.spawn (.taken vchan e)⟩ := by
  obtain ⟨hentry, hstate, -, hflag, rfl⟩ := ExportVm.takeUnexport_ok htake
  have hidle := h.tables.not_imported hflag
  refine h.spawn_of (h.tables.setIdr_none ?_) (Nat.le_refl _)
    (fun j m hm ↦ (h.stages j m hm).setIdr_none _ _) ⟨nofun, nofun, ?_⟩ nofun nofun nofun rfl
    (fun e he ↦ he) ?_ (fun _ _ heq ↦ by cases heq)
  · intro e' he'
    rw [hentry] at he'
    cases he'
    exact hidle
  · rintro _ ⟨⟩
    obtain ⟨hlt, hid, hp⟩ := h.tables.entry _ _ e hentry
    refine ⟨⟨hlt, hidle⟩, fun q id' hin ↦ ?_⟩
    obtain ⟨hnot, hold⟩ := ExportVm.setIdr_none_eq_some.mp hin
    obtain ⟨-, hid', hq⟩ := h.tables.entry q id' e hold
    exact hnot ⟨Option.some.inj (hq.symm.trans hp), hid'.symm.trans hid⟩
  · intro j m q e' hm hb
    obtain ⟨-, hexp⟩ := (h.stages j m hm).exports e' (ExportStage.exports_of_builds hb)
    have hentry' := (h.building j m q e' hm hb).2
    refine ExportVm.setIdr_none_eq_some.mpr ⟨?_, hentry'⟩
    rintro ⟨rfl, hid⟩
    rw [show (s.vm.desc e').exportId = id from hid, hentry] at hentry'
    cases hentry'
    rw [hstate] at hexp
    cases hexp

theorem Inv.reclaim (h : Inv s) :
    Inv ⟨s.vm.takeReclaimable, s.calls.spawn (.reclaiming s.vm.reclaimable)⟩ := by
  have hchosen : ∀ e, e ∈ s.vm.reclaimable →
      e ∈ s.vm.reclaimList ∧ (s.vm.desc e).remoteImported = false := by
    intro e he
    simpa [ExportVm.reclaimable] using he
  have hq : s.vm.Quiet s.vm.takeReclaimable :=
    ⟨rfl, rfl, rfl, fun _ ↦ ⟨rfl, rfl, rfl, rfl⟩, fun _ ↦ ⟨rfl, rfl⟩, fun _ _ ↦ ⟨rfl, rfl⟩⟩
  refine h.spawn_of (hq.tables h.tables) (Nat.le_refl _)
    (fun j m hm ↦ (h.stages j m hm).quiet hq)
    ⟨fun _ hno ↦ (Option.some_ne_none _ hno.symm).elim, fun e he ↦ ?_,
      fun _ hno ↦ (Option.some_ne_none _ hno.symm).elim⟩
    (fun _ _ _ _ hno ↦ (Option.some_ne_none _ hno.symm).elim)
    (fun _ _ hno ↦ (Option.some_ne_none _ hno.symm).elim)
    (fun e he ↦ ?_) rfl (fun e he ↦ (List.mem_filter.mp he).1)
    (fun j m p e hm hb ↦ (h.building j m p e hm hb).2) (fun _ _ heq ↦ by cases heq)
  · obtain ⟨hin, hflag⟩ := hchosen e (by simpa [ExportStage.chose] using he)
    exact ⟨h.allocated e (Or.inr (Or.inl hin)), h.tables.not_imported hflag⟩
  · obtain ⟨hin, -⟩ := hchosen e (by simpa [ExportStage.handles] using he)
    exact Or.inr (Or.inl hin)

/-- An acknowledged import sets the flag of an export that no one is about to
release. -/
theorem Inv.recvImport (h : Inv s) (hf : s.Flagged) {vchan : ExportVchan π}
    {data : HabImportData} {sent : Bool}
    (hcareful : ∀ e, s.vm.acknowledged vchan.pchan data = some e → sent = true →
      ∀ i stage, s.calls.get i = some stage → stage.chose e = false) :
    Inv { s with vm := s.vm.recvImport vchan data sent } := by
  unfold ExportVm.recvImport
  split
  · exact h
  · rename_i e hack
    obtain ⟨hentry, -, hstate⟩ := ExportVm.acknowledged_eq_some.mp hack
    obtain ⟨hlt, hid, hp⟩ := h.tables.entry _ _ e hentry
    set vm' := (s.vm.setDesc e { s.vm.desc e with remoteImported := true }).habSendImportAck
      vchan e sent with hvm'
    have hdesc : ∀ e', (vm'.desc e').exportId = (s.vm.desc e').exportId ∧
        (vm'.desc e').pchan = (s.vm.desc e').pchan ∧
          (vm'.desc e').expState = (s.vm.desc e').expState := by
      intro e'
      by_cases hne : e' = e
      · subst hne
        simp [hvm', ExportVm.habSendImportAck, ExportVm.setDesc, ExportVm.setLog, hp]
      · simp [hvm', ExportVm.habSendImportAck, ExportVm.setDesc, ExportVm.setLog, hne]
    have hother : ∀ e', e' ≠ e → vm'.log e' = s.vm.log e' ∧
        (vm'.desc e').remoteImported = (s.vm.desc e').remoteImported := by
      intro e' hne
      simp [hvm', ExportVm.habSendImportAck, ExportVm.setDesc, ExportVm.setLog, hne]
    refine h.vm_of ⟨?_, ?_, h.tables.newProto⟩ rfl ?_ (fun c e he ↦ he) rfl rfl
      fun e' ↦ (hdesc e').1
    · intro p id e' he'
      rw [(hdesc e').1, (hdesc e').2.1]
      exact h.tables.entry p id e' he'
    · intro e' he'
      rw [ExportVm.InTable, (hdesc e').1, (hdesc e').2.1]
      by_cases hne : e' = e
      · subst hne
        have hlog : (vm'.log e').revoked = (s.vm.log e').revoked ∧
            (vm'.log e').destroyed = (s.vm.log e').destroyed := by
          simp [hvm', ExportVm.habSendImportAck, ExportVm.setDesc, ExportVm.setLog]
        have hflag : (vm'.desc e').remoteImported = true := by
          simp [hvm', ExportVm.habSendImportAck, ExportVm.setDesc, ExportVm.setLog]
        rw [hlog.1, hlog.2]
        refine ⟨⟨_, hp, hid ▸ hentry⟩, hflag, ?_⟩
        cases sent with
        | false =>
            have hold : s.vm.Imported e' := by
              simpa [hvm', ExportVm.Imported, ExportVm.habSendImportAck, ExportVm.setDesc,
                ExportVm.setLog] using he'
            exact (h.tables.pinned e' hold).2.2
        | true =>
            obtain ⟨hdes, hrev⟩ := hf _ _ e' hentry
            refine ⟨?_, hdes⟩
            by_contra hrevoked
            obtain ⟨i, stage, hget, hchose⟩ := hrev (by simpa using hrevoked)
            rw [hcareful e' hack rfl i stage hget] at hchose
            cases hchose
      · rw [(hother e' hne).1, (hother e' hne).2]
        exact h.tables.pinned e' (by simpa [ExportVm.Imported, (hother e' hne).1] using he')
    · intro j m hm
      refine (h.stages j m hm).keep (Nat.le_refl _) (fun e' huse hlt himp ↦ ?_)
        (fun e' _ _ ↦ (hdesc e').2.2) fun _ _ _ _ hin ↦ hin
      by_cases hne : e' = e
      · -- the call would rely on the export that has just been imported
        subst hne
        cases sent with
        | false => simpa [hvm', ExportVm.Imported, ExportVm.habSendImportAck, ExportVm.setDesc,
            ExportVm.setLog] using himp
        | true =>
            rcases huse with hexp | hchose | htook
            · rw [((h.stages j m hm).exports e' hexp).2] at hstate
              cases hstate
            · rw [hcareful e' hack rfl j m hm] at hchose
              cases hchose
            · exact absurd hentry (((h.stages j m hm).took e' htook).2 _ _)
      · simpa [ExportVm.Imported, (hother e' hne).1] using himp

/-- An UNIMPORT clears the flag when no other import is outstanding. -/
theorem Inv.recvUnimport (h : Inv s) {p : π} {id : UInt32}
    (hcareful : ∀ e, s.vm.expidIdr p id = some e →
      (s.vm.log e).acks ≤ (s.vm.log e).unimports + 1) :
    Inv { s with vm := s.vm.habRecvUnimportMsg p id } := by
  unfold ExportVm.habRecvUnimportMsg
  split
  · exact h
  · rename_i e hentry
    simp only
    split
    · set vm' := (s.vm.setDesc e { s.vm.desc e with remoteImported := false }).setLog e
        { (s.vm.setDesc e { s.vm.desc e with remoteImported := false }).log e with
          unimports := ((s.vm.setDesc e { s.vm.desc e with remoteImported := false }).log
            e).unimports + 1 } with hvm'
      have hdesc : ∀ e', (vm'.desc e').exportId = (s.vm.desc e').exportId ∧
          (vm'.desc e').pchan = (s.vm.desc e').pchan ∧
            (vm'.desc e').expState = (s.vm.desc e').expState := by
        intro e'
        by_cases hne : e' = e
        · subst hne
          simp [hvm', ExportVm.setDesc, ExportVm.setLog]
        · simp [hvm', ExportVm.setDesc, ExportVm.setLog, hne]
      have hother : ∀ e', e' ≠ e → vm'.log e' = s.vm.log e' ∧ vm'.desc e' = s.vm.desc e' := by
        intro e' hne
        simp [hvm', ExportVm.setDesc, ExportVm.setLog, hne]
      have hidle : ¬ vm'.Imported e := by
        have := hcareful e hentry
        simp only [hvm', ExportVm.Imported, ExportVm.setDesc, ExportVm.setLog,
          Function.update_self]
        omega
      have himp : ∀ e', vm'.Imported e' → e' ≠ e ∧ s.vm.Imported e' := by
        intro e' he'
        have hne : e' ≠ e := by
          rintro rfl
          exact hidle he'
        exact ⟨hne, by simpa [ExportVm.Imported, (hother e' hne).1] using he'⟩
      refine h.vm_of ⟨?_, ?_, h.tables.newProto⟩ rfl ?_ (fun c e he ↦ he) rfl rfl
        fun e' ↦ (hdesc e').1
      · intro p id e' he'
        rw [(hdesc e').1, (hdesc e').2.1]
        exact h.tables.entry p id e' he'
      · intro e' he'
        obtain ⟨hne, hold⟩ := himp e' he'
        rw [ExportVm.InTable, (hother e' hne).1, (hother e' hne).2]
        exact h.tables.pinned e' hold
      · exact fun j m hm ↦ (h.stages j m hm).keep (Nat.le_refl _)
          (fun e' _ _ he' ↦ (himp e' he').2) (fun e' _ _ ↦ (hdesc e').2.2) fun _ _ _ _ hin ↦ hin
    · exact h

/-! ## Runs -/

theorem Inv.step {s s' : ExportSystem π} (h : Inv s) (hf : s.Flagged) (act : ExportAct π)
    (hact : s.Careful act) (hstep : s.step act = some s') : Inv s' := by
  cases act with
  | «export» c v id payloadCount =>
      obtain ⟨vchan, -, hnext⟩ := Option.bind_eq_some_iff.mp hstep
      split at hnext
      · cases hnext
      · rename_i hfree
        cases hnext
        exact h.export (Option.not_isSome_iff_eq_none.mp hfree) payloadCount
  | unexport c v id =>
      obtain ⟨vchan, -, hnext⟩ := Option.bind_eq_some_iff.mp hstep
      split at hnext
      · cases hnext
        exact h
      · rename_i htake
        cases hnext
        exact h.unexport htake
  | ctxFree c =>
      simp only [ExportSystem.step] at hstep
      split at hstep
      · cases hstep
        exact h.spawn_of h.tables (Nat.le_refl _) h.stages
          ⟨fun _ hno ↦ (Option.some_ne_none _ hno.symm).elim,
            fun _ hc ↦ (Bool.false_ne_true hc).elim,
            fun _ hno ↦ (Option.some_ne_none _ hno.symm).elim⟩
          (fun _ _ _ _ hno ↦ (Option.some_ne_none _ hno.symm).elim)
          (fun _ _ hno ↦ (Option.some_ne_none _ hno.symm).elim)
          (fun _ hc ↦ (Bool.false_ne_true hc).elim)
          rfl (fun e he ↦ he) (fun j m p e hm hb ↦ (h.building j m p e hm hb).2)
          (fun _ _ heq ↦ by cases heq)
      · cases hstep
  | reclaim =>
      simp only [ExportSystem.step] at hstep
      split at hstep
      · cases hstep
        exact h.reclaim
      · cases hstep
  | advance i ok =>
      obtain ⟨stage, hget, hnext⟩ := Option.bind_eq_some_iff.mp hstep
      obtain ⟨⟨vm', stage'⟩, hrun, hnext⟩ := Option.bind_eq_some_iff.mp hnext
      cases hnext
      exact h.advance hget hact hrun
  | recvImport v data sent =>
      obtain ⟨vchan, hvchan, hnext⟩ := Option.bind_eq_some_iff.mp hstep
      cases hnext
      exact h.recvImport hf fun e hack hsent ↦ hact vchan e hvchan hack hsent
  | recvUnimport p id =>
      cases hstep
      exact h.recvUnimport hact
  | ctxAlloc c =>
      simp only [ExportSystem.step] at hstep
      split at hstep
      · cases hstep
      · cases hstep
        refine h.vm_quiet ?_ (fun c' e he ↦ ?_) rfl
        · exact ⟨rfl, rfl, rfl, fun _ ↦ ⟨rfl, rfl, rfl, rfl⟩, fun _ ↦ ⟨rfl, rfl⟩,
            fun _ _ ↦ ⟨rfl, rfl⟩⟩
        · by_cases hc : c' = c
          · subst hc
            simp [ExportVm.setCtx] at he
          · simpa [ExportVm.setCtx, hc] using he
  | openVchan vchan =>
      simp only [ExportSystem.step] at hstep
      split at hstep
      · cases hstep
        exact h.vm_quiet ⟨rfl, rfl, rfl, fun _ ↦ ⟨rfl, rfl, rfl, rfl⟩, fun _ ↦ ⟨rfl, rfl⟩,
          fun _ _ ↦ ⟨rfl, rfl⟩⟩ (fun _ _ he ↦ he) rfl
      · cases hstep
  | freeVchan v =>
      simp only [ExportSystem.step] at hstep
      split at hstep
      · cases hstep
        exact h.vm_quiet ⟨rfl, rfl, rfl, fun _ ↦ ⟨rfl, rfl, rfl, rfl⟩, fun _ ↦ ⟨rfl, rfl⟩,
          fun _ _ ↦ ⟨rfl, rfl⟩⟩ (fun _ _ he ↦ he) rfl
      · cases hstep
  | negotiate p newProto =>
      cases hstep
      have hnew : newProto = true := hact
      have hsame : Function.update s.vm.memProto p newProto = s.vm.memProto := by
        rw [hnew, ← h.tables.newProto p]
        exact Function.update_eq_self p s.vm.memProto
      exact h.vm_quiet ⟨rfl, rfl, hsame, fun _ ↦ ⟨rfl, rfl, rfl, rfl⟩, fun _ ↦ ⟨rfl, rfl⟩,
        fun _ _ ↦ ⟨rfl, rfl⟩⟩ (fun _ _ he ↦ he) rfl

theorem Flagged.recvImport (hf : s.Flagged) (vchan : ExportVchan π) (data : HabImportData)
    (sent : Bool) : Flagged { s with vm := s.vm.recvImport vchan data sent } := by
  unfold ExportVm.recvImport
  split
  · exact hf
  · rename_i e _
    refine hf.vm_of rfl fun e' ↦ ?_
    by_cases hne : e' = e
    · subst hne
      simp [ExportVm.habSendImportAck, ExportVm.setDesc, ExportVm.setLog]
    · simp [ExportVm.habSendImportAck, ExportVm.setDesc, ExportVm.setLog, hne]

theorem Flagged.recvUnimport (hf : s.Flagged) (p : π) (id : UInt32) :
    Flagged { s with vm := s.vm.habRecvUnimportMsg p id } := by
  unfold ExportVm.habRecvUnimportMsg
  split
  · exact hf
  · rename_i e _
    simp only
    split
    · refine hf.vm_of rfl fun e' ↦ ?_
      by_cases hne : e' = e
      · subst hne
        simp [ExportVm.setDesc, ExportVm.setLog]
      · simp [ExportVm.setDesc, ExportVm.setLog, hne]
    · exact hf

theorem Flagged.step {s s' : ExportSystem π} (hf : s.Flagged) (h : Inv s) (act : ExportAct π)
    (hstep : s.step act = some s') : Flagged s' := by
  cases act with
  | «export» c v id payloadCount =>
      obtain ⟨vchan, -, hnext⟩ := Option.bind_eq_some_iff.mp hstep
      split at hnext
      · cases hnext
      · cases hnext
        refine hf.spawn_of _ fun p id' e he ↦ ?_
        rcases ExportVm.setIdr_some_eq_some.mp he with ⟨-, -, rfl⟩ | ⟨-, hold⟩
        · refine Or.inr ?_
          simp [ExportVm.habmemAddExport, ExportVm.setDesc, ExportVm.setLog, ExportVm.setIdr]
        · have hlt := (h.tables.entry p id' e hold).1
          exact Or.inl ⟨hold, Function.update_of_ne (Nat.ne_of_lt hlt) _ _⟩
  | unexport c v id =>
      obtain ⟨vchan, -, hnext⟩ := Option.bind_eq_some_iff.mp hstep
      split at hnext
      · cases hnext
        exact hf
      · rename_i htake
        cases hnext
        obtain ⟨-, -, -, -, rfl⟩ := ExportVm.takeUnexport_ok htake
        exact hf.spawn_of _ fun p id' e he ↦
          Or.inl ⟨(ExportVm.setIdr_none_eq_some.mp he).2, rfl⟩
  | ctxFree c =>
      simp only [ExportSystem.step] at hstep
      split at hstep
      · cases hstep
        exact hf.spawn_of _ fun p id' e he ↦ Or.inl ⟨he, rfl⟩
      · cases hstep
  | reclaim =>
      simp only [ExportSystem.step] at hstep
      split at hstep
      · cases hstep
        exact hf.spawn_of _ fun p id' e he ↦ Or.inl ⟨he, rfl⟩
      · cases hstep
  | advance i ok =>
      obtain ⟨stage, hget, hnext⟩ := Option.bind_eq_some_iff.mp hstep
      obtain ⟨⟨vm', stage'⟩, hrun, hnext⟩ := Option.bind_eq_some_iff.mp hnext
      cases hnext
      exact hf.advance h hget hrun
  | recvImport v data sent =>
      obtain ⟨vchan, -, hnext⟩ := Option.bind_eq_some_iff.mp hstep
      cases hnext
      exact hf.recvImport vchan data sent
  | recvUnimport p id =>
      cases hstep
      exact hf.recvUnimport p id
  | ctxAlloc c =>
      simp only [ExportSystem.step] at hstep
      split at hstep
      · cases hstep
      · cases hstep
        exact hf.vm_of rfl fun _ ↦ ⟨rfl, rfl⟩
  | openVchan vchan =>
      simp only [ExportSystem.step] at hstep
      split at hstep
      · cases hstep
        exact hf.vm_of rfl fun _ ↦ ⟨rfl, rfl⟩
      · cases hstep
  | freeVchan v =>
      simp only [ExportSystem.step] at hstep
      split at hstep
      · cases hstep
        exact hf.vm_of rfl fun _ ↦ ⟨rfl, rfl⟩
      · cases hstep
  | negotiate p newProto =>
      cases hstep
      exact hf.vm_of rfl fun _ ↦ ⟨rfl, rfl⟩

/-- In a careful run, what is imported stays. -/
theorem pinned_of_exec (acts : List (ExportAct π)) {s : ExportSystem π}
    (hcareful : Meets step Careful start acts) (hrun : exec step start acts = some s) :
    s.Pinned := by
  have hkeep : ∀ (s : ExportSystem π) act t, Inv s ∧ s.Flagged → s.Careful act →
      s.step act = some t → Inv t ∧ t.Flagged :=
    fun s act t h hact hstep ↦ ⟨h.1.step h.2 act hact hstep, h.2.step h.1 act hstep⟩
  have hstart : Inv (start : ExportSystem π) ∧ (start : ExportSystem π).Flagged :=
    ⟨inv_start, nofun⟩
  exact (invariant_of_meets hkeep hstart hcareful hrun).1.pinned

theorem chose_eq_false {calls : Pool (ExportStage π)} {e i : ℕ} {stage : ExportStage π}
    (hall : calls.all (fun stage ↦ !stage.chose e) = true) (hget : calls.get i = some stage) :
    stage.chose e = false := by
  have hnot := Pool.all_eq_true.mp hall i stage hget
  simpa using hnot

/-- Export 1 is shared with an importer on each of the listed vchans, of which one
lets go of it. -/
def shareWith (importers : List ℕ) : List (ExportAct Unit) :=
  [.ctxAlloc 0, .openVchan ⟨0, 0, ()⟩, .openVchan ⟨1, 0, ()⟩, .export 0 0 1 4, .advance 0 true,
    .advance 0 true, .advance 0 true] ++
    importers.map (fun v ↦ .recvImport v ⟨1, 4⟩ true) ++ [.recvUnimport () 1, .unexport 0 0 1]

theorem pinned_of_exec_one_importer :
    ∃ s, exec step start (shareWith [0]) = some s ∧ s.Pinned := by
  refine ⟨_, rfl, pinned_of_exec (shareWith [0]) ?_ rfl⟩
  refine ⟨trivial, trivial, trivial, trivial, ?_, ?_, ?_, ?_, ?_, trivial, trivial⟩
  · rintro c e freeList (h | h) <;> cases h
  · rintro c e freeList (h | h) <;> cases h
  · rintro c e freeList (h | h) <;> cases h
  · intro vchan e hvchan he _ i stage hget
    cases hvchan
    cases he
    exact chose_eq_false (by decide) hget
  · intro e he
    cases he
    decide

/-- With two importers the first one to let go leaves the other with memory that
the exporter gets back. -/
theorem not_pinned_two_importers :
    ∃ s, exec step start (shareWith [0, 1]) = some s ∧ ¬ s.Pinned := by
  refine ⟨_, rfl, fun h ↦ ?_⟩
  obtain ⟨⟨p, -, hentry⟩, -⟩ := h 0 (by decide)
  cases hentry

end ExportSystem

end Hab
