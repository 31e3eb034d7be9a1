import Hab.Library.Runs
import Hab.ExportInvariant

/-!
# Who owns an export

The IMPORT handler writes the context of the vchan a message came in on into
the descriptor.  As long as that is the exporter's own context, and the address
of a freed context is not used again before its exports are reclaimed,
ownership and the counts stay right in every run.
-/

namespace Hab

open Runs

variable {π : Type*} [DecidableEq π]

namespace ExportVm

/-- The ownership invariant, and what follows from it for `hab_mem_unexport`. -/
structure ExportsOwned (vm : ExportVm π) : Prop where
  owned : ∀ c, (vm.ctx c).live → ∀ e ∈ (vm.ctx c).expWhse,
    (vm.desc e).ctx = some c ∧
      ∃ p, (vm.desc e).pchan = some p ∧ vm.expidIdr p (vm.desc e).exportId = some e
  counted : ∀ c, (vm.ctx c).live → (vm.ctx c).exportTotal = (vm.ctx c).expWhse.length
  unexport : ∀ c v id, (vm.habMemUnexport c v id).1 = none →
    ∃ vchan e, vm.getVchan c v = some vchan ∧ vm.expidIdr vchan.pchan id = some e ∧
      (vm.log e).exporter = c

/-- The condition on a step: an import that is acknowledged came in on a vchan of
the exporting context, and a new context is not put where a freed one was whose
exports are still to be reclaimed. -/
def FromExporter (vm : ExportVm π) : ExportCall π → Prop
  | .recvImport v data _ =>
      ∀ vchan, vm.vchanAt v = some vchan →
        ∀ e, vm.acknowledged vchan.pchan data = some e → (vm.log e).exporter = vchan.ctx
  | .ctxAlloc c => ∀ e ∈ vm.reclaimList, (vm.desc e).ctx ≠ some c
  | _ => True

variable {vm vm' : ExportVm π} {held : List ℕ}

/-! ## The calls -/

omit [DecidableEq π] in
theorem mem_of_getVchan {c v : ℕ} {vchan : ExportVchan π} (h : vm.getVchan c v = some vchan) :
    vchan ∈ vm.vchans ∧ vchan.ctx = c := by
  have hfound := List.find?_some (p := fun vchan : ExportVchan π ↦
    decide (vchan.addr = v ∧ vchan.ctx = c)) h
  rw [decide_eq_true_eq] at hfound
  exact ⟨List.mem_of_find?_eq_some h, hfound.2⟩

theorem Owned.habMemExport (h : Owned none [] vm) {c v : ℕ} {id payloadCount : UInt32}
    {outcome : ExportOutcome} {ret : Option Errno}
    (hcall : vm.habMemExport c v id payloadCount outcome = some (ret, vm')) :
    Owned none [] vm' := by
  unfold ExportVm.habMemExport at hcall
  split at hcall
  · cases hcall
    exact h
  · rename_i vchan hvchan
    obtain ⟨hmem, rfl⟩ := mem_of_getVchan hvchan
    simp only at hcall
    split at hcall
    · cases hcall
      exact h.congr (fun _ _ ↦ ⟨rfl, rfl, rfl, rfl⟩) (fun _ _ ↦ rfl) rfl rfl rfl
        (Nat.le_succ _) h.vchans
    · split at hcall
      · cases hcall
      · rename_i hfree
        rw [Option.not_isSome_iff_eq_none] at hfree
        split at hcall
        · cases hcall
        · cases hcall
          exact h
        · -- the entry just made is removed again
          split at hcall
          · cases hcall
          · cases hcall
            refine h.congr (fun e he ↦ ?_) (fun e he ↦ ?_) ?_ rfl rfl (Nat.le_succ _) h.vchans
            · simp [habmemAddExport, idrRemove, destroy, setLog, setDesc, setIdr,
                Function.update_of_ne (Nat.ne_of_lt he)]
            · simp [habmemAddExport, idrRemove, destroy, setLog, setDesc, setIdr,
                Function.update_of_ne (Nat.ne_of_lt he)]
            · simp [habmemAddExport, idrRemove, destroy, setLog, setDesc, setIdr, ← hfree]
        · cases hcall
          exact h.add hfree _
        · split at hcall
          · cases hcall
            exact h.add hfree _
          · cases hcall
        · split at hcall
          · cases hcall
            exact h.add hfree _
          · cases hcall
        · have hdone := linkExport_habmemAddExport vm vchan id payloadCount
          simp only at hdone
          rw [hdone] at hcall
          cases hcall
          exact h.exported hmem hfree _

omit [DecidableEq π] in
/-- What is found under an id by a context that still has vchans is on that
context's list. -/
theorem Owned.mem_expWhse (h : Owned none [] vm) {p : π} {c e : ℕ} {id : UInt32}
    (hlive : (vm.ctx c).live) (hentry : vm.expidIdr p id = some e)
    (hstate : (vm.desc e).expState = .success) (hctx : (vm.desc e).ctx = some c) :
    vm.Registered c e ∧ e ∈ (vm.ctx c).expWhse ∧ (vm.desc e).pchan = some p ∧
      (vm.desc e).exportId = id := by
  obtain ⟨-, hid, hsuccess⟩ := h.idr p id e hentry
  obtain ⟨hp, c', hreg, hmem⟩ := hsuccess hstate
  cases hreg.ctx.symm.trans hctx
  refine ⟨hreg, hmem.resolve_right fun hwaits ↦ ?_, hp, hid⟩
  obtain ⟨c'', hreg'', hdead⟩ := h.reclaim e hwaits
  cases hreg''.ctx_unique hreg
  cases hdead hlive

theorem Owned.habMemUnexport (h : Owned none [] vm) (c v : ℕ) (id : UInt32) :
    Owned none [] (vm.habMemUnexport c v id).2 := by
  unfold ExportVm.habMemUnexport
  split
  · exact h
  · rename_i vchan hvchan
    obtain ⟨hmem, rfl⟩ := mem_of_getVchan hvchan
    split
    · rename_i htake
      rw [takeUnexport_error htake]
      exact h
    · rename_i htake
      obtain ⟨hentry, hstate, hctx, -, rfl⟩ := takeUnexport_ok htake
      obtain ⟨-, hwhse, hp, rfl⟩ := h.mem_expWhse (h.vchans vchan hmem).1 hentry hstate hctx
      exact h.release hwhse (List.not_mem_nil) hp

/-- Only the exporter's own context gets a 0 from `hab_mem_unexport`. -/
theorem Owned.unexport (h : Owned none [] vm) {c v : ℕ} {id : UInt32}
    (hret : (vm.habMemUnexport c v id).1 = none) :
    ∃ vchan e, vm.getVchan c v = some vchan ∧ vm.expidIdr vchan.pchan id = some e ∧
      (vm.log e).exporter = c := by
  unfold ExportVm.habMemUnexport at hret
  split at hret
  · cases hret
  · rename_i vchan hvchan
    obtain ⟨hmem, rfl⟩ := mem_of_getVchan hvchan
    split at hret
    · cases hret
    · rename_i e _ htake
      obtain ⟨hentry, hstate, hctx, -, -⟩ := takeUnexport_ok htake
      obtain ⟨hreg, -⟩ := h.mem_expWhse (h.vchans vchan hmem).1 hentry hstate hctx
      exact ⟨vchan, e, hvchan, hentry, hreg.exporter⟩

/-! ### Context free -/

omit [DecidableEq π] in
/-- The context that is freed gives an export that is still imported to the
reclaim worker. -/
theorem Owned.reclaimLater {c e : ℕ} (h : Owned (some c) [] vm) (he : e ∈ (vm.ctx c).expWhse) :
    Owned (some c) [] ((vm.unlink e).reclaimLater e) := by
  have hreg : ∀ c' e', vm.Registered c' e' →
      ((vm.unlink e).reclaimLater e).Registered c' e' :=
    fun c' e' hreg ↦ hreg.frame (Nat.le_refl _) rfl rfl fun _ _ hentry ↦ hentry
  have hawait : ∀ e', e' ∈ ((vm.unlink e).reclaimLater e).reclaimList ++ [] ↔
      e' = e ∨ e' ∈ vm.reclaimList ++ [] := by
    intro e'
    by_cases hne : e' = e
    · subst hne
      simp [ExportVm.reclaimLater]
    · simp [ExportVm.reclaimLater, unlink, List.mem_erase_of_ne hne, hne]
  constructor
  · intro p id e' hentry
    obtain ⟨hlt, hid, hsuccess⟩ := h.idr p id e' hentry
    refine ⟨hlt, hid, fun hs ↦ ?_⟩
    obtain ⟨hp, c', hreg', hmem⟩ := hsuccess hs
    refine ⟨hp, c', hreg c' e' hreg', ?_⟩
    by_cases hne : e' = e
    · exact Or.inr ((hawait e').mpr (Or.inl hne))
    · exact hmem.imp (List.mem_erase_of_ne hne).mpr fun hmem ↦ (hawait e').mpr (Or.inr hmem)
  · intro c' e' he'
    obtain ⟨hreg', hlive⟩ := h.linked c' e' (List.mem_of_mem_erase he')
    exact ⟨hreg c' e' hreg', hlive⟩
  · exact fun c' ↦ (h.nodup c').erase e
  · intro c' hlive hfree
    have hnot : e ∉ (vm.ctx c').expWhse := by
      intro hmem
      cases (h.linked c' e hmem).1.ctx_unique (h.linked c e he).1
      exact hfree rfl
    have hcount := h.counted c' hlive hfree
    simpa [ExportVm.reclaimLater, unlink, List.erase_of_not_mem hnot] using hcount
  · intro e' he'
    rcases (hawait e').mp he' with rfl | hmem
    · exact ⟨c, hreg c e' (h.linked c e' he).1, fun _ ↦ rfl⟩
    · obtain ⟨c', hreg', hdead⟩ := h.reclaim e' hmem
      exact ⟨c', hreg c' e' hreg', hdead⟩
  · have hnodup := h.reclaimNodup
    rw [List.append_nil] at hnodup
    simp only [ExportVm.reclaimLater, unlink, List.append_nil]
    refine List.nodup_append.mpr ⟨hnodup.erase e, by simp, ?_⟩
    rintro e' he' _ hmem rfl
    rw [List.mem_singleton.mp hmem] at he'
    exact (hnodup.mem_erase_iff.mp he').1 rfl
  · exact h.vchans

/-- One descriptor of the context that is freed. -/
theorem Owned.ctxFreeExport {c e : ℕ} {rest : List ℕ} (h : Owned (some c) [] vm)
    (hwhse : (vm.ctx c).expWhse = e :: rest) (hstep : vm.ctxFreeExport e = some vm') :
    Owned (some c) [] vm' ∧ (vm'.ctx c).expWhse = rest := by
  have he : e ∈ (vm.ctx c).expWhse := by
    rw [hwhse]
    exact List.mem_cons_self
  have hreg := (h.linked c e he).1
  obtain ⟨p, hp, -⟩ := hreg.entry
  simp only [ExportVm.ctxFreeExport, hp, Option.map_some, Option.some.injEq] at hstep
  split at hstep <;> subst hstep
  · refine ⟨h.reclaimLater he, ?_⟩
    simp [ExportVm.reclaimLater, unlink, hwhse]
  · refine ⟨h.release he (List.not_mem_nil) hp, ?_⟩
    have hrelease := release_eq (p := p) hreg.ctx
    rw [ExportVm.release] at hrelease
    rw [hrelease]
    simp [hwhse]

theorem Owned.ctxFreeExports {c : ℕ} {whse : List ℕ} (h : Owned (some c) [] vm)
    (hwhse : (vm.ctx c).expWhse = whse)
    (hstep : whse.foldlM ExportVm.ctxFreeExport vm = some vm') :
    Owned (some c) [] vm' ∧ (vm'.ctx c).expWhse = [] := by
  induction whse generalizing vm with
  | nil =>
      cases hstep
      exact ⟨h, hwhse⟩
  | cons e rest ih =>
      rw [List.foldlM_cons] at hstep
      obtain ⟨vm₁, hfirst, hrest⟩ := Option.bind_eq_some_iff.mp hstep
      obtain ⟨hkeep, hleft⟩ := h.ctxFreeExport hwhse hfirst
      exact ih hkeep hleft hrest

theorem Owned.habCtxFree {c : ℕ} (h : Owned none [] vm) (hstep : vm.habCtxFree c = some vm') :
    Owned none [] vm' := by
  unfold ExportVm.habCtxFree at hstep
  split at hstep
  · rename_i hok
    obtain ⟨vm₁, hfold, hfreed⟩ := Option.map_eq_some_iff.mp hstep
    have hstart : Owned (some c) [] vm :=
      { h with
        counted := fun c' hlive _ ↦ h.counted c' hlive (Option.some_ne_none c').symm
        reclaim := fun e he ↦ by
          obtain ⟨c', hreg, hdead⟩ := h.reclaim e he
          exact ⟨c', hreg, fun hlive ↦ absurd (hdead hlive).symm (Option.some_ne_none c')⟩
        vchans := fun vchan hmem ↦
          ⟨(h.vchans vchan hmem).1, fun heq ↦ hok.2 vchan hmem (Option.some.inj heq).symm⟩ }
    obtain ⟨hend, hempty⟩ := hstart.ctxFreeExports rfl hfold
    subst hfreed
    have hreg : ∀ c' e', vm₁.Registered c' e' →
        (vm₁.setCtx c { vm₁.ctx c with live := false }).Registered c' e' :=
      fun c' e' hreg ↦ hreg.frame (Nat.le_refl _) rfl rfl fun _ _ hentry ↦ hentry
    have hwhse : ∀ c', ((vm₁.setCtx c { vm₁.ctx c with live := false }).ctx c').expWhse =
        (vm₁.ctx c').expWhse := by
      intro c'
      by_cases hc : c' = c
      · subst hc
        simp [setCtx]
      · simp [setCtx, hc]
    constructor
    · intro p id e hentry
      obtain ⟨hlt, hid, hsuccess⟩ := hend.idr p id e hentry
      refine ⟨hlt, hid, fun hs ↦ ?_⟩
      obtain ⟨hp, c', hreg', hmem⟩ := hsuccess hs
      exact ⟨hp, c', hreg c' e hreg', by rw [hwhse]; exact hmem⟩
    · intro c' e he
      rw [hwhse] at he
      have hne : c' ≠ c := by
        rintro rfl
        rw [hempty] at he
        cases he
      obtain ⟨hreg', hlive⟩ := hend.linked c' e he
      exact ⟨hreg c' e hreg', by simpa [setCtx, hne] using hlive⟩
    · intro c'
      rw [hwhse]
      exact hend.nodup c'
    · intro c' hlive _
      by_cases hc : c' = c
      · subst hc
        simp [setCtx] at hlive
      · simp only [setCtx, Function.update_of_ne hc] at hlive ⊢
        exact hend.counted c' hlive fun heq ↦ hc (Option.some.inj heq).symm
    · intro e he
      obtain ⟨c', hreg', hdead⟩ := hend.reclaim e he
      refine ⟨c', hreg c' e hreg', fun hlive ↦ ?_⟩
      by_cases hc : c' = c
      · subst hc
        simp [setCtx] at hlive
      · simp only [setCtx, Function.update_of_ne hc] at hlive
        exact absurd (Option.some.inj (hdead hlive)).symm hc
    · exact hend.reclaimNodup
    · intro vchan hmem
      obtain ⟨hlive, hother⟩ := hend.vchans vchan hmem
      refine ⟨?_, (Option.some_ne_none vchan.ctx).symm⟩
      have hne : vchan.ctx ≠ c := fun heq ↦ hother (by rw [heq])
      simpa [setCtx, hne] using hlive
  · cases hstep

/-! ### The reclaim worker -/

omit [DecidableEq π] in
theorem Owned.takeReclaimable (h : Owned none [] vm) :
    Owned none vm.reclaimable vm.takeReclaimable := by
  have hperm : (vm.takeReclaimable.reclaimList ++ vm.reclaimable).Perm (vm.reclaimList ++ []) := by
    rw [List.append_nil]
    have hparts := List.filter_append_perm (fun e ↦ (vm.desc e).remoteImported) vm.reclaimList
    refine List.Perm.trans (List.Perm.append_left _ (List.reverse_perm _)) ?_
    simpa [ExportVm.takeReclaimable] using hparts
  have hreg : ∀ c e, vm.Registered c e → vm.takeReclaimable.Registered c e :=
    fun c e hreg ↦ hreg.frame (Nat.le_refl _) rfl rfl fun _ _ hentry ↦ hentry
  constructor
  · intro p id e hentry
    obtain ⟨hlt, hid, hsuccess⟩ := h.idr p id e hentry
    refine ⟨hlt, hid, fun hs ↦ ?_⟩
    obtain ⟨hp, c, hc, hmem⟩ := hsuccess hs
    exact ⟨hp, c, hreg c e hc, hmem.imp_right hperm.mem_iff.mpr⟩
  · exact fun c e he ↦ ⟨hreg c e (h.linked c e he).1, (h.linked c e he).2⟩
  · exact h.nodup
  · exact h.counted
  · intro e he
    obtain ⟨c, hc, hdead⟩ := h.reclaim e (hperm.mem_iff.mp he)
    exact ⟨c, hreg c e hc, hdead⟩
  · exact hperm.nodup_iff.mpr h.reclaimNodup
  · exact h.vchans

theorem Owned.reclaimExports (h : Owned none held vm)
    (hstep : held.foldlM ExportVm.reclaimExport vm = some vm') : Owned none [] vm' := by
  induction held generalizing vm with
  | nil =>
      cases hstep
      exact h
  | cons e held ih =>
      rw [List.foldlM_cons] at hstep
      obtain ⟨vm₁, hfirst, hrest⟩ := Option.bind_eq_some_iff.mp hstep
      exact ih (h.reclaimExport hfirst) hrest

/-! ### Messages, contexts and vchans -/

omit [DecidableEq π] in
/-- An import that comes in on a vchan of the exporter rewrites the descriptor
with what it already says. -/
theorem Owned.recvImport (h : Owned none [] vm) {vchan : ExportVchan π} {data : HabImportData}
    (hexporter : ∀ e, vm.acknowledged vchan.pchan data = some e →
      (vm.log e).exporter = vchan.ctx) (sent : Bool) :
    Owned none [] (vm.recvImport vchan data sent) := by
  unfold ExportVm.recvImport
  split
  · exact h
  · rename_i e hack
    obtain ⟨hentry, -, hstate⟩ := acknowledged_eq_some.mp hack
    obtain ⟨-, -, hsuccess⟩ := h.idr _ _ e hentry
    obtain ⟨hp, c, hreg, -⟩ := hsuccess hstate
    have hctx : (vm.desc e).ctx = some vchan.ctx := by
      rw [hreg.ctx, ← hreg.exporter, hexporter e hack]
    refine h.congr (fun e' _ ↦ ?_) (fun e' _ ↦ ?_) rfl rfl rfl (Nat.le_refl _) h.vchans
    · by_cases hne : e' = e
      · subst hne
        simp [habSendImportAck, setDesc, setLog, hp, hctx]
      · simp [habSendImportAck, setDesc, setLog, hne]
    · by_cases hne : e' = e
      · subst hne
        simp [habSendImportAck, setDesc, setLog]
      · simp [habSendImportAck, setDesc, setLog, hne]

theorem Owned.habRecvUnimportMsg (h : Owned none [] vm) (p : π) (id : UInt32) :
    Owned none [] (vm.habRecvUnimportMsg p id) := by
  unfold ExportVm.habRecvUnimportMsg
  split
  · exact h
  · rename_i e _
    split
    · refine h.congr (fun e' _ ↦ ?_) (fun e' _ ↦ ?_) rfl rfl rfl (Nat.le_refl _) h.vchans
      · by_cases hne : e' = e
        · subst hne
          simp [setDesc, setLog]
        · simp [setDesc, setLog, hne]
      · by_cases hne : e' = e
        · subst hne
          simp [setDesc, setLog]
        · simp [setDesc, setLog, hne]
    · exact h

omit [DecidableEq π] in
/-- A new context may take the address of a freed one once nothing of that one
waits for the reclaim worker. -/
theorem Owned.habCtxAlloc (h : Owned none [] vm) {c : ℕ}
    (hunused : ∀ e ∈ vm.reclaimList, (vm.desc e).ctx ≠ some c)
    (hstep : vm.habCtxAlloc c = some vm') : Owned none [] vm' := by
  unfold ExportVm.habCtxAlloc at hstep
  split at hstep
  · cases hstep
  · rename_i hdead
    cases hstep
    have hreg : ∀ c' e, vm.Registered c' e → (vm.setCtx c ⟨true, [], 0⟩).Registered c' e :=
      fun c' e hreg ↦ hreg.frame (Nat.le_refl _) rfl rfl fun _ _ hentry ↦ hentry
    have hempty : ∀ c' e, e ∈ (vm.ctx c').expWhse → c' ≠ c := by
      rintro c' e he rfl
      exact hdead (h.linked c' e he).2
    constructor
    · intro p id e hentry
      obtain ⟨hlt, hid, hsuccess⟩ := h.idr p id e hentry
      refine ⟨hlt, hid, fun hs ↦ ?_⟩
      obtain ⟨hp, c', hreg', hmem⟩ := hsuccess hs
      refine ⟨hp, c', hreg c' e hreg', hmem.imp_left fun he ↦ ?_⟩
      simpa [setCtx, hempty c' e he] using he
    · intro c' e he
      by_cases hc : c' = c
      · subst hc
        simp [setCtx] at he
      · simp only [setCtx, Function.update_of_ne hc] at he ⊢
        exact ⟨hreg c' e (h.linked c' e he).1, (h.linked c' e he).2⟩
    · intro c'
      by_cases hc : c' = c
      · subst hc
        simp [setCtx]
      · simpa [setCtx, hc] using h.nodup c'
    · intro c' hlive _
      by_cases hc : c' = c
      · subst hc
        simp [setCtx]
      · simp only [setCtx, Function.update_of_ne hc] at hlive ⊢
        exact h.counted c' hlive (Option.some_ne_none c').symm
    · intro e he
      obtain ⟨c', hreg', hgone⟩ := h.reclaim e he
      refine ⟨c', hreg c' e hreg', fun hlive ↦ ?_⟩
      have hc : c' ≠ c := by
        rintro rfl
        rw [List.append_nil] at he
        exact hunused e he hreg'.ctx
      exact hgone (by simpa [setCtx, hc] using hlive)
    · exact h.reclaimNodup
    · intro vchan hmem
      refine ⟨?_, (Option.some_ne_none vchan.ctx).symm⟩
      by_cases hc : vchan.ctx = c
      · simp [setCtx, hc]
      · simpa [setCtx, hc] using (h.vchans vchan hmem).1

omit [DecidableEq π] in
theorem Owned.openVchan (h : Owned none [] vm) {vchan : ExportVchan π}
    (hstep : vm.openVchan vchan = some vm') : Owned none [] vm' := by
  unfold ExportVm.openVchan at hstep
  split at hstep
  · rename_i hok
    cases hstep
    refine h.congr (fun _ _ ↦ ⟨rfl, rfl, rfl, rfl⟩) (fun _ _ ↦ rfl) rfl rfl rfl (Nat.le_refl _) ?_
    intro other hother
    rcases List.mem_cons.mp hother with rfl | hmem
    · exact ⟨hok.1, nofun⟩
    · exact h.vchans other hmem
  · cases hstep

omit [DecidableEq π] in
theorem Owned.freeVchan (h : Owned none [] vm) (v : ℕ) : Owned none [] (vm.freeVchan v) :=
  h.congr (fun _ _ ↦ ⟨rfl, rfl, rfl, rfl⟩) (fun _ _ ↦ rfl) rfl rfl rfl (Nat.le_refl _)
    fun vchan hvchan ↦ h.vchans vchan (List.mem_of_mem_filter hvchan)

/-! ## Runs -/

theorem Owned.call (h : Owned none [] vm) (op : ExportCall π) (hop : vm.FromExporter op)
    (hstep : vm.call op = some vm') : Owned none [] vm' := by
  cases op with
  | «export» c v id payloadCount outcome =>
      obtain ⟨⟨ret, vm₁⟩, hcall, rfl⟩ := Option.map_eq_some_iff.mp hstep
      exact h.habMemExport hcall
  | unexport c v id =>
      cases hstep
      exact h.habMemUnexport c v id
  | ctxFree c => exact h.habCtxFree hstep
  | recvImport v data sent =>
      cases hstep
      cases hv : vm.vchanAt v with
      | none => exact h
      | some vchan => exact h.recvImport (hop vchan hv) sent
  | recvUnimport p id =>
      cases hstep
      exact h.habRecvUnimportMsg p id
  | reclaim => exact h.takeReclaimable.reclaimExports hstep
  | ctxAlloc c => exact h.habCtxAlloc hop hstep
  | openVchan vchan => exact h.openVchan hstep
  | freeVchan v =>
      cases hstep
      exact h.freeVchan v

theorem Owned.exportsOwned (h : Owned none [] vm) : ExportsOwned vm where
  owned c _ e he := by
    obtain ⟨hreg, -⟩ := h.linked c e he
    exact ⟨hreg.ctx, hreg.entry⟩
  counted c hlive := h.counted c hlive nofun
  unexport _ _ _ hret := h.unexport hret

/-- In every run whose steps all meet `FromExporter`, every descriptor on a
context's list belongs to that context and is in its table, the totals are
right, and only the exporter can unexport. -/
theorem exportsOwned_of_exec (memProto : π → Bool) (calls : List (ExportCall π))
    {vm : ExportVm π} (hmeets : Meets ExportVm.call FromExporter (start memProto) calls)
    (hrun : exec ExportVm.call (start memProto) calls = some vm) : ExportsOwned vm :=
  (invariant_of_meets (fun _ op _ h hop hstep ↦ Owned.call h op hop hstep) (owned_start memProto)
    hmeets hrun).exportsOwned

/-- Two contexts with a vchan each on one pchan; the first one exports, and an IMPORT
comes in on `v`. -/
def importOn (v : ℕ) : List (ExportCall Unit) :=
  [.ctxAlloc 0, .ctxAlloc 1, .openVchan ⟨10, 0, ()⟩, .openVchan ⟨11, 1, ()⟩,
    .export 0 10 1 4 .done, .recvImport v ⟨1, 4⟩ true]

theorem exportsOwned_of_exec_own_vchan :
    ∃ vm, exec ExportVm.call (start fun _ ↦ true) (importOn 10) = some vm ∧ ExportsOwned vm := by
  refine ⟨_, rfl, exportsOwned_of_exec (fun _ ↦ true) (importOn 10) ?_ rfl⟩
  refine ⟨?_, ?_, ?_, ?_, ?_, ?_, trivial⟩
  · intro e he
    cases he
  · intro e he
    cases he
  · trivial
  · trivial
  · trivial
  · intro vchan hvchan e he
    cases hvchan
    cases he
    rfl

/-- An import that arrives on the other context's vchan hands the export to
that context, while it stays on the list of the first. -/
theorem not_exportsOwned_other_vchan :
    ∃ vm, exec ExportVm.call (start fun _ ↦ true) (importOn 11) = some vm ∧
      ¬ ExportsOwned vm := by
  refine ⟨_, rfl, fun h ↦ ?_⟩
  obtain ⟨hctx, -⟩ := h.owned 0 rfl 0 (by decide)
  exact absurd hctx (by decide)

end ExportVm

end Hab
