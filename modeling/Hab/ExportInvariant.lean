import Hab.ExportCalls

/-!
# The tables of an exporting VM

An export belongs to the context that called `hab_mem_export`.  The invariant
ties the table of each pchan, the list of each context and the reclaim list
together; the rules below say which steps keep it.
-/

namespace Hab

variable {π : Type*} [DecidableEq π]

namespace ExportVm

/-! ## The invariant

`freeing` is the context whose free is under way, if any, and `held` is what a
run of the reclaim worker has still to release. -/

/-- The descriptor is the entry of its pchan's table under its id, and belongs
to the context. -/
structure Registered (vm : ExportVm π) (c e : ℕ) : Prop where
  allocated : e < vm.nextDesc
  success : (vm.desc e).expState = .success
  ctx : (vm.desc e).ctx = some c
  exporter : (vm.log e).exporter = c
  entry : ∃ p, (vm.desc e).pchan = some p ∧ vm.expidIdr p (vm.desc e).exportId = some e

structure Owned (freeing : Option ℕ) (held : List ℕ) (vm : ExportVm π) : Prop where
  idr : ∀ p id e, vm.expidIdr p id = some e →
    e < vm.nextDesc ∧ (vm.desc e).exportId = id ∧
      ((vm.desc e).expState = .success → (vm.desc e).pchan = some p ∧
        ∃ c, vm.Registered c e ∧ (e ∈ (vm.ctx c).expWhse ∨ e ∈ vm.reclaimList ++ held))
  linked : ∀ c, ∀ e ∈ (vm.ctx c).expWhse, vm.Registered c e ∧ (vm.ctx c).live
  nodup : ∀ c, (vm.ctx c).expWhse.Nodup
  counted : ∀ c, (vm.ctx c).live → freeing ≠ some c →
    (vm.ctx c).exportTotal = (vm.ctx c).expWhse.length
  reclaim : ∀ e ∈ vm.reclaimList ++ held,
    ∃ c, vm.Registered c e ∧ ((vm.ctx c).live → freeing = some c)
  reclaimNodup : (vm.reclaimList ++ held).Nodup
  vchans : ∀ vchan ∈ vm.vchans, (vm.ctx vchan.ctx).live ∧ freeing ≠ some vchan.ctx

section Facts

omit [DecidableEq π]

variable {vm : ExportVm π} {freeing : Option ℕ} {held : List ℕ}

theorem owned_start (memProto : π → Bool) : Owned none [] (start memProto) := by
  constructor <;> simp [start]

/-- The context and the table entry of a registered descriptor are determined. -/
theorem Registered.ctx_unique {c c' e : ℕ} (h : vm.Registered c e) (h' : vm.Registered c' e) :
    c = c' :=
  Option.some.inj (h.ctx.symm.trans h'.ctx)

theorem Owned.entry_unique (h : Owned freeing held vm) {c e : ℕ} (hreg : vm.Registered c e)
    {p q : π} {id : UInt32} (hp : (vm.desc e).pchan = some p)
    (hq : vm.expidIdr q id = some e) : q = p ∧ id = (vm.desc e).exportId := by
  obtain ⟨-, hid, hsuccess⟩ := h.idr q id e hq
  obtain ⟨hpchan, -⟩ := hsuccess hreg.success
  exact ⟨Option.some.inj (hpchan.symm.trans hp), hid.symm⟩

theorem Registered.entry_at {c e : ℕ} (h : vm.Registered c e) {p : π}
    (hp : (vm.desc e).pchan = some p) : vm.expidIdr p (vm.desc e).exportId = some e := by
  obtain ⟨q, hq, hentry⟩ := h.entry
  cases hp.symm.trans hq
  exact hentry

/-- A registered descriptor stays so where the step changes neither it nor its
entry. -/
theorem Registered.frame {vm' : ExportVm π} {c e : ℕ} (h : vm.Registered c e)
    (hnext : vm.nextDesc ≤ vm'.nextDesc) (hdesc : vm'.desc e = vm.desc e)
    (hlog : (vm'.log e).exporter = (vm.log e).exporter)
    (hidr : ∀ p, (vm.desc e).pchan = some p →
      vm.expidIdr p (vm.desc e).exportId = some e →
        vm'.expidIdr p (vm.desc e).exportId = some e) : vm'.Registered c e := by
  obtain ⟨p, hp, hentry⟩ := h.entry
  exact
    { allocated := Nat.lt_of_lt_of_le h.allocated hnext
      success := hdesc ▸ h.success
      ctx := hdesc ▸ h.ctx
      exporter := hlog.trans h.exporter
      entry := ⟨p, by rw [hdesc]; exact hp, by rw [hdesc]; exact hidr p hp hentry⟩ }

/-- A step that changes no field the invariant reads. -/
theorem Owned.congr {vm' : ExportVm π} (h : Owned freeing held vm)
    (hdesc : ∀ e, e < vm.nextDesc → (vm'.desc e).exportId = (vm.desc e).exportId ∧
      (vm'.desc e).expState = (vm.desc e).expState ∧ (vm'.desc e).ctx = (vm.desc e).ctx ∧
        (vm'.desc e).pchan = (vm.desc e).pchan)
    (hexporter : ∀ e, e < vm.nextDesc → (vm'.log e).exporter = (vm.log e).exporter)
    (hidr : vm'.expidIdr = vm.expidIdr) (hctx : vm'.ctx = vm.ctx)
    (hreclaim : vm'.reclaimList = vm.reclaimList) (hnext : vm.nextDesc ≤ vm'.nextDesc)
    (hvchans : ∀ vchan ∈ vm'.vchans,
      (vm.ctx vchan.ctx).live ∧ freeing ≠ some vchan.ctx) : Owned freeing held vm' := by
  have hreg : ∀ c e, vm.Registered c e → vm'.Registered c e := by
    intro c e hreg
    obtain ⟨hid, hstate, hc, hp⟩ := hdesc e hreg.allocated
    obtain ⟨p, hpchan, hentry⟩ := hreg.entry
    exact
      { allocated := Nat.lt_of_lt_of_le hreg.allocated hnext
        success := hstate.trans hreg.success
        ctx := hc.trans hreg.ctx
        exporter := (hexporter e hreg.allocated).trans hreg.exporter
        entry := ⟨p, hp.trans hpchan, by rw [hidr, hid]; exact hentry⟩ }
  constructor
  · intro p id e he
    rw [hidr] at he
    obtain ⟨hlt, hid, hsuccess⟩ := h.idr p id e he
    obtain ⟨hid', hstate, -, hp⟩ := hdesc e hlt
    refine ⟨Nat.lt_of_lt_of_le hlt hnext, hid'.trans hid, fun hs ↦ ?_⟩
    obtain ⟨hpchan, c, hc, hmem⟩ := hsuccess (hstate.symm.trans hs)
    rw [hctx, hreclaim]
    exact ⟨hp.trans hpchan, c, hreg c e hc, hmem⟩
  · intro c e he
    rw [hctx] at he ⊢
    exact ⟨hreg c e (h.linked c e he).1, (h.linked c e he).2⟩
  · rw [hctx]
    exact h.nodup
  · rw [hctx]
    exact h.counted
  · intro e he
    rw [hreclaim] at he
    obtain ⟨c, hc, hdead⟩ := h.reclaim e he
    rw [hctx]
    exact ⟨c, hreg c e hc, hdead⟩
  · rw [hreclaim]
    exact h.reclaimNodup
  · rw [hctx]
    exact hvchans

end Facts

/-! ## Forgetting an export -/

variable {vm vm' : ExportVm π} {freeing : Option ℕ} {held held' : List ℕ}

/-- The step takes the descriptor out of its table and off every context, and
leaves the others alone. -/
structure Forgets (vm vm' : ExportVm π) (p : π) (e : ℕ) : Prop where
  nextDesc : vm'.nextDesc = vm.nextDesc
  vchans : vm'.vchans = vm.vchans
  desc : ∀ e', e' ≠ e → vm'.desc e' = vm.desc e'
  exporter : ∀ e', (vm'.log e').exporter = (vm.log e').exporter
  idr : ∀ q id e', vm'.expidIdr q id = some e' ↔
    ¬ (q = p ∧ id = (vm.desc e).exportId) ∧ vm.expidIdr q id = some e'
  expWhse : ∀ c, (vm'.ctx c).expWhse = (vm.ctx c).expWhse.erase e
  live : ∀ c, (vm'.ctx c).live = (vm.ctx c).live

omit [DecidableEq π] in
theorem Owned.forget (h : Owned freeing held vm) {c e : ℕ} {p : π} (hreg : vm.Registered c e)
    (hp : (vm.desc e).pchan = some p) (hforgets : Forgets vm vm' p e)
    (hawait : vm'.reclaimList ++ held' = (vm.reclaimList ++ held).erase e)
    (hcount : ∀ c', (vm.ctx c').live → freeing ≠ some c' →
      (vm'.ctx c').exportTotal = ((vm.ctx c').expWhse.erase e).length) :
    Owned freeing held' vm' := by
  have hentry := hreg.entry_at hp
  -- every other descriptor stays registered
  have hothers : ∀ c' e', e' ≠ e → vm.Registered c' e' → vm'.Registered c' e' := by
    intro c' e' hne hreg'
    refine hreg'.frame ?_ (hforgets.desc e' hne) (hforgets.exporter e') ?_
    · exact Nat.le_of_eq hforgets.nextDesc.symm
    · intro q hq hentry'
      refine (hforgets.idr q _ e').mpr ⟨?_, hentry'⟩
      rintro ⟨rfl, hid⟩
      rw [hid, hentry] at hentry'
      exact hne (Option.some.inj hentry').symm
  constructor
  · intro q id e' hidr
    obtain ⟨hnot, hold⟩ := (hforgets.idr q id e').mp hidr
    have hne : e' ≠ e := by
      rintro rfl
      exact hnot (h.entry_unique hreg hp hold)
    obtain ⟨hlt, hid, hsuccess⟩ := h.idr q id e' hold
    rw [hforgets.nextDesc, hforgets.desc e' hne]
    refine ⟨hlt, hid, fun hs ↦ ?_⟩
    obtain ⟨hpchan, c', hreg', hmem⟩ := hsuccess hs
    refine ⟨hpchan, c', hothers c' e' hne hreg', ?_⟩
    rw [hforgets.expWhse, hawait]
    exact hmem.imp (List.mem_erase_of_ne hne).mpr (List.mem_erase_of_ne hne).mpr
  · intro c' e' he'
    rw [hforgets.expWhse] at he'
    obtain ⟨hne, hmem⟩ := (h.nodup c').mem_erase_iff.mp he'
    obtain ⟨hreg', hlive⟩ := h.linked c' e' hmem
    exact ⟨hothers c' e' hne hreg', by rw [hforgets.live]; exact hlive⟩
  · intro c'
    rw [hforgets.expWhse]
    exact (h.nodup c').erase e
  · intro c' hlive hfree
    rw [hforgets.live] at hlive
    rw [hforgets.expWhse]
    exact hcount c' hlive hfree
  · intro e' he'
    rw [hawait] at he'
    obtain ⟨hne, hmem⟩ := h.reclaimNodup.mem_erase_iff.mp he'
    obtain ⟨c', hreg', hdead⟩ := h.reclaim e' hmem
    exact ⟨c', hothers c' e' hne hreg', by rw [hforgets.live]; exact hdead⟩
  · rw [hawait]
    exact h.reclaimNodup.erase e
  · intro vchan hvchan
    rw [hforgets.vchans] at hvchan
    rw [hforgets.live]
    exact h.vchans vchan hvchan

/-- All that a release does, by `hab_mem_unexport` or by `hab_ctx_free`. -/
def release (vm : ExportVm π) (p : π) (e : ℕ) : ExportVm π :=
  (((vm.unlink e).revoke e).idrRemove p e).habmemRemoveExport e

theorem release_eq {c e : ℕ} {p : π} (hctx : (vm.desc e).ctx = some c) :
    vm.release p e =
      { vm with
        expidIdr := (vm.setIdr p (vm.desc e).exportId none).expidIdr
        desc := Function.update vm.desc e { vm.desc e with ctx := none }
        ctx := fun c' ↦
          { vm.ctx c' with
            expWhse := (vm.ctx c').expWhse.erase e
            exportTotal := (vm.ctx c').exportTotal - if c' = c then 1 else 0 }
        reclaimList := vm.reclaimList.erase e
        log := Function.update vm.log e { vm.log e with revoked := true, destroyed := true } } := by
  have hctx' : ((((vm.unlink e).revoke e).idrRemove p e).desc e).ctx = some c := hctx
  simp only [release, habmemRemoveExport, hctx']
  simp only [destroy, setLog, setDesc, setCtx, idrRemove, setIdr, revoke, unlink,
    Function.update_self, Function.update_idem, mk.injEq, true_and, and_true]
  funext c'
  by_cases hc : c' = c
  · subst hc
    simp
  · simp [hc]

theorem Owned.release (h : Owned freeing held vm) {c e : ℕ} {p : π}
    (he : e ∈ (vm.ctx c).expWhse) (hheld : e ∉ held) (hp : (vm.desc e).pchan = some p) :
    Owned freeing held (vm.release p e) := by
  have hreg := (h.linked c e he).1
  rw [release_eq hreg.ctx]
  refine h.forget hreg hp ?_ ?_ ?_
  · constructor
    · rfl
    · rfl
    · intro e' hne
      exact Function.update_of_ne hne _ _
    · intro e'
      by_cases hne : e' = e
      · subst hne
        simp
      · simp [hne]
    · intro q id e'
      exact setIdr_none_eq_some
    · intro c'
      rfl
    · intro c'
      rfl
  · by_cases hmem : e ∈ vm.reclaimList
    · rw [List.erase_append_left _ hmem]
    · rw [List.erase_append_right _ hmem, List.erase_of_not_mem hheld, List.erase_of_not_mem hmem]
  · intro c' hlive hfree
    have hcount := h.counted c' hlive hfree
    by_cases hc : c' = c
    · subst hc
      have hpos := List.length_pos_of_mem he
      simp only [hcount, List.length_erase_of_mem he, if_true]
      omega
    · have hnot : e ∉ (vm.ctx c').expWhse := fun hmem ↦
        hc ((h.linked c' e hmem).1.ctx_unique hreg)
      simp only [hcount, List.erase_of_not_mem hnot, if_neg hc]
      omega

theorem Owned.reclaimExport {e : ℕ} (h : Owned none (e :: held) vm)
    (hstep : vm.reclaimExport e = some vm') : Owned none held vm' := by
  obtain ⟨c, hreg, hdead⟩ := h.reclaim e (List.mem_append_right _ List.mem_cons_self)
  obtain ⟨p, hp, -⟩ := hreg.entry
  simp only [ExportVm.reclaimExport, hp, Option.map_some, Option.some.injEq] at hstep
  subst hstep
  have hwhse : ∀ c', e ∉ (vm.ctx c').expWhse := by
    intro c' hmem
    obtain ⟨hreg', hlive⟩ := h.linked c' e hmem
    cases hreg'.ctx_unique hreg
    cases hdead hlive
  refine h.forget hreg hp ?_ ?_ ?_
  · constructor
    · rfl
    · rfl
    · intro e' _
      rfl
    · intro e'
      by_cases hne : e' = e
      · subst hne
        simp [destroy, setLog, idrRemove, setIdr]
      · simp [destroy, setLog, idrRemove, setIdr, hne]
    · intro q id e'
      exact setIdr_none_eq_some
    · intro c'
      exact (List.erase_of_not_mem (hwhse c')).symm
    · intro c'
      rfl
  · have hnot : e ∉ vm.reclaimList := fun hmem ↦
      (List.nodup_append.mp h.reclaimNodup).2.2 e hmem e List.mem_cons_self rfl
    rw [List.erase_append_right _ hnot, List.erase_cons_head]
    rfl
  · intro c' hlive hfree
    rw [List.erase_of_not_mem (hwhse c')]
    exact h.counted c' hlive hfree

/-! ## Exporting -/

/-- What a successful `hab_mem_export` leaves, by either protocol. -/
def exported (vm : ExportVm π) (vchan : ExportVchan π) (id payloadCount : UInt32) : ExportVm π :=
  { vm with
    expidIdr := (vm.setIdr vchan.pchan id (some vm.nextDesc)).expidIdr
    desc := Function.update vm.desc vm.nextDesc
      ⟨id, payloadCount, some vchan.addr, some vchan.ctx, some vchan.pchan, .success, false⟩
    nextDesc := vm.nextDesc + 1
    ctx := Function.update vm.ctx vchan.ctx
      { vm.ctx vchan.ctx with
        exportTotal := (vm.ctx vchan.ctx).exportTotal + 1
        expWhse := (vm.ctx vchan.ctx).expWhse ++ [vm.nextDesc] }
    log := Function.update vm.log vm.nextDesc ⟨vchan.ctx, vm.memProto vchan.pchan, 0, 0, false, false⟩ }

theorem linkExport_habmemAddExport (vm : ExportVm π) (vchan : ExportVchan π)
    (id payloadCount : UInt32) :
    let added := vm.habmemAddExport vchan id payloadCount
    ((if !vm.memProto vchan.pchan then added.setLocal vchan vchan.ctx vm.nextDesc
      else added).linkExport vchan.ctx vm.nextDesc).publishExport vm.nextDesc =
        vm.exported vchan id payloadCount := by
  cases hproto : vm.memProto vchan.pchan <;>
    simp [habmemAddExport, hproto, setLocal, linkExport, publishExport, exported, setDesc, setCtx,
      setLog, setIdr]

/-- A registered descriptor is not the new one, and its entry is not the free one. -/
theorem Registered.add {c e : ℕ} {p : π} {id : UInt32} (h : vm.Registered c e)
    (hfree : vm.expidIdr p id = none) (hnext : vm'.nextDesc = vm.nextDesc + 1)
    (hdesc : ∀ e, e ≠ vm.nextDesc → vm'.desc e = vm.desc e)
    (hlog : ∀ e, e ≠ vm.nextDesc → vm'.log e = vm.log e)
    (hidr : vm'.expidIdr = (vm.setIdr p id (some vm.nextDesc)).expidIdr) :
    vm'.Registered c e := by
  have hne : e ≠ vm.nextDesc := Nat.ne_of_lt h.allocated
  refine h.frame (by omega) (hdesc e hne) (by rw [hlog e hne]) ?_
  intro q _ hentry
  rw [hidr]
  refine setIdr_some_eq_some.mpr (Or.inr ⟨?_, hentry⟩)
  rintro ⟨rfl, hid⟩
  rw [hid, hfree] at hentry
  cases hentry

/-- A descriptor that has only been added is not exported yet. -/
theorem Owned.add (h : Owned freeing held vm) {vchan : ExportVchan π} {id : UInt32}
    (hfree : vm.expidIdr vchan.pchan id = none) (payloadCount : UInt32) :
    Owned freeing held (vm.habmemAddExport vchan id payloadCount) := by
  have hdesc : ∀ e, e ≠ vm.nextDesc →
      (vm.habmemAddExport vchan id payloadCount).desc e = vm.desc e :=
    fun e hne ↦ Function.update_of_ne hne _ _
  have hreg : ∀ c e, vm.Registered c e →
      (vm.habmemAddExport vchan id payloadCount).Registered c e :=
    fun c e hreg ↦ hreg.add hfree rfl hdesc (fun e hne ↦ Function.update_of_ne hne _ _) rfl
  constructor
  · intro q id' e he
    rcases setIdr_some_eq_some.mp he with ⟨rfl, rfl, rfl⟩ | ⟨-, hold⟩
    · simp [habmemAddExport, setDesc, setLog, setIdr]
    · obtain ⟨hlt, hid, hsuccess⟩ := h.idr q id' e hold
      rw [hdesc e (Nat.ne_of_lt hlt)]
      refine ⟨Nat.lt_succ_of_lt hlt, hid, fun hs ↦ ?_⟩
      obtain ⟨hpchan, c, hc, hmem⟩ := hsuccess hs
      exact ⟨hpchan, c, hreg c e hc, hmem⟩
  · exact fun c e he ↦ ⟨hreg c e (h.linked c e he).1, (h.linked c e he).2⟩
  · exact h.nodup
  · exact h.counted
  · intro e he
    obtain ⟨c, hc, hdead⟩ := h.reclaim e he
    exact ⟨c, hreg c e hc, hdead⟩
  · exact h.reclaimNodup
  · exact h.vchans

theorem Owned.exported (h : Owned freeing held vm) {vchan : ExportVchan π} {id : UInt32}
    (hvchan : vchan ∈ vm.vchans) (hfree : vm.expidIdr vchan.pchan id = none)
    (payloadCount : UInt32) : Owned freeing held (vm.exported vchan id payloadCount) := by
  have hdesc : ∀ e, e ≠ vm.nextDesc → (vm.exported vchan id payloadCount).desc e = vm.desc e :=
    fun e hne ↦ Function.update_of_ne hne _ _
  have hreg : ∀ c e, vm.Registered c e → (vm.exported vchan id payloadCount).Registered c e :=
    fun c e hreg ↦ hreg.add hfree rfl hdesc (fun e hne ↦ Function.update_of_ne hne _ _) rfl
  have hnew : (vm.exported vchan id payloadCount).Registered vchan.ctx vm.nextDesc := by
    constructor <;> simp [ExportVm.exported, setIdr]
  have hlive : ∀ c, ((vm.exported vchan id payloadCount).ctx c).live = (vm.ctx c).live := by
    intro c
    by_cases hc : c = vchan.ctx
    · subst hc
      simp [ExportVm.exported]
    · simp [ExportVm.exported, hc]
  have hwhse : ∀ c e, e ∈ ((vm.exported vchan id payloadCount).ctx c).expWhse ↔
      e ∈ (vm.ctx c).expWhse ∨ (c = vchan.ctx ∧ e = vm.nextDesc) := by
    intro c e
    by_cases hc : c = vchan.ctx
    · subst hc
      simp [ExportVm.exported]
    · simp [ExportVm.exported, hc]
  have hfresh : ∀ c, vm.nextDesc ∉ (vm.ctx c).expWhse := fun c hmem ↦
    Nat.lt_irrefl _ (h.linked c _ hmem).1.allocated
  constructor
  · intro q id' e he
    rcases setIdr_some_eq_some.mp he with ⟨rfl, rfl, rfl⟩ | ⟨-, hold⟩
    · refine ⟨Nat.lt_succ_self _, by simp [ExportVm.exported], fun _ ↦ ?_⟩
      refine ⟨by simp [ExportVm.exported], vchan.ctx, hnew, Or.inl ?_⟩
      exact (hwhse _ _).mpr (Or.inr ⟨rfl, rfl⟩)
    · obtain ⟨hlt, hid, hsuccess⟩ := h.idr q id' e hold
      rw [hdesc e (Nat.ne_of_lt hlt)]
      refine ⟨Nat.lt_succ_of_lt hlt, hid, fun hs ↦ ?_⟩
      obtain ⟨hpchan, c, hc, hmem⟩ := hsuccess hs
      exact ⟨hpchan, c, hreg c e hc, hmem.imp_left fun hmem ↦ (hwhse c e).mpr (Or.inl hmem)⟩
  · intro c e he
    rw [hlive]
    rcases (hwhse c e).mp he with hmem | ⟨rfl, rfl⟩
    · exact ⟨hreg c e (h.linked c e hmem).1, (h.linked c e hmem).2⟩
    · exact ⟨hnew, (h.vchans vchan hvchan).1⟩
  · intro c
    by_cases hc : c = vchan.ctx
    · subst hc
      simp only [ExportVm.exported, Function.update_self]
      refine List.nodup_append.mpr ⟨h.nodup _, by simp, ?_⟩
      rintro e he _ hmem rfl
      rw [List.mem_singleton.mp hmem] at he
      exact hfresh _ he
    · simpa [ExportVm.exported, hc] using h.nodup c
  · intro c hc hfree
    rw [hlive] at hc
    have hcount := h.counted c hc hfree
    by_cases heq : c = vchan.ctx
    · subst heq
      simp [ExportVm.exported, hcount]
    · simpa [ExportVm.exported, heq] using hcount
  · intro e he
    obtain ⟨c, hc, hdead⟩ := h.reclaim e he
    exact ⟨c, hreg c e hc, by rw [hlive]; exact hdead⟩
  · exact h.reclaimNodup
  · intro other hother
    rw [hlive]
    exact h.vchans other hother

end ExportVm

end Hab
