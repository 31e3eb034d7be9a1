import Hab.Library.Runs
import Hab.ExportSystem

/-!
# Who has an export descriptor

A descriptor is built by one `hab_mem_export`, is then on the `exp_whse` of its
context, and leaves it for `reclaim_list` or for the call that releases it.  What a
lock section can do to these lists is said once here; nothing here depends on the
protocol or on what the importers do.
-/

set_option linter.unusedSectionVars false

namespace Hab

variable {π : Type*} [DecidableEq π]

namespace ExportStage

/-- What the next lock section of a call can do. -/
inductive Runs (vm : ExportVm π) :
    ExportStage π → ExportVm π → Option (ExportStage π) → Prop where
  | granted (vchan : ExportVchan π) (e : ℕ) :
      Runs vm (.added vchan e) vm (some (.granted vchan e))
  | notGranted (vchan : ExportVchan π) (e : ℕ) :
      Runs vm (.added vchan e) ((vm.idrRemove vchan.pchan e).destroy e) none
  | linked (vchan : ExportVchan π) (e : ℕ) :
      Runs vm (.granted vchan e) (vm.linkExport vchan.ctx e) (some (.linked vchan e))
  | sent (vchan : ExportVchan π) (e : ℕ) (hproto : vm.memProto vchan.pchan = false) :
      Runs vm (.granted vchan e) vm (some (.sent vchan e))
  | notLinked (vchan : ExportVchan π) (e : ℕ) : Runs vm (.granted vchan e) vm none
  | acked (vchan : ExportVchan π) (e : ℕ) :
      Runs vm (.sent vchan e) ((vm.setLocal vchan vchan.ctx e).linkExport vchan.ctx e)
        (some (.linked vchan e))
  | notAcked (vchan : ExportVchan π) (e : ℕ) : Runs vm (.sent vchan e) vm none
  | published (vchan : ExportVchan π) (e : ℕ) :
      Runs vm (.linked vchan e) (vm.publishExport e) none
  | unlinked (vchan : ExportVchan π) (e : ℕ) :
      Runs vm (.taken vchan e) (vm.unlink e) (some (.unlinked vchan e))
  | revoked (vchan : ExportVchan π) (e : ℕ) :
      Runs vm (.unlinked vchan e) (vm.revoke e) (some (.revoked vchan e))
  | removed (vchan : ExportVchan π) (e : ℕ) :
      Runs vm (.revoked vchan e) (vm.habmemRemoveExport e) none
  | freed (c : ℕ) (hnil : (vm.ctx c).expWhse = []) :
      Runs vm (.freeing c) (vm.setCtx c { vm.ctx c with live := false }) none
  | spared (c e : ℕ) (rest : List ℕ) (hwhse : (vm.ctx c).expWhse = e :: rest) :
      Runs vm (.freeing c) (vm.unlink e) (some (.spared c e))
  | chosen (c e : ℕ) (rest : List ℕ) (hwhse : (vm.ctx c).expWhse = e :: rest)
      (hflag : (vm.desc e).remoteImported = true → ∃ p, vm.memProto p = false) :
      Runs vm (.freeing c) (vm.unlink e) (some (.chosen c e))
  | reclaimLater (c e : ℕ) : Runs vm (.spared c e) (vm.reclaimLater e) (some (.freeing c))
  | dropped (c e : ℕ) : Runs vm (.chosen c e) (vm.revoke e) (some (.dropped c e))
  | gone (c e : ℕ) (p : π) (hp : (vm.desc e).pchan = some p) :
      Runs vm (.dropped c e) (vm.idrRemove p e) (some (.gone c e))
  | next (c e : ℕ) : Runs vm (.gone c e) (vm.habmemRemoveExport e) (some (.freeing c))
  | reclaimEnd : Runs vm (.reclaiming []) vm none
  | reclaimed (e : ℕ) (freeList : List ℕ) (p : π) (hp : (vm.desc e).pchan = some p) :
      Runs vm (.reclaiming (e :: freeList)) (vm.idrRemove p e) (some (.reclaimed e freeList))
  | reclaimNext (e : ℕ) (freeList : List ℕ) :
      Runs vm (.reclaimed e freeList) (vm.destroy e) (some (.reclaiming freeList))

variable {vm vm' : ExportVm π} {stage : ExportStage π} {stage' : Option (ExportStage π)}

theorem runs_of_run {ok : Bool} (h : stage.run vm ok = some (vm', stage')) :
    Runs vm stage vm' stage' := by
  cases stage with
  | added vchan e =>
      cases ok with
      | true =>
          cases h
          exact .granted vchan e
      | false =>
          simp only [run, Bool.false_eq_true, if_false] at h
          obtain ⟨-, -, hnext⟩ := Option.map_eq_some_iff.mp h
          cases hnext
          exact .notGranted vchan e
  | granted vchan e =>
      cases ok with
      | true =>
          simp only [run, Bool.not_true, Bool.false_eq_true, if_false] at h
          split at h <;> cases h
          · exact .linked vchan e
          · rename_i hproto
            exact .sent vchan e (by simpa using hproto)
      | false =>
          cases h
          exact .notLinked vchan e
  | sent vchan e =>
      cases ok with
      | true =>
          cases h
          exact .acked vchan e
      | false =>
          cases h
          exact .notAcked vchan e
  | linked vchan e =>
      cases h
      exact .published vchan e
  | taken vchan e =>
      cases h
      exact .unlinked vchan e
  | unlinked vchan e =>
      cases h
      exact .revoked vchan e
  | revoked vchan e =>
      cases h
      exact .removed vchan e
  | freeing c =>
      simp only [run] at h
      split at h
      · rename_i hnil
        cases h
        exact .freed c hnil
      · rename_i e rest hwhse
        split at h
        · rename_i himported
          obtain ⟨p, -, hnext⟩ := Option.map_eq_some_iff.mp h
          cases hflag : vm.stillImported e p with
          | true =>
              rw [hflag, if_pos rfl] at hnext
              cases hnext
              exact .spared c e rest hwhse
          | false =>
              rw [hflag, if_neg Bool.false_ne_true] at hnext
              cases hnext
              refine .chosen c e rest hwhse fun _ ↦ ⟨p, ?_⟩
              simpa [ExportVm.stillImported, himported] using hflag
        · rename_i hnot
          cases h
          exact .chosen c e rest hwhse fun himported ↦ absurd himported hnot
  | spared c e =>
      cases h
      exact .reclaimLater c e
  | chosen c e =>
      cases h
      exact .dropped c e
  | dropped c e =>
      obtain ⟨p, hp, hnext⟩ := Option.map_eq_some_iff.mp h
      cases hnext
      exact .gone c e p hp
  | gone c e =>
      cases h
      exact .next c e
  | reclaiming freeList =>
      cases freeList with
      | nil =>
          cases h
          exact .reclaimEnd
      | cons e freeList =>
          obtain ⟨p, hp, hnext⟩ := Option.map_eq_some_iff.mp h
          cases hnext
          exact .reclaimed e freeList p hp
  | reclaimed e freeList =>
      cases h
      exact .reclaimNext e freeList

end ExportStage

/-! ## What a lock section leaves alone -/

namespace ExportVm

variable {vm vm' : ExportVm π}

/-- Each descriptor was made by the same context, and under the same protocol. -/
def SameOrigin (vm vm' : ExportVm π) : Prop :=
  ∀ e, (vm'.log e).exporter = (vm.log e).exporter ∧ (vm'.log e).newProto = (vm.log e).newProto

/-- What no lock section of a call changes. -/
structure Frame (vm vm' : ExportVm π) : Prop where
  nextDesc : vm'.nextDesc = vm.nextDesc
  memProto : vm'.memProto = vm.memProto
  vchans : vm'.vchans = vm.vchans
  made : SameOrigin vm vm'

theorem SameOrigin.refl (vm : ExportVm π) : SameOrigin vm vm := fun _ ↦ ⟨rfl, rfl⟩

theorem Frame.refl (vm : ExportVm π) : Frame vm vm := ⟨rfl, rfl, rfl, .refl vm⟩

theorem Frame.exporter (h : Frame vm vm') (e : ℕ) :
    (vm'.log e).exporter = (vm.log e).exporter := (h.made e).1

theorem sameOrigin_setLog {e : ℕ} {l : ExportLog}
    (hl : l.exporter = (vm.log e).exporter ∧ l.newProto = (vm.log e).newProto) :
    SameOrigin vm (vm.setLog e l) := by
  intro e'
  by_cases hne : e' = e
  · subst hne
    simpa [setLog] using hl
  · simp [setLog, hne]

theorem frame_destroy (vm : ExportVm π) (e : ℕ) : Frame vm (vm.destroy e) :=
  ⟨rfl, rfl, rfl, sameOrigin_setLog ⟨rfl, rfl⟩⟩

theorem frame_revoke (vm : ExportVm π) (e : ℕ) : Frame vm (vm.revoke e) :=
  ⟨rfl, rfl, rfl, sameOrigin_setLog ⟨rfl, rfl⟩⟩

theorem frame_habmemRemoveExport (vm : ExportVm π) (e : ℕ) :
    Frame vm (vm.habmemRemoveExport e) := by
  unfold habmemRemoveExport
  split
  · exact Frame.refl vm
  · exact ⟨rfl, rfl, rfl, sameOrigin_setLog ⟨rfl, rfl⟩⟩

theorem expWhse_habmemRemoveExport (vm : ExportVm π) (e c : ℕ) :
    ((vm.habmemRemoveExport e).ctx c).expWhse = (vm.ctx c).expWhse := by
  unfold habmemRemoveExport
  split
  · rfl
  · rename_i c' _
    by_cases hc : c = c'
    · subst hc
      simp [destroy, setLog, setDesc, setCtx]
    · simp [destroy, setLog, setDesc, setCtx, hc]

theorem reclaimList_habmemRemoveExport (vm : ExportVm π) (e : ℕ) :
    (vm.habmemRemoveExport e).reclaimList = vm.reclaimList := by
  unfold habmemRemoveExport
  split <;> rfl

theorem expidIdr_habmemRemoveExport (vm : ExportVm π) (e : ℕ) :
    (vm.habmemRemoveExport e).expidIdr = vm.expidIdr := by
  unfold habmemRemoveExport
  split <;> rfl

theorem remoteImported_habmemRemoveExport (vm : ExportVm π) (e e' : ℕ) :
    ((vm.habmemRemoveExport e).desc e').remoteImported = (vm.desc e').remoteImported := by
  unfold habmemRemoveExport
  split
  · rfl
  · by_cases hne : e' = e
    · subst hne
      simp [destroy, setLog, setDesc, setCtx]
    · simp [destroy, setLog, setDesc, setCtx, hne]

theorem live_habmemRemoveExport (vm : ExportVm π) (e c : ℕ) :
    ((vm.habmemRemoveExport e).ctx c).live = (vm.ctx c).live := by
  unfold habmemRemoveExport
  split
  · rfl
  · rename_i c' _
    by_cases hc : c = c'
    · subst hc
      simp [destroy, setLog, setDesc, setCtx]
    · simp [destroy, setLog, setDesc, setCtx, hc]

theorem expWhse_setCtx_self (vm : ExportVm π) {c : ℕ} {x : ExportCtx}
    (hx : x.expWhse = (vm.ctx c).expWhse) (c' : ℕ) :
    ((vm.setCtx c x).ctx c').expWhse = (vm.ctx c').expWhse := by
  by_cases hc : c' = c
  · subst hc
    simpa [setCtx] using hx
  · simp [setCtx, hc]

theorem mem_expWhse_linkExport {c c' e e' : ℕ} (he : e ∈ ((vm.linkExport c' e').ctx c).expWhse) :
    e ∈ (vm.ctx c).expWhse ∨ c = c' ∧ e = e' := by
  by_cases hc : c = c'
  · subst hc
    simp only [linkExport, setCtx, Function.update_self, List.mem_append,
      List.mem_singleton] at he
    exact he.imp_right fun heq ↦ ⟨rfl, heq⟩
  · simp only [linkExport, setCtx, Function.update_of_ne hc] at he
    exact Or.inl he

theorem live_linkExport (vm : ExportVm π) (c c' e : ℕ) :
    ((vm.linkExport c' e).ctx c).live = (vm.ctx c).live := by
  by_cases hc : c = c'
  · subst hc
    simp [linkExport, setCtx]
  · simp [linkExport, setCtx, hc]

end ExportVm

namespace ExportStage

variable {vm vm' : ExportVm π} {stage : ExportStage π} {stage' : Option (ExportStage π)}

theorem Runs.frame (h : Runs vm stage vm' stage') : vm.Frame vm' := by
  cases h with
  | notGranted vchan e =>
      obtain ⟨hnext, hproto, hvchans, hlog⟩ :=
        ExportVm.frame_destroy (vm.idrRemove vchan.pchan e) e
      exact ⟨hnext, hproto, hvchans, hlog⟩
  | revoked vchan e => exact vm.frame_revoke e
  | dropped c e => exact vm.frame_revoke e
  | removed vchan e => exact vm.frame_habmemRemoveExport e
  | next c e => exact vm.frame_habmemRemoveExport e
  | reclaimNext e freeList => exact vm.frame_destroy e
  | _ => exact ⟨rfl, rfl, rfl, fun _ ↦ ⟨rfl, rfl⟩⟩

/-- Only `habmem_export_vchan` puts a descriptor on an `exp_whse`. -/
theorem Runs.expWhse (h : Runs vm stage vm' stage') {c e : ℕ} (he : e ∈ (vm'.ctx c).expWhse) :
    e ∈ (vm.ctx c).expWhse ∨
      ∃ vchan, (stage = .granted vchan e ∨ stage = .sent vchan e) ∧ c = vchan.ctx ∧
        stage' = some (.linked vchan e) := by
  cases h with
  | linked vchan e' =>
      rcases ExportVm.mem_expWhse_linkExport he with he | ⟨rfl, rfl⟩
      · exact Or.inl he
      · exact Or.inr ⟨vchan, Or.inl rfl, rfl, rfl⟩
  | acked vchan e' =>
      rcases ExportVm.mem_expWhse_linkExport he with he | ⟨rfl, rfl⟩
      · exact Or.inl he
      · exact Or.inr ⟨vchan, Or.inr rfl, rfl, rfl⟩
  | unlinked vchan e' => exact Or.inl (List.mem_of_mem_erase he)
  | spared c' e' => exact Or.inl (List.mem_of_mem_erase he)
  | chosen c' e' => exact Or.inl (List.mem_of_mem_erase he)
  | removed vchan e' =>
      rw [ExportVm.expWhse_habmemRemoveExport] at he
      exact Or.inl he
  | next c' e' =>
      rw [ExportVm.expWhse_habmemRemoveExport] at he
      exact Or.inl he
  | freed c' hnil =>
      have hsame := vm.expWhse_setCtx_self (x := { vm.ctx c' with live := false }) rfl c
      exact Or.inl (hsame ▸ he)
  | _ => exact Or.inl he

/-- Only `hab_ctx_free` puts a descriptor on `reclaim_list`. -/
theorem Runs.reclaimList (h : Runs vm stage vm' stage') {e : ℕ} (he : e ∈ vm'.reclaimList) :
    e ∈ vm.reclaimList ∨ ∃ c, stage = .spared c e := by
  cases h with
  | reclaimLater c e' =>
      rcases List.mem_append.mp he with he | he
      · exact Or.inl he
      · rw [List.mem_singleton.mp he]
        exact Or.inr ⟨c, rfl⟩
  | unlinked vchan e' => exact Or.inl (List.mem_of_mem_erase he)
  | spared c' e' => exact Or.inl (List.mem_of_mem_erase he)
  | chosen c' e' => exact Or.inl (List.mem_of_mem_erase he)
  | removed vchan e' =>
      rw [ExportVm.reclaimList_habmemRemoveExport] at he
      exact Or.inl he
  | next c' e' =>
      rw [ExportVm.reclaimList_habmemRemoveExport] at he
      exact Or.inl he
  | _ => exact Or.inl he

/-- A lock section of a call puts nothing into a table. -/
theorem Runs.expidIdr (h : Runs vm stage vm' stage') {p : π} {id : UInt32} {e : ℕ}
    (he : vm'.expidIdr p id = some e) : vm.expidIdr p id = some e := by
  cases h with
  | notGranted vchan e' => exact (ExportVm.setIdr_none_eq_some.mp he).2
  | gone c e' q hq => exact (ExportVm.setIdr_none_eq_some.mp he).2
  | reclaimed e' freeList q hq => exact (ExportVm.setIdr_none_eq_some.mp he).2
  | removed vchan e' => exact ExportVm.expidIdr_habmemRemoveExport vm e' ▸ he
  | next c e' => exact ExportVm.expidIdr_habmemRemoveExport vm e' ▸ he
  | _ => exact he

/-- Only the end of `hab_ctx_free` frees a context. -/
theorem Runs.live (h : Runs vm stage vm' stage') {c : ℕ} (hlive : (vm.ctx c).live = true) :
    (vm'.ctx c).live = true ∨
      stage = .freeing c ∧ (vm.ctx c).expWhse = [] ∧ stage' = none := by
  cases h with
  | linked vchan e => exact Or.inl ((ExportVm.live_linkExport _ _ _ _).trans hlive)
  | acked vchan e => exact Or.inl ((ExportVm.live_linkExport _ _ _ _).trans hlive)
  | freed c' hnil =>
      by_cases hc : c = c'
      · subst hc
        exact Or.inr ⟨rfl, hnil, rfl⟩
      · refine Or.inl ?_
        simpa [ExportVm.setCtx, hc] using hlive
  | removed vchan e => exact Or.inl (by rwa [ExportVm.live_habmemRemoveExport])
  | next c' e => exact Or.inl (by rwa [ExportVm.live_habmemRemoveExport])
  | _ => exact Or.inl hlive

/-- Only messages change the flag. -/
theorem Runs.remoteImported (h : Runs vm stage vm' stage') (e : ℕ) :
    (vm'.desc e).remoteImported = (vm.desc e).remoteImported := by
  cases h with
  | acked vchan e' =>
      by_cases hne : e = e'
      · subst hne
        simp [ExportVm.linkExport, ExportVm.setCtx, ExportVm.setLocal, ExportVm.setDesc]
      · simp [ExportVm.linkExport, ExportVm.setCtx, ExportVm.setLocal, ExportVm.setDesc, hne]
  | published vchan e' =>
      by_cases hne : e = e'
      · subst hne
        simp [ExportVm.publishExport, ExportVm.setDesc]
      · simp [ExportVm.publishExport, ExportVm.setDesc, hne]
  | removed vchan e' => exact ExportVm.remoteImported_habmemRemoveExport vm e' e
  | next c e' => exact ExportVm.remoteImported_habmemRemoveExport vm e' e
  | _ => rfl

/-- A call goes on ending the context that it was ending. -/
theorem Runs.frees (h : Runs vm stage vm' stage') {k : ExportStage π} {c : ℕ}
    (hk : stage' = some k) (hc : k.frees c = true) : stage.frees c = true := by
  cases h <;> cases hk <;> exact hc

/-- A call goes on building what it was building. -/
theorem Runs.exports (h : Runs vm stage vm' stage') {k : ExportStage π} {e : ℕ}
    (hk : stage' = some k) (he : k.exports = some e) : stage.exports = some e := by
  cases h with
  | granted vchan e' =>
      cases hk
      exact he
  | linked vchan e' =>
      cases hk
      exact he
  | sent vchan e' =>
      cases hk
      exact he
  | acked vchan e' =>
      cases hk
      exact he
  | _ => cases hk <;> cases he

theorem Runs.builds (h : Runs vm stage vm' stage') {k : ExportStage π} {p : π} {e : ℕ}
    (hk : stage' = some k) (he : k.builds = some (p, e)) : stage.builds = some (p, e) := by
  cases h with
  | granted vchan e' =>
      cases hk
      exact he
  | sent vchan e' =>
      cases hk
      exact he
  | _ => cases hk <;> cases he

/-- What a call has in hand comes from the list it walks, or it had it before. -/
theorem Runs.handles (h : Runs vm stage vm' stage') {k : ExportStage π} {e : ℕ}
    (hk : stage' = some k) (he : k.handles e = true) :
    stage.handles e = true ∨ ∃ c, e ∈ (vm.ctx c).expWhse := by
  cases h with
  | spared c e' rest hwhse =>
      cases hk
      simp only [ExportStage.handles, decide_eq_true_eq] at he
      exact Or.inr ⟨c, he ▸ hwhse ▸ List.mem_cons_self⟩
  | chosen c e' rest hwhse =>
      cases hk
      simp only [ExportStage.handles, decide_eq_true_eq] at he
      exact Or.inr ⟨c, he ▸ hwhse ▸ List.mem_cons_self⟩
  | reclaimed e' freeList =>
      cases hk
      simp only [ExportStage.handles, decide_eq_true_eq] at he ⊢
      exact Or.inl (List.mem_cons_of_mem e' he)
  | dropped c e' =>
      cases hk
      exact Or.inl he
  | reclaimNext e' freeList =>
      cases hk
      exact Or.inl he
  | _ => cases hk <;> cases he

end ExportStage

namespace ExportSystem

/-- The descriptor is on a list, or with a call that took it from one. -/
def Released (s : ExportSystem π) (e : ℕ) : Prop :=
  (∃ c, e ∈ (s.vm.ctx c).expWhse) ∨ e ∈ s.vm.reclaimList ∨
    ∃ i stage, s.calls.get i = some stage ∧ stage.handles e = true

variable {s : ExportSystem π} {i : ℕ} {stage : ExportStage π} {vm' : ExportVm π}
  {stage' : Option (ExportStage π)}

/-- The next stage of a call only passes on what the call had in hand. -/
structure Follows (s : ExportSystem π) (stage : ExportStage π) (vm' : ExportVm π)
    (stage' : Option (ExportStage π)) : Prop where
  exports : ∀ k e, stage' = some k → k.exports = some e → stage.exports = some e
  builds : ∀ k p e, stage' = some k → k.builds = some (p, e) → stage.builds = some (p, e)
  handles : ∀ k e, stage' = some k → k.handles e = true → s.Released e
  expWhse : ∀ c, ∀ e ∈ (vm'.ctx c).expWhse, s.Released e ∨
    (stage.exports = some e ∧ ∀ k p, stage' = some k → k.builds ≠ some (p, e))
  reclaim : ∀ e ∈ vm'.reclaimList, s.Released e

theorem released_of_handles {e : ℕ} (hget : s.calls.get i = some stage)
    (h : stage.handles e = true) : s.Released e :=
  Or.inr (Or.inr ⟨i, stage, hget, h⟩)

theorem follows_of_runs (hget : s.calls.get i = some stage)
    (h : ExportStage.Runs s.vm stage vm' stage') : Follows s stage vm' stage' where
  exports _ _ hk he := h.exports hk he
  builds _ _ _ hk he := h.builds hk he
  handles k e hk he := by
    rcases h.handles hk he with he | hlist
    · exact released_of_handles hget he
    · exact Or.inl hlist
  expWhse c e he := by
    rcases h.expWhse he with he | ⟨vchan, hstage, -, rfl⟩
    · exact Or.inl (Or.inl ⟨c, he⟩)
    · refine Or.inr ⟨by rcases hstage with rfl | rfl <;> rfl, ?_⟩
      intro k p hk hb
      cases hk
      cases hb
  reclaim e he := by
    rcases h.reclaimList he with he | ⟨c, rfl⟩
    · exact Or.inr (Or.inl he)
    · exact released_of_handles hget (by simp [ExportStage.handles])

/-- After a call's lock section, only what was released before is, and what the call
has linked. -/
theorem Follows.released (hfollows : Follows s stage vm' stage')
    (hget : s.calls.get i = some stage) {e : ℕ}
    (h : Released ⟨vm', s.calls.set i stage'⟩ e) :
    s.Released e ∨ (stage.exports = some e ∧ ∀ k p, stage' = some k → k.builds ≠ some (p, e)) := by
  rcases h with ⟨c, hc⟩ | hreclaim | ⟨l, m, hm, hhandles⟩
  · exact hfollows.expWhse c e hc
  · exact Or.inl (hfollows.reclaim e hreclaim)
  · rcases (Pool.get_set (Pool.lt_next hget)).mp hm with ⟨-, hm⟩ | ⟨-, hm⟩
    · exact Or.inl (hfollows.handles m e hm hhandles)
    · exact Or.inl (Or.inr (Or.inr ⟨l, m, hm, hhandles⟩))

end ExportSystem

/-! ## A descriptor that is being built -/

/-- A descriptor as `habmem_add_export` leaves it: it has local pointers exactly if it was
made under the new protocol. -/
structure ExportVm.Fresh (vm : ExportVm π) (e : ℕ) : Prop where
  expState : (vm.desc e).expState = .exporting
  pointers : (vm.log e).newProto = false →
    (vm.desc e).vchan = none ∧ (vm.desc e).ctx = none ∧ (vm.desc e).pchan = none
  vchan : (vm.log e).newProto = true → (vm.desc e).vchan ≠ none

variable {vm vm' : ExportVm π}

theorem ExportVm.Fresh.of_eq {e : ℕ} (h : vm.Fresh e)
    (hproto : (vm'.log e).newProto = (vm.log e).newProto) (hdesc : vm'.desc e = vm.desc e) :
    vm'.Fresh e := by
  refine ⟨hdesc ▸ h.expState, fun hlegacy ↦ ?_, fun hnew ↦ ?_⟩
  · rw [hdesc]
    exact h.pointers (hproto ▸ hlegacy)
  · rw [hdesc]
    exact h.vchan (hproto ▸ hnew)

theorem ExportVm.desc_habmemRemoveExport (vm : ExportVm π) (e e' : ℕ) :
    (vm.habmemRemoveExport e').desc e = vm.desc e ∨
      (vm.habmemRemoveExport e').desc e = { vm.desc e with ctx := none } := by
  unfold ExportVm.habmemRemoveExport
  split
  · exact Or.inl rfl
  · by_cases hne : e = e'
    · subst hne
      refine Or.inr ?_
      simp [destroy, setLog, setDesc, setCtx]
    · exact Or.inl (Function.update_of_ne hne _ _)

theorem ExportVm.Fresh.habmemRemoveExport {e : ℕ} (h : vm.Fresh e) (e' : ℕ) :
    (vm.habmemRemoveExport e').Fresh e := by
  have hproto := ((vm.frame_habmemRemoveExport e').made e).2
  rcases vm.desc_habmemRemoveExport e e' with hdesc | hdesc
  · exact h.of_eq hproto hdesc
  · refine ⟨by rw [hdesc]; exact h.expState, fun hp ↦ ?_, fun hp ↦ ?_⟩
    · obtain ⟨hvchan, -, hpchan⟩ := h.pointers (hproto ▸ hp)
      rw [hdesc]
      exact ⟨hvchan, rfl, hpchan⟩
    · rw [hdesc]
      exact h.vchan (hproto ▸ hp)

/-- The lock sections of other calls do not touch a descriptor that is being built. -/
theorem ExportStage.Runs.fresh {stage : ExportStage π} {stage' : Option (ExportStage π)}
    (h : Runs vm stage vm' stage') {p : π} {e : ℕ} (hfresh : vm.Fresh e)
    (hown : stage.exports = some e → ∃ k, stage' = some k ∧ k.builds = some (p, e)) :
    vm'.Fresh e := by
  have hmade := h.frame.made
  cases h with
  | acked vchan e' =>
      have hne : e ≠ e' := by
        intro heq
        subst heq
        obtain ⟨k, hk, hb⟩ := hown rfl
        cases hk
        cases hb
      exact hfresh.of_eq (hmade e).2 (Function.update_of_ne hne _ _)
  | published vchan e' =>
      have hne : e ≠ e' := by
        intro heq
        subst heq
        obtain ⟨k, hk, -⟩ := hown rfl
        cases hk
      exact hfresh.of_eq (hmade e).2 (Function.update_of_ne hne _ _)
  | removed vchan e' => exact hfresh.habmemRemoveExport e'
  | next c e' => exact hfresh.habmemRemoveExport e'
  | _ => exact hfresh.of_eq (hmade e).2 rfl

namespace ExportSystem

/-- Whoever builds a descriptor has it alone, and a descriptor on an `exp_whse` is on the
one of the context that exported it. -/
structure Private (s : ExportSystem π) : Prop where
  distinct : ∀ i j stage stage' e, s.calls.get i = some stage → s.calls.get j = some stage' →
    stage.exports = some e → stage'.exports = some e → i = j
  exporting : ∀ i stage e, s.calls.get i = some stage → stage.exports = some e →
    e < s.vm.nextDesc
  building : ∀ i stage p e, s.calls.get i = some stage → stage.builds = some (p, e) →
    ¬ s.Released e ∧ s.vm.Fresh e
  home : ∀ i stage vchan e, s.calls.get i = some stage →
    stage = .added vchan e ∨ stage = .granted vchan e ∨ stage = .sent vchan e →
      (s.vm.log e).exporter = vchan.ctx
  allocated : ∀ e, s.Released e → e < s.vm.nextDesc
  listed : ∀ c, ∀ e ∈ (s.vm.ctx c).expWhse, (s.vm.log e).exporter = c

theorem private_start (memProto : π → Bool) : Private ⟨.start memProto, .empty⟩ := by
  constructor
  · intro i j stage stage' e h
    cases h
  · intro i stage e h
    cases h
  · intro i stage p e h
    cases h
  · intro i stage vchan e h
    cases h
  · intro e h
    rcases h with ⟨c, hc⟩ | hreclaim | ⟨i, stage, h, -⟩
    · cases hc
    · cases hreclaim
    · cases h
  · intro c e he
    cases he

variable {s : ExportSystem π} {i : ℕ} {stage : ExportStage π} {stage' : Option (ExportStage π)}

theorem Private.advance (h : Private s) (hget : s.calls.get i = some stage)
    (hruns : ExportStage.Runs s.vm stage vm' stage') :
    Private ⟨vm', s.calls.set i stage'⟩ := by
  have hi := Pool.lt_next hget
  have hfollows := follows_of_runs hget hruns
  have hframe := hruns.frame
  -- a call that exports after the step exported before it
  have hexports : ∀ j k e, (s.calls.set i stage').get j = some k → k.exports = some e →
      ∃ k₀, s.calls.get j = some k₀ ∧ k₀.exports = some e := by
    intro j k e hk hexp
    rcases (Pool.get_set hi).mp hk with ⟨rfl, hnow⟩ | ⟨-, hnow⟩
    · exact ⟨stage, hget, hfollows.exports k e hnow hexp⟩
    · exact ⟨k, hnow, hexp⟩
  constructor
  · intro j j' k k' e hk hk' hexp hexp'
    obtain ⟨k₀, hk₀, hexp₀⟩ := hexports j k e hk hexp
    obtain ⟨k₁, hk₁, hexp₁⟩ := hexports j' k' e hk' hexp'
    exact h.distinct _ _ _ _ e hk₀ hk₁ hexp₀ hexp₁
  · intro j k e hk hexp
    obtain ⟨k₀, hk₀, hexp₀⟩ := hexports j k e hk hexp
    exact hframe.nextDesc ▸ h.exporting j k₀ e hk₀ hexp₀
  · intro j k p e hk hb
    have hbefore : ∃ k₀, s.calls.get j = some k₀ ∧ k₀.builds = some (p, e) ∧
        (j = i → ∃ k, stage' = some k ∧ k.builds = some (p, e)) := by
      rcases (Pool.get_set hi).mp hk with ⟨rfl, hnow⟩ | ⟨hj, hnow⟩
      · exact ⟨stage, hget, hfollows.builds k p e hnow hb, fun _ ↦ ⟨k, hnow, hb⟩⟩
      · exact ⟨k, hnow, hb, fun heq ↦ absurd heq hj⟩
    obtain ⟨k₀, hk₀, hb₀, hstill⟩ := hbefore
    have hexp₀ := ExportStage.exports_of_builds hb₀
    obtain ⟨hprivate, hfresh⟩ := h.building j k₀ p e hk₀ hb₀
    have hown : stage.exports = some e → ∃ k, stage' = some k ∧ k.builds = some (p, e) :=
      fun hexp ↦ hstill (h.distinct _ _ _ _ e hk₀ hget hexp₀ hexp)
    refine ⟨fun hrel ↦ ?_, hruns.fresh hfresh hown⟩
    rcases hfollows.released hget hrel with hrel | ⟨hexp, hdone⟩
    · exact hprivate hrel
    · obtain ⟨k', hk', hb'⟩ := hown hexp
      exact hdone k' p hk' hb'
  · intro j k vchan e hk hbuild
    rw [hframe.exporter]
    rcases (Pool.get_set hi).mp hk with ⟨rfl, hnow⟩ | ⟨-, hnow⟩
    · have hbefore : stage = .added vchan e ∨ stage = .granted vchan e := by
        rcases hbuild with rfl | rfl | rfl <;> cases hruns <;> cases hnow
        · exact Or.inl rfl
        · exact Or.inr rfl
      exact h.home j stage vchan e hget (hbefore.imp_right Or.inl)
    · exact h.home j k vchan e hnow hbuild
  · intro e hrel
    rw [hframe.nextDesc]
    rcases hfollows.released hget hrel with hrel | ⟨hexp, -⟩
    · exact h.allocated e hrel
    · exact h.exporting i stage e hget hexp
  · intro c e he
    rw [hframe.exporter]
    rcases hruns.expWhse he with he | ⟨vchan, hstage, rfl, -⟩
    · exact h.listed c e he
    · exact h.home i stage vchan e hget (Or.inr hstage)

/-- What a step of no call, or the start of a call that builds nothing, leaves alone. -/
structure Leaves (s : ExportSystem π) (vm' : ExportVm π) : Prop where
  nextDesc : vm'.nextDesc = s.vm.nextDesc
  made : ExportVm.SameOrigin s.vm vm'
  expWhse : ∀ c, ∀ e ∈ (vm'.ctx c).expWhse, e ∈ (s.vm.ctx c).expWhse
  reclaimList : ∀ e ∈ vm'.reclaimList, e ∈ s.vm.reclaimList
  fresh : ∀ e, s.vm.Fresh e → vm'.Fresh e

theorem Leaves.exporter (hl : s.Leaves vm') (e : ℕ) :
    (vm'.log e).exporter = (s.vm.log e).exporter := (hl.made e).1

theorem Leaves.released (hl : s.Leaves vm') {e : ℕ} (h : Released { s with vm := vm' } e) :
    s.Released e := by
  rcases h with ⟨c, hc⟩ | he | hcalls
  · exact Or.inl ⟨c, hl.expWhse c e hc⟩
  · exact Or.inr (Or.inl (hl.reclaimList e he))
  · exact Or.inr (Or.inr hcalls)

theorem Private.leaves (h : Private s) (hl : s.Leaves vm') : Private { s with vm := vm' } where
  distinct := h.distinct
  exporting j k e hk hexp := hl.nextDesc ▸ h.exporting j k e hk hexp
  building j k p e hk hb := by
    obtain ⟨hprivate, hfresh⟩ := h.building j k p e hk hb
    exact ⟨fun hrel ↦ hprivate (hl.released hrel), hl.fresh e hfresh⟩
  home j k vchan e hk hb := (hl.exporter e).trans (h.home j k vchan e hk hb)
  allocated e hrel := hl.nextDesc ▸ h.allocated e (hl.released hrel)
  listed c e he := (hl.exporter e).trans (h.listed c e (hl.expWhse c e he))

theorem Private.spawn (h : Private s) {k : ExportStage π} (hexports : k.exports = none)
    (hhandles : ∀ e, k.handles e = true → s.Released e) :
    Private { s with calls := s.calls.spawn k } := by
  have hold : ∀ j m e, (s.calls.spawn k).get j = some m → m.exports = some e →
      s.calls.get j = some m := by
    intro j m e hm hexp
    rcases Pool.get_spawn.mp hm with ⟨-, rfl⟩ | hm
    · rw [hexports] at hexp
      cases hexp
    · exact hm
  have hreleased : ∀ e, Released { s with calls := s.calls.spawn k } e → s.Released e := by
    intro e hrel
    rcases hrel with hc | he | ⟨l, m, hm, hh⟩
    · exact Or.inl hc
    · exact Or.inr (Or.inl he)
    · rcases Pool.get_spawn.mp hm with ⟨-, rfl⟩ | hm
      · exact hhandles e hh
      · exact Or.inr (Or.inr ⟨l, m, hm, hh⟩)
  constructor
  · intro j j' m m' e hm hm' hexp hexp'
    exact h.distinct j j' m m' e (hold j m e hm hexp) (hold j' m' e hm' hexp') hexp hexp'
  · intro j m e hm hexp
    exact h.exporting j m e (hold j m e hm hexp) hexp
  · intro j m p e hm hb
    have hm := hold j m e hm (ExportStage.exports_of_builds hb)
    obtain ⟨hprivate, hfresh⟩ := h.building j m p e hm hb
    exact ⟨fun hrel ↦ hprivate (hreleased e hrel), hfresh⟩
  · intro j m vchan e hm hb
    have hexp : m.exports = some e := by
      rcases hb with rfl | rfl | rfl <;> rfl
    exact h.home j m vchan e (hold j m e hm hexp) hb
  · exact fun e hrel ↦ h.allocated e (hreleased e hrel)
  · exact h.listed

theorem desc_habmemAddExport (vm : ExportVm π) (vchan : ExportVchan π) (id payloadCount : UInt32)
    {e : ℕ} (hne : e ≠ vm.nextDesc) :
    (vm.habmemAddExport vchan id payloadCount).desc e = vm.desc e :=
  Function.update_of_ne hne _ _

theorem log_habmemAddExport (vm : ExportVm π) (vchan : ExportVchan π) (id payloadCount : UInt32)
    {e : ℕ} (hne : e ≠ vm.nextDesc) :
    (vm.habmemAddExport vchan id payloadCount).log e = vm.log e :=
  Function.update_of_ne hne _ _

theorem fresh_habmemAddExport (vm : ExportVm π) (vchan : ExportVchan π)
    (id payloadCount : UInt32) :
    (vm.habmemAddExport vchan id payloadCount).Fresh vm.nextDesc := by
  have hmade : ((vm.habmemAddExport vchan id payloadCount).log vm.nextDesc).newProto =
      vm.memProto vchan.pchan := by
    simp [ExportVm.habmemAddExport, ExportVm.setDesc, ExportVm.setLog, ExportVm.setIdr]
  refine ⟨?_, fun hp ↦ ?_, fun hp ↦ ?_⟩
  · simp [ExportVm.habmemAddExport, ExportVm.setDesc, ExportVm.setLog, ExportVm.setIdr]
  · rw [hmade] at hp
    simp [ExportVm.habmemAddExport, ExportVm.setDesc, ExportVm.setLog, ExportVm.setIdr, hp]
  · rw [hmade] at hp
    simp [ExportVm.habmemAddExport, ExportVm.setDesc, ExportVm.setLog, ExportVm.setIdr, hp]

theorem Private.export (h : Private s) (vchan : ExportVchan π) (id payloadCount : UInt32) :
    Private ⟨s.vm.habmemAddExport vchan id payloadCount,
      s.calls.spawn (.added vchan s.vm.nextDesc)⟩ := by
  have hreleased : ∀ e, Released ⟨s.vm.habmemAddExport vchan id payloadCount,
      s.calls.spawn (.added vchan s.vm.nextDesc)⟩ e → s.Released e := by
    intro e hrel
    rcases hrel with hc | he | ⟨l, m, hm, hh⟩
    · exact Or.inl hc
    · exact Or.inr (Or.inl he)
    · rcases Pool.get_spawn.mp hm with ⟨-, rfl⟩ | hm
      · cases hh
      · exact Or.inr (Or.inr ⟨l, m, hm, hh⟩)
  have hlog : ∀ e, e < s.vm.nextDesc →
      (s.vm.habmemAddExport vchan id payloadCount).log e = s.vm.log e :=
    fun e hlt ↦ log_habmemAddExport _ _ _ _ (Nat.ne_of_lt hlt)
  constructor
  · intro j j' m m' e hm hm' hexp hexp'
    rcases Pool.get_spawn.mp hm with ⟨hj, rfl⟩ | hold <;>
      rcases Pool.get_spawn.mp hm' with ⟨hj', rfl⟩ | hold'
    · rw [hj, hj']
    · cases hexp
      exact absurd (h.exporting _ _ _ hold' hexp') (Nat.lt_irrefl _)
    · cases hexp'
      exact absurd (h.exporting _ _ _ hold hexp) (Nat.lt_irrefl _)
    · exact h.distinct _ _ _ _ e hold hold' hexp hexp'
  · intro j m e hm hexp
    rcases Pool.get_spawn.mp hm with ⟨-, rfl⟩ | hm
    · cases hexp
      exact Nat.lt_succ_self _
    · exact Nat.lt_succ_of_lt (h.exporting j m e hm hexp)
  · intro j m p e hm hb
    rcases Pool.get_spawn.mp hm with ⟨-, rfl⟩ | hm
    · cases hb
      exact ⟨fun hrel ↦ Nat.lt_irrefl _ (h.allocated _ (hreleased _ hrel)),
        fresh_habmemAddExport _ _ _ _⟩
    · obtain ⟨hprivate, hfresh⟩ := h.building j m p e hm hb
      have hlt := h.exporting j m e hm (ExportStage.exports_of_builds hb)
      refine ⟨fun hrel ↦ hprivate (hreleased e hrel), hfresh.of_eq ?_ ?_⟩
      · exact congrArg ExportLog.newProto (hlog e hlt)
      · exact desc_habmemAddExport _ _ _ _ (Nat.ne_of_lt hlt)
  · intro j m vchan' e hm hb
    rcases Pool.get_spawn.mp hm with ⟨-, rfl⟩ | hold
    · rcases hb with hb | hb | hb <;> cases hb
      simp [ExportVm.habmemAddExport, ExportVm.setDesc, ExportVm.setLog, ExportVm.setIdr]
    · have hexp : m.exports = some e := by
        rcases hb with rfl | rfl | rfl <;> rfl
      rw [hlog e (h.exporting j m e hold hexp)]
      exact h.home j m vchan' e hold hb
  · exact fun e hrel ↦ Nat.lt_succ_of_lt (h.allocated e (hreleased e hrel))
  · intro c e he
    rw [hlog e (h.allocated e (Or.inl ⟨c, he⟩))]
    exact h.listed c e he

/-! ### Messages -/

theorem leaves_recvImport (s : ExportSystem π) (vchan : ExportVchan π) (data : HabImportData)
    (sent : Bool) : s.Leaves (s.vm.recvImport vchan data sent) := by
  unfold ExportVm.recvImport
  split
  · exact ⟨rfl, .refl _, fun _ _ he ↦ he, fun _ he ↦ he, fun _ hf ↦ hf⟩
  · rename_i e hack
    obtain ⟨-, -, hsuccess⟩ := ExportVm.acknowledged_eq_some.mp hack
    have hmade : ExportVm.SameOrigin s.vm
        ((s.vm.setDesc e { s.vm.desc e with remoteImported := true }).habSendImportAck vchan e
          sent) := by
      rw [ExportVm.habSendImportAck]
      exact ExportVm.sameOrigin_setLog ⟨rfl, rfl⟩
    refine ⟨rfl, hmade, fun _ _ he ↦ he, fun _ he ↦ he, ?_⟩
    intro e' hfresh
    have hne : e' ≠ e := by
      intro heq
      subst heq
      rw [hfresh.expState] at hsuccess
      cases hsuccess
    refine hfresh.of_eq (hmade e').2 ?_
    simp [ExportVm.habSendImportAck, ExportVm.setDesc, ExportVm.setLog, hne]

theorem sameOrigin_habRecvUnimportMsg (vm : ExportVm π) (p : π) (id : UInt32) :
    ExportVm.SameOrigin vm (vm.habRecvUnimportMsg p id) := by
  unfold ExportVm.habRecvUnimportMsg
  split
  · exact .refl vm
  · split
    · exact ExportVm.sameOrigin_setLog ⟨rfl, rfl⟩
    · exact .refl vm

theorem desc_habRecvUnimportMsg (vm : ExportVm π) (p : π) (id : UInt32) (e : ℕ) :
    (vm.habRecvUnimportMsg p id).desc e = vm.desc e ∨
      (vm.habRecvUnimportMsg p id).desc e = { vm.desc e with remoteImported := false } := by
  unfold ExportVm.habRecvUnimportMsg
  split
  · exact Or.inl rfl
  · rename_i e' _
    split
    · by_cases hne : e = e'
      · subst hne
        exact Or.inr (Function.update_self _ _ _)
      · exact Or.inl (Function.update_of_ne hne _ _)
    · exact Or.inl rfl

theorem leaves_habRecvUnimportMsg (s : ExportSystem π) (p : π) (id : UInt32) :
    s.Leaves (s.vm.habRecvUnimportMsg p id) := by
  have hmade := sameOrigin_habRecvUnimportMsg s.vm p id
  have hlists : (s.vm.habRecvUnimportMsg p id).nextDesc = s.vm.nextDesc ∧
      (s.vm.habRecvUnimportMsg p id).ctx = s.vm.ctx ∧
        (s.vm.habRecvUnimportMsg p id).reclaimList = s.vm.reclaimList := by
    unfold ExportVm.habRecvUnimportMsg
    split
    · exact ⟨rfl, rfl, rfl⟩
    · split <;> exact ⟨rfl, rfl, rfl⟩
  obtain ⟨hnext, hctx, hreclaim⟩ := hlists
  refine ⟨hnext, hmade, fun c e he ↦ hctx ▸ he, fun e he ↦ hreclaim ▸ he, fun e hfresh ↦ ?_⟩
  have hproto := (hmade e).2
  rcases desc_habRecvUnimportMsg s.vm p id e with hdesc | hdesc
  · exact hfresh.of_eq hproto hdesc
  · refine ⟨by rw [hdesc]; exact hfresh.expState, fun hp ↦ ?_, fun hp ↦ ?_⟩
    · rw [hdesc]
      exact hfresh.pointers (hproto ▸ hp)
    · rw [hdesc]
      exact hfresh.vchan (hproto ▸ hp)

/-! ### Any step -/

theorem Private.reclaim (h : Private s) :
    Private ⟨s.vm.takeReclaimable, s.calls.spawn (.reclaiming s.vm.reclaimable)⟩ := by
  have hspawn : Private { s with calls := s.calls.spawn (.reclaiming s.vm.reclaimable) } := by
    refine h.spawn rfl fun e he ↦ Or.inr (Or.inl ?_)
    simp only [ExportStage.handles, decide_eq_true_eq, ExportVm.reclaimable, List.mem_reverse] at he
    exact (List.mem_filter.mp he).1
  have hleaves : Leaves { s with calls := s.calls.spawn (.reclaiming s.vm.reclaimable) }
      s.vm.takeReclaimable :=
    ⟨rfl, .refl _, fun _ _ he ↦ he, fun e he ↦ (List.mem_filter.mp he).1,
      fun _ hf ↦ hf.of_eq rfl rfl⟩
  exact hspawn.leaves hleaves

theorem Private.step {s s' : ExportSystem π} {act : ExportAct π} (h : Private s)
    (hstep : s.step act = some s') : Private s' := by
  cases act with
  | «export» c v id payloadCount =>
      obtain ⟨vchan, -, hnext⟩ := Option.bind_eq_some_iff.mp hstep
      split at hnext
      · cases hnext
      · cases hnext
        exact h.export vchan id payloadCount
  | unexport c v id =>
      obtain ⟨vchan, -, hnext⟩ := Option.bind_eq_some_iff.mp hstep
      split at hnext
      · cases hnext
        exact h
      · rename_i e vm' htake
        cases hnext
        obtain ⟨-, -, -, -, rfl⟩ := ExportVm.takeUnexport_ok htake
        have hspawn := h.spawn (k := .taken vchan e) rfl fun e' he' ↦ by cases he'
        have hleaves : Leaves { s with calls := s.calls.spawn (.taken vchan e) }
            (s.vm.setIdr vchan.pchan id none) :=
          ⟨rfl, .refl _, fun _ _ he ↦ he, fun _ he ↦ he, fun _ hf ↦ hf.of_eq rfl rfl⟩
        exact hspawn.leaves hleaves
  | ctxFree c =>
      simp only [ExportSystem.step] at hstep
      split at hstep
      · cases hstep
        exact h.spawn rfl fun e' he' ↦ by cases he'
      · cases hstep
  | reclaim =>
      simp only [ExportSystem.step] at hstep
      split at hstep
      · cases hstep
        exact h.reclaim
      · cases hstep
  | advance i ok =>
      obtain ⟨stage, hget, hnext⟩ := Option.bind_eq_some_iff.mp hstep
      obtain ⟨⟨vm', stage'⟩, hrun, hnext⟩ := Option.bind_eq_some_iff.mp hnext
      cases hnext
      exact h.advance hget (ExportStage.runs_of_run hrun)
  | recvImport v data sent =>
      obtain ⟨vchan, -, hnext⟩ := Option.bind_eq_some_iff.mp hstep
      cases hnext
      exact h.leaves (leaves_recvImport s vchan data sent)
  | recvUnimport p id =>
      cases hstep
      exact h.leaves (leaves_habRecvUnimportMsg s p id)
  | ctxAlloc c =>
      simp only [ExportSystem.step] at hstep
      split at hstep
      · cases hstep
      · cases hstep
        refine h.leaves ⟨rfl, .refl _, fun c' e he ↦ ?_, fun _ he ↦ he,
          fun _ hf ↦ hf.of_eq rfl rfl⟩
        by_cases hc : c' = c
        · subst hc
          simp [ExportVm.setCtx] at he
        · simpa [ExportVm.setCtx, hc] using he
  | openVchan vchan =>
      simp only [ExportSystem.step] at hstep
      split at hstep
      · cases hstep
        exact h.leaves ⟨rfl, .refl _, fun _ _ he ↦ he, fun _ he ↦ he,
          fun _ hf ↦ hf.of_eq rfl rfl⟩
      · cases hstep
  | freeVchan v =>
      simp only [ExportSystem.step] at hstep
      split at hstep
      · cases hstep
        exact h.leaves ⟨rfl, .refl _, fun _ _ he ↦ he, fun _ he ↦ he,
          fun _ hf ↦ hf.of_eq rfl rfl⟩
      · cases hstep
  | negotiate p newProto =>
      cases hstep
      exact h.leaves ⟨rfl, .refl _, fun _ _ he ↦ he, fun _ he ↦ he, fun _ hf ↦ hf.of_eq rfl rfl⟩

theorem private_of_reachable {memProto : π → Bool} {s : ExportSystem π}
    (h : Runs.Reachable step ⟨.start memProto, .empty⟩ s) : Private s := by
  obtain ⟨acts, hexec⟩ := h
  exact Runs.invariant_of_exec (fun _ _ _ hs hstep ↦ hs.step hstep) (private_start memProto) hexec

end ExportSystem

end Hab
