import Hab.Library.Runs
import Hab.ImportInvariant

/-!
# No use after free on the importer

Each step keeps the invariant: for the new protocol always, for the legacy one
as long as no descriptor is freed whose EXPORT_ACK is still to be sent.
-/

namespace Hab

open Runs

namespace ImportVm

variable {vm : ImportVm} {expect : HabImportAck} {q : List HabImportAckRecvd}

theorem ackScan_answers {ack : HabImportAck} (h : (ackScan expect q).1 = some ack) :
    ack.answers expect = true := by
  induction q with
  | nil => cases h
  | cons a rest ih =>
      rw [ackScan] at h
      split at h
      · rename_i ha
        cases h
        exact ha
      · exact ih h

/-- A scan takes or keeps each ack at most once. -/
theorem ackScan_countP (expect : HabImportAck) (q : List HabImportAckRecvd)
    (test : HabImportAck → Bool) :
    (ackScan expect q).2.countP (fun a ↦ test a.ack) + ((ackScan expect q).1.any test).toNat ≤
      q.countP (fun a ↦ test a.ack) := by
  induction q with
  | nil => exact Nat.le_refl 0
  | cons a rest ih =>
      rw [ackScan, List.countP_cons]
      split
      · by_cases htest : test a.ack = true <;> simp [htest]
      · simp only
        split
        · omega
        · rw [List.countP_cons]
          dsimp only
          omega

theorem same_queueAck (ack : HabImportAck) : vm.Same (vm.queueAck ack) :=
  ⟨rfl, rfl, rfl, rfl, rfl, rfl, rfl⟩

theorem countP_queueAck (ack : HabImportAck) (key : UInt32 × HabPchan) :
    (vm.queueAck ack).impRxq.countP (fun a ↦ a.ack.grants key) =
      vm.impRxq.countP (fun a ↦ a.ack.grants key) + (ack.grants key).toNat := by
  rw [queueAck, List.countP_append, List.countP_singleton]
  cases ack.grants key <;> rfl

theorem same_habImportAckFind (vm : ImportVm) (expect : HabImportAck) (vchan : ImportVchan) :
    vm.Same (vm.habImportAckFind expect vchan).2 := by
  rw [habImportAckFind]
  split <;> exact ⟨rfl, rfl, rfl, rfl, rfl, rfl, rfl⟩

/-- A wait that may go on to look for a descriptor has taken an ack for it. -/
theorem countP_habImportAckFind (vm : ImportVm) (expect : HabImportAck) (vchan : ImportVchan)
    (key : UInt32 × HabPchan) :
    (vm.habImportAckFind expect vchan).2.impRxq.countP (fun a ↦ a.ack.grants key) +
        ((vm.habImportAckFind expect vchan).1.2 && expect.key = key).toNat ≤
      vm.impRxq.countP (fun a ↦ a.ack.grants key) := by
  have hscan := ackScan_countP expect vm.impRxq (HabImportAck.grants key)
  rw [habImportAckFind]
  split
  · rename_i ack hack
    have hanswers := ackScan_answers hack
    rw [hack] at hscan
    simp only [HabImportAck.answers, Bool.and_eq_true, decide_eq_true_eq] at hanswers
    have hkey : ack.key = expect.key := by
      rw [HabImportAck.key, HabImportAck.key, hanswers.1.1, hanswers.1.2]
    rw [← hkey]
    exact hscan
  · exact Nat.le_trans (Nat.add_le_add_left (Nat.zero_le _) _) hscan

theorem same_queueFail (vchan : ImportVchan) (exportId : UInt32) (alloc : Bool) :
    vm.Same (vm.queueFail vchan exportId alloc) := by
  cases alloc with
  | true => exact same_queueAck _
  | false => exact ⟨rfl, rfl, rfl, rfl, rfl, rfl, rfl⟩

theorem countP_queueFail (vchan : ImportVchan) (exportId : UInt32) (alloc : Bool)
    (key : UInt32 × HabPchan) :
    (vm.queueFail vchan exportId alloc).impRxq.countP (fun a ↦ a.ack.grants key) =
      vm.impRxq.countP (fun a ↦ a.ack.grants key) := by
  cases alloc with
  | true => exact countP_queueAck _ key
  | false => rfl

end ImportVm

namespace ImportSystem

variable {s : ImportSystem} {i : ℕ} {stage : ImportStage} {vm' : ImportVm}
  {stage' : Option ImportStage} {vchan : ImportVchan} {param : HabImport} {e : ℕ}

/-- Tokens do not increase when neither queue nor call gains one. -/
theorem tokens_advance_le (hget : s.calls.get i = some stage)
    (hsame : s.vm.Same vm') (key : UInt32 × HabPchan)
    (hle : vm'.impRxq.countP (fun a ↦ a.ack.grants key) +
        (stage'.any (ImportStage.claims s.vm.memProto key)).toNat ≤
      s.vm.impRxq.countP (fun a ↦ a.ack.grants key) +
        (stage.claims s.vm.memProto key).toNat) :
    (ImportSystem.mk vm' (s.calls.set i stage')).tokens key ≤ s.tokens key := by
  have hset := count_claims_set hget stage' key
  simp only [ImportSystem.tokens, hsame.memProto]
  omega

/-! ### Handling a received descriptor -/

theorem Inv.advance_queueing (h : Inv s) {ack : HabImportAck}
    (hget : s.calls.get i = some (.queueing vchan ack e)) :
    Inv ⟨s.vm.queueAck ack,
      s.calls.set i (if ack.impWhseAdded then none else some (.freeing vchan e))⟩ := by
  have hholds := h.stages i _ hget
  refine h.advance_same hget (ImportVm.same_queueAck ack) (fun key ↦ ?_) (fun k hk ↦ ?_)
    fun k e' hk hown ↦ ?_
  · refine tokens_advance_le hget (ImportVm.same_queueAck ack) key ?_
    rw [ImportVm.countP_queueAck]
    split <;> simp [ImportStage.claims]
  · split at hk
    · cases hk
    · rename_i hadded
      cases hk
      have howned := hholds.owned e (by simp [ImportStage.owns, hadded])
      refine ⟨fun e' he' ↦ ?_, nofun, nofun⟩
      obtain rfl : e = e' := by simpa [ImportStage.owns] using he'
      exact howned
  · split at hk
    · cases hk
    · rename_i hadded
      cases hk
      obtain rfl : e = e' := by simpa [ImportStage.owns] using hown
      simp [ImportStage.owns, hadded]

theorem Inv.advance_exportAcking (h : Inv s) {added : Bool}
    (hget : s.calls.get i = some (.exportAcking vchan e added)) :
    Inv ⟨s.vm.touch [e], s.calls.set i (if added then none else some (.freeing vchan e))⟩ := by
  have hholds := h.stages i _ hget
  have hfreed : s.vm.freed e = 0 := by
    cases added with
    | true => exact (hholds.acking e (by simp [ImportStage.acks])).2
    | false => exact (hholds.owned e (by simp [ImportStage.owns])).2.1
  rw [ImportVm.touch_singleton_eq hfreed]
  refine h.advance_same hget (ImportVm.Same.refl _) (fun key ↦ ?_) (fun k hk ↦ ?_)
    fun k e' hk hown ↦ ?_
  · refine tokens_advance_le hget (ImportVm.Same.refl _) key ?_
    cases added <;> simp [ImportStage.claims]
  · cases added with
    | true => cases hk
    | false =>
        cases hk
        refine ⟨fun e' he' ↦ ?_, nofun, nofun⟩
        obtain rfl : e = e' := by simpa [ImportStage.owns] using he'
        exact hholds.owned e (by simp [ImportStage.owns])
  · cases added with
    | true => cases hk
    | false =>
        cases hk
        obtain rfl : e = e' := by simpa [ImportStage.owns] using hown
        simp [ImportStage.owns]

theorem Inv.advance_rejected (h : Inv s) {ok : Bool}
    (hget : s.calls.get i = some (.rejected vchan e)) :
    Inv ⟨(s.vm.touch [e]).queueFail vchan (s.vm.desc e).exportId ok,
      s.calls.set i (some (.freeing vchan e))⟩ := by
  have hholds := h.stages i _ hget
  have howned := hholds.owned e (by simp [ImportStage.owns])
  rw [ImportVm.touch_singleton_eq howned.2.1]
  refine h.advance_same hget (ImportVm.same_queueFail _ _ _) (fun key ↦ ?_) ?_ ?_
  · refine tokens_advance_le hget (ImportVm.same_queueFail _ _ _) key ?_
    rw [ImportVm.countP_queueFail]
    exact Nat.le_refl _
  · rintro k ⟨⟩
    exact ⟨hholds.owned, nofun, nofun⟩
  · rintro k e' ⟨⟩ hown
    exact hown

/-! ### `hab_mem_import` -/

/-- An ack that a wait takes is for the import that waits. -/
theorem Inv.advance_waiting (h : Inv s) {ok : Bool}
    (hget : s.calls.get i = some (.waiting vchan param))
    (hrun : (ImportStage.waiting vchan param).run s.vm ok = (vm', stage')) :
    Inv ⟨vm', s.calls.set i stage'⟩ := by
  set expect : HabImportAck := ⟨param.exportId, vchan.id, vchan.otherendId, false⟩
  have hcount := s.vm.countP_habImportAckFind expect vchan
  have hkey : expect.key = (param.exportId, vchan.pchan) :=
    Prod.ext rfl (vcidPchan_habVcid vchan.pchan vchan.idr)
  cases hrun
  have hnext : ∀ k, (if (s.vm.habImportAckFind expect vchan).1.1 then
        some (ImportStage.acked vchan param (s.vm.habImportAckFind expect vchan).1.2)
      else if ok then some (.waiting vchan param) else none) = some k →
      k = .acked vchan param (s.vm.habImportAckFind expect vchan).1.2 ∨
        k = .waiting vchan param := by
    intro k hk
    split at hk
    · cases hk
      exact Or.inl rfl
    · split at hk
      · cases hk
        exact Or.inr rfl
      · cases hk
  refine h.advance_same hget (s.vm.same_habImportAckFind expect vchan) (fun key ↦ ?_)
    (fun k hk ↦ ?_) fun k e' hk hown ↦ ?_
  · refine tokens_advance_le hget (s.vm.same_habImportAckFind expect vchan) key ?_
    have hclaims : (Option.any (ImportStage.claims s.vm.memProto key)
        (if (s.vm.habImportAckFind expect vchan).1.1 then
          some (ImportStage.acked vchan param (s.vm.habImportAckFind expect vchan).1.2)
        else if ok then some (.waiting vchan param) else none)).toNat ≤
        ((s.vm.habImportAckFind expect vchan).1.2 && expect.key = key).toNat := by
      rw [hkey]
      split
      · exact Nat.le_refl _
      · split <;> exact Nat.zero_le _
    exact Nat.le_trans (Nat.add_le_add_left hclaims _) (Nat.le_add_right_of_le (hcount key))
  · rcases hnext k hk with rfl | rfl <;> exact ⟨nofun, nofun, nofun⟩
  · rcases hnext k hk with rfl | rfl <;> cases hown

theorem Inv.advance_acked (h : Inv s) {scanImpWhse : Bool}
    (hget : s.calls.get i = some (.acked vchan param scanImpWhse)) :
    Inv ⟨s.vm, s.calls.set i (if s.vm.otherendClosed vchan.addr then none
      else if scanImpWhse then some (.finding vchan param) else none)⟩ := by
  have hnext : ∀ k, (if s.vm.otherendClosed vchan.addr then none
      else if scanImpWhse then some (.finding vchan param) else none) = some k →
      k = ImportStage.finding vchan param ∧ scanImpWhse = true := by
    intro k hk
    split at hk
    · cases hk
    · split at hk
      · rename_i hscan
        cases hk
        exact ⟨rfl, hscan⟩
      · cases hk
  refine h.advance_same hget (ImportVm.Same.refl _) (fun key ↦ ?_) (fun k hk ↦ ?_)
    fun k e' hk hown ↦ ?_
  · refine tokens_advance_le hget (ImportVm.Same.refl _) key (Nat.add_le_add_left ?_ _)
    cases hk : (if s.vm.otherendClosed vchan.addr then none
      else if scanImpWhse then some (ImportStage.finding vchan param) else none) with
    | none => exact Nat.zero_le _
    | some k =>
        obtain ⟨rfl, rfl⟩ := hnext k hk
        refine Bool.toNat_le_toNat fun hclaims ↦ ?_
        simp only [Option.any_some, ImportStage.claims, Bool.and_eq_true] at hclaims
        exact hclaims.2
  · obtain ⟨rfl, -⟩ := hnext k hk
    exact ⟨nofun, nofun, nofun⟩
  · obtain ⟨rfl, -⟩ := hnext k hk
    cases hown

/-- A descriptor that is found in EXP_DESC_INIT is no other call's. -/
theorem Inv.advance_finding (h : Inv s) (ok : Bool)
    (hget : s.calls.get i = some (.finding vchan param))
    (hrun : (ImportStage.finding vchan param).run s.vm ok = (vm', stage')) :
    Inv ⟨vm', s.calls.set i stage'⟩ := by
  have hi := Pool.lt_next hget
  have hstay : Inv ⟨s.vm, s.calls.set i none⟩ :=
    h.advance_same hget (ImportVm.Same.refl _)
      (fun key ↦ tokens_advance_le hget (ImportVm.Same.refl _) key
        (Nat.add_le_add_left (Nat.zero_le _) _)) nofun nofun
  simp only [ImportStage.run, h.heap.touch_impWhse_eq] at hrun
  split at hrun
  · cases hrun
    exact hstay
  · rename_i e hfind
    obtain ⟨he, hkey⟩ := ImportVm.habRbExpFind_eq_some hfind
    split at hrun
    · rename_i hinit
      cases hrun
      have hpchan : (s.vm.desc e).pchan = vchan.pchan := congrArg Prod.snd hkey
      -- the claimed ack is used up here
      have hclaims : (ImportStage.finding vchan param).claims s.vm.memProto (s.vm.key e) =
          s.vm.memProto (s.vm.desc e).pchan := by
        simp [ImportStage.claims, hkey, hpchan]
      have hset := count_claims_set hget (some (.importing vchan param e)) (s.vm.key e)
      rw [hclaims] at hset
      have hzero : s.calls.count (ImportStage.owns e) = 0 := by
        refine h.unowned he (Or.inr ⟨hinit, fun hproto ↦ ?_⟩)
        refine Nat.add_pos_right _ (Pool.count_pos hget ?_)
        rw [hclaims]
        exact hproto
      have hlocal := ImportVm.local_setImportState s.vm e .importing
      have hcount : ∀ e', e' ≠ e →
          (s.calls.set i (some (.importing vchan param e))).count (ImportStage.owns e') ≤
            s.calls.count (ImportStage.owns e') := by
        intro e' hne
        have hset := count_owns_set hget (some (.importing vchan param e)) e'
        have hnot : (some (ImportStage.importing vchan param e)).any (ImportStage.owns e') =
            false := by
          simpa [ImportStage.owns, ImportStage.worksOn] using fun heq ↦ hne heq.symm
        rw [hnot, Bool.toNat_false] at hset
        omega
      refine ⟨h.heap.setImportState e _, fun j k hk ↦ ?_, fun e' ↦ ?_,
        h.tokens_of_local hlocal (fun key ↦ ?_) (fun _ hpos _ ↦ ?_) hcount⟩
      · rcases (Pool.get_set hi).mp hk with ⟨-, hk⟩ | ⟨-, hk⟩
        · cases hk
          refine ⟨fun e' he' ↦ ?_, nofun, nofun⟩
          obtain rfl : e = e' := by
            simpa [ImportStage.owns, ImportStage.worksOn] using he'
          obtain ⟨hlt, hfreed⟩ := h.heap.live e he
          refine ⟨hlt, hfreed, iff_of_true he he', ?_⟩
          rw [ImportVm.desc_setImportState]
          exact ⟨rfl, hpchan⟩
        · exact (h.stages j k hk).of_local hlocal (Pool.eq_false_of_count_eq_zero hzero hk)
            fun _ ↦ (h.heap.live e he).2
      · by_cases hne : e' = e
        · subst hne
          have hset := count_owns_set hget (some (.importing vchan param e')) e'
          have hle := Bool.toNat_le ((some (ImportStage.importing vchan param e')).any
            (ImportStage.owns e'))
          change (s.calls.set i _).count (ImportStage.owns e') ≤ 1
          omega
        · exact Nat.le_trans (hcount e' hne) (h.owners e')
      · have hset := count_claims_set hget (some (.importing vchan param e)) key
        have hnone : (some (ImportStage.importing vchan param e)).any
            (ImportStage.claims s.vm.memProto key) = false := rfl
        rw [hnone, Bool.toNat_false] at hset
        simp only [ImportSystem.tokens, hlocal.memProto]
        exact Nat.add_le_add (Nat.le_refl _) (by omega)
      · -- the key has no ack left
        exfalso
        have hnone : (some (ImportStage.importing vchan param e)).any
            (ImportStage.claims s.vm.memProto (s.vm.key e)) = false := rfl
        rw [hnone, Bool.toNat_false] at hset
        have hle : (ImportSystem.mk (s.vm.setImportState e .importing)
            (s.calls.set i (some (.importing vchan param e)))).tokens (s.vm.key e) +
            (s.vm.memProto (s.vm.desc e).pchan).toNat = s.tokens (s.vm.key e) := by
          have hrxq : (s.vm.setImportState e .importing).impRxq = s.vm.impRxq := rfl
          simp only [ImportSystem.tokens, hlocal.memProto, hrxq]
          omega
        obtain ⟨hone, hproto, -⟩ := h.tokens (s.vm.key e) (by omega)
        rw [show s.vm.memProto (s.vm.desc e).pchan = true from hproto, Bool.toNat_true] at hle
        omega
    · cases hrun
      exact hstay

/-- A stage after which the call still owns its descriptor. -/
theorem Inv.advance_keep (h : Inv s) {k : ImportStage}
    (hget : s.calls.get i = some stage) (howns : ∀ e', stage.owns e' = k.owns e')
    (hworks : ∀ e', stage.worksOn e' = k.worksOn e')
    (hexpects : ∀ e', stage.owns e' = true → stage.expects s.vm.memProto (s.vm.desc e') →
      k.expects s.vm.memProto (s.vm.desc e'))
    (hacks : ∀ e', k.acks e' = false) (hother : ∀ vchan e' added, k ≠ .exportAcking vchan e' added)
    (hclaims : ∀ key, k.claims s.vm.memProto key = false) :
    Inv ⟨s.vm, s.calls.set i (some k)⟩ := by
  have hholds := h.stages i _ hget
  refine h.advance_same hget (ImportVm.Same.refl _) (fun key ↦ ?_) ?_ ?_
  · refine tokens_advance_le hget (ImportVm.Same.refl _) key (Nat.add_le_add_left ?_ _)
    rw [Option.any_some, hclaims key]
    exact Nat.zero_le _
  · rintro _ ⟨⟩
    refine ⟨fun e' he' ↦ ?_, fun e' he' ↦ ?_, fun vchan e' added heq ↦ ?_⟩
    · rw [← howns] at he'
      rw [← hworks]
      obtain ⟨hlt, hfreed, hin, hexp⟩ := hholds.owned e' he'
      exact ⟨hlt, hfreed, hin, hexpects e' he' hexp⟩
    · rw [hacks] at he'
      cases he'
    · exact absurd heq (hother vchan e' added)
  · rintro _ e' ⟨⟩ hown
    rw [howns]
    exact hown

theorem Inv.advance_importing (h : Inv s) {ok : Bool}
    (hget : s.calls.get i = some (.importing vchan param e))
    (hrun : (ImportStage.importing vchan param e).run s.vm ok = (vm', stage')) :
    Inv ⟨vm', s.calls.set i stage'⟩ := by
  obtain ⟨-, hfreed, -, hstate, hpchan⟩ :=
    (h.stages i _ hget).owned e (by simp [ImportStage.owns, ImportStage.worksOn])
  simp only [ImportStage.run, ImportVm.touch_singleton_eq hfreed] at hrun
  cases hrun
  split
  · exact h.advance_keep hget (fun _ ↦ rfl) (fun _ ↦ rfl) (fun _ _ hexp ↦ hexp.1) (fun _ ↦ rfl)
      nofun fun _ ↦ rfl
  · exact h.advance_keep hget (fun _ ↦ rfl) (fun _ ↦ rfl) (fun _ _ hexp ↦ hexp) (fun _ ↦ rfl)
      nofun fun _ ↦ rfl

/-- The last access of a call to a descriptor that stays in the warehouse. -/
theorem Inv.advance_imported (h : Inv s) (hget : s.calls.get i = some stage)
    (hworks : stage.worksOn e = true) :
    Inv ⟨(s.vm.touch [e]).setImportState e .imported, s.calls.set i none⟩ := by
  have howns := ImportStage.owns_of_worksOn hworks
  have hfreed := ((h.stages i _ hget).owned e howns).2.1
  rw [ImportVm.touch_singleton_eq hfreed]
  exact h.advance_owner hget howns (ImportVm.local_setImportState _ e _)
    (h.heap.setImportState e _) rfl nofun fun _ _ _ _ ↦ hfreed

/-- A rollback puts the descriptor back to EXP_DESC_INIT; under the new protocol it
goes on to remove it. -/
theorem Inv.advance_failed (h : Inv s) (hget : s.calls.get i = some (.failed vchan e)) :
    Inv ⟨(s.vm.touch [e]).setImportState e .init,
      s.calls.set i (if s.vm.memProto vchan.pchan then some (.undoing vchan e) else none)⟩ := by
  have howns : (ImportStage.failed vchan e).owns e = true := by
    simp [ImportStage.owns, ImportStage.worksOn]
  obtain ⟨hlt, hfreed, hin, -, hpchan⟩ := (h.stages i _ hget).owned e howns
  rw [ImportVm.touch_singleton_eq hfreed]
  refine h.advance_owner hget howns (ImportVm.local_setImportState _ e _)
    (h.heap.setImportState e _) rfl (fun k hk ↦ ?_) fun _ _ _ _ ↦ hfreed
  split at hk
  · rename_i hproto
    cases hk
    have hself : ∀ e', (ImportStage.undoing vchan e).owns e' = true → e' = e := by
      intro e' he'
      simp only [ImportStage.owns, ImportStage.worksOn, decide_eq_true_eq] at he'
      exact he'.symm
    refine ⟨⟨fun e' he' ↦ ?_, nofun, nofun⟩, hself, fun _ ↦ rfl⟩
    rw [hself e' he']
    refine ⟨hlt, hfreed, hin, Or.inr ?_⟩
    rw [ImportVm.desc_setImportState]
    exact ⟨rfl, hpchan ▸ hproto⟩
  · cases hk

/-! ### `hab_mem_unimport` and the rollback -/

theorem Inv.advance_unimporting (h : Inv s) {ok : Bool}
    (hget : s.calls.get i = some (.unimporting vchan e))
    (hrun : (ImportStage.unimporting vchan e).run s.vm ok = (vm', stage')) :
    Inv ⟨vm', s.calls.set i stage'⟩ := by
  obtain ⟨-, hfreed, -⟩ :=
    (h.stages i _ hget).owned e (by simp [ImportStage.owns, ImportStage.worksOn])
  simp only [ImportStage.run, ImportVm.touch_singleton_eq hfreed] at hrun
  cases hrun
  split
  · exact h.advance_keep hget (fun _ ↦ rfl) (fun _ ↦ rfl) (fun _ _ hexp ↦ hexp) (fun _ ↦ rfl)
      nofun fun _ ↦ rfl
  · split
    · exact h.advance_keep hget (fun _ ↦ rfl) (fun _ ↦ rfl) (fun _ _ hexp ↦ Or.inl hexp)
        (fun _ ↦ rfl) nofun fun _ ↦ rfl
    · exact h.advance_keep hget (fun _ ↦ rfl) (fun _ ↦ rfl) (fun _ _ hexp ↦ Or.inl hexp)
        (fun _ ↦ rfl) nofun fun _ ↦ rfl

theorem Inv.advance_undoing (h : Inv s) (hget : s.calls.get i = some (.undoing vchan e)) :
    Inv ⟨s.vm.touch [e], s.calls.set i (some (.removing vchan e))⟩ := by
  obtain ⟨-, hfreed, -⟩ :=
    (h.stages i _ hget).owned e (by simp [ImportStage.owns, ImportStage.worksOn])
  rw [ImportVm.touch_singleton_eq hfreed]
  exact h.advance_keep hget (fun _ ↦ rfl) (fun _ ↦ rfl) (fun _ _ hexp ↦ hexp) (fun _ ↦ rfl)
    nofun fun _ ↦ rfl

theorem Inv.advance_removing (h : Inv s) (hget : s.calls.get i = some (.removing vchan e)) :
    Inv ⟨s.vm.removeImport e, s.calls.set i (some (.freeing vchan e))⟩ := by
  have hworks : (ImportStage.removing vchan e).worksOn e = true := by
    simp [ImportStage.worksOn]
  have howns := ImportStage.owns_of_worksOn hworks
  obtain ⟨hlt, hfreed, hin, -⟩ := (h.stages i _ hget).owned e howns
  obtain ⟨hheap, hout⟩ := h.heap.removeImport (hin.mpr hworks)
  refine h.advance_owner hget howns (ImportVm.local_removeImport e) hheap rfl ?_
    fun _ _ _ _ ↦ hfreed
  rintro k ⟨⟩
  have hself : ∀ e', (ImportStage.freeing vchan e).owns e' = true → e' = e := by
    intro e' he'
    simp only [ImportStage.owns, decide_eq_true_eq] at he'
    exact he'.symm
  refine ⟨⟨fun e' he' ↦ ?_, nofun, nofun⟩, hself, fun _ ↦ rfl⟩
  rw [hself e' he']
  exact ⟨hlt, hfreed, iff_of_false hout nofun, trivial⟩

theorem Inv.advance_freeing (h : Inv s) (hget : s.calls.get i = some (.freeing vchan e))
    (hacked : ∀ j k, s.calls.get j = some k → k.acks e = false) :
    Inv ⟨s.vm.kfree e, s.calls.set i none⟩ := by
  have howns : (ImportStage.freeing vchan e).owns e = true := by
    simp [ImportStage.owns]
  obtain ⟨hlt, hfreed, hin, -⟩ := (h.stages i _ hget).owned e howns
  have hout : e ∉ s.vm.impWhse := fun he ↦ nomatch hin.mp he
  refine h.advance_owner hget howns (ImportVm.local_kfree e) (h.heap.kfree hlt hfreed hout) rfl
    nofun fun j k hk hacks ↦ ?_
  rw [hacked j k hk] at hacks
  cases hacks

/-! ### Any call -/

/-- The condition on a step: no descriptor is freed whose EXPORT_ACK is still to be
sent. -/
def Acked (s : ImportSystem) : ImportAct → Prop
  | .advance i _ => ∀ vchan e, s.calls.get i = some (.freeing vchan e) →
      ∀ j k, s.calls.get j = some k → k.acks e = false
  | _ => True

theorem Inv.advance (h : Inv s) {ok : Bool} (hget : s.calls.get i = some stage)
    (hacked : s.Acked (.advance i ok)) :
    Inv ⟨(stage.run s.vm ok).1, s.calls.set i (stage.run s.vm ok).2⟩ := by
  cases stage with
  | queueing vchan ack e => exact h.advance_queueing hget
  | exportAcking vchan e added => exact h.advance_exportAcking hget
  | rejected vchan e => exact h.advance_rejected hget
  | waiting vchan param => exact h.advance_waiting hget rfl
  | acked vchan param scanImpWhse => exact h.advance_acked hget
  | finding vchan param => exact h.advance_finding ok hget rfl
  | importing vchan param e => exact h.advance_importing hget rfl
  | mapped vchan e => exact h.advance_imported hget (by simp [ImportStage.worksOn])
  | failed vchan e => exact h.advance_failed hget
  | unimporting vchan e => exact h.advance_unimporting hget rfl
  | restoring vchan e => exact h.advance_imported hget (by simp [ImportStage.worksOn])
  | undoing vchan e => exact h.advance_undoing hget
  | removing vchan e => exact h.advance_removing hget
  | freeing vchan e => exact h.advance_freeing hget (hacked vchan e hget)

/-! ### Calls that start, messages and vchans -/

theorem Inv.vm_same (h : Inv s) (hsame : s.vm.Same vm')
    (hrxq : ∀ key, vm'.impRxq.countP (fun a ↦ a.ack.grants key) ≤
      s.vm.impRxq.countP (fun a ↦ a.ack.grants key)) : Inv { s with vm := vm' } := by
  refine ⟨hsame.heap h.heap, fun j k hk ↦ hsame.holds (h.stages j k hk), h.owners, ?_⟩
  refine fun key hpos ↦ ?_
  have hle : ({ s with vm := vm' } : ImportSystem).tokens key ≤ s.tokens key := by
    simp only [ImportSystem.tokens, hsame.memProto]
    exact Nat.add_le_add_right (hrxq key) _
  obtain ⟨hone, hproto, e, he, hkey, hinit, hzero⟩ := h.tokens key (by omega)
  refine ⟨by omega, hsame.memProto ▸ hproto, e, hsame.impWhse ▸ he, ?_, ?_, hzero⟩
  · rw [ImportVm.key, hsame.desc]
    exact hkey
  · rw [hsame.desc]
    exact hinit

theorem Inv.spawn_plain (h : Inv s) {k : ImportStage} (howns : ∀ e, k.owns e = false)
    (hacks : ∀ e, k.acks e = false) (hother : ∀ vchan e added, k ≠ .exportAcking vchan e added)
    (hclaims : ∀ key, k.claims s.vm.memProto key = false) :
    Inv { s with calls := s.calls.spawn k } := by
  refine ⟨h.heap, fun j m hm ↦ ?_, fun e ↦ ?_, fun key hpos ↦ ?_⟩
  · rcases Pool.get_spawn.mp hm with ⟨-, rfl⟩ | hm
    · refine ⟨fun e he ↦ ?_, fun e he ↦ ?_, fun vchan e added heq ↦ ?_⟩
      · rw [howns] at he
        cases he
      · rw [hacks] at he
        cases he
      · exact absurd heq (hother vchan e added)
    · exact h.stages j m hm
  · rw [Pool.count_spawn, howns]
    exact h.owners e
  · have hsame : ({ s with calls := s.calls.spawn k } : ImportSystem).tokens key =
        s.tokens key := by
      simp only [ImportSystem.tokens, Pool.count_spawn, hclaims]
      rfl
    rw [hsame] at hpos ⊢
    obtain ⟨hone, hproto, e, he, hkey, hinit, hzero⟩ := h.tokens key hpos
    refine ⟨hone, hproto, e, he, hkey, hinit, ?_⟩
    rw [Pool.count_spawn, howns]
    exact hzero

theorem Inv.unimport (h : Inv s) (he : e ∈ s.vm.impWhse)
    (hstate : (s.vm.desc e).importState = .imported) :
    Inv ⟨s.vm.setImportState e .unimporting, s.calls.spawn (.unimporting vchan e)⟩ := by
  have hzero := h.unowned he (Or.inl hstate)
  have hlocal := ImportVm.local_setImportState s.vm e .unimporting
  have hself : ∀ e', (ImportStage.unimporting vchan e).owns e' = true → e' = e := by
    intro e' he'
    simp only [ImportStage.owns, ImportStage.worksOn, decide_eq_true_eq] at he'
    exact he'.symm
  have hcount : ∀ e', e' ≠ e → (s.calls.spawn (.unimporting vchan e)).count
      (ImportStage.owns e') ≤ s.calls.count (ImportStage.owns e') := by
    intro e' hne
    have hnot : (ImportStage.unimporting vchan e).owns e' = false := by
      by_contra hown
      exact hne (hself e' (by simpa using hown))
    rw [Pool.count_spawn, hnot]
    exact Nat.le_refl _
  obtain ⟨hlt, hfreed⟩ := h.heap.live e he
  refine ⟨h.heap.setImportState e _, fun j m hm ↦ ?_, fun e' ↦ ?_,
    h.tokens_of_local hlocal (fun key ↦ ?_) (fun _ _ hinit ↦ ?_) hcount⟩
  · rcases Pool.get_spawn.mp hm with ⟨-, rfl⟩ | hm
    · refine ⟨fun e' he' ↦ ?_, nofun, nofun⟩
      obtain rfl := hself e' he'
      refine ⟨hlt, hfreed, iff_of_true he he', ?_⟩
      rw [ImportVm.desc_setImportState]
      rfl
    · exact (h.stages j m hm).of_local hlocal (Pool.eq_false_of_count_eq_zero hzero hm)
        fun _ ↦ hfreed
  · by_cases hne : e' = e
    · subst hne
      rw [Pool.count_spawn, hzero, Nat.zero_add]
      exact Bool.toNat_le _
    · exact Nat.le_trans (hcount e' hne) (h.owners e')
  · simp only [ImportSystem.tokens, Pool.count_spawn]
    exact Nat.le_refl _
  · rw [hstate] at hinit
    cases hinit

/-- No call knows of the next descriptor. -/
theorem Inv.unused (h : Inv s) {j : ℕ} {m : ImportStage} (hm : s.calls.get j = some m) :
    m.owns s.vm.nextDesc = false ∧ m.acks s.vm.nextDesc = false := by
  have hholds := h.stages j m hm
  constructor
  · by_contra hown
    exact Nat.lt_irrefl _ (hholds.owned _ (by simpa using hown)).1
  · by_contra hacks
    exact Nat.lt_irrefl _ (hholds.acking _ (by simpa using hacks)).1

/-- A new descriptor that is freed at once. -/
theorem Inv.vm_alloc (h : Inv s) (hlocal : s.vm.Local s.vm.nextDesc vm') (hheap : vm'.Heap)
    (hrxq : vm'.impRxq = s.vm.impRxq) : Inv { s with vm := vm' } := by
  refine ⟨hheap, fun j m hm ↦ ?_, h.owners, h.tokens_of_local hlocal (fun key ↦ ?_)
    (fun hin ↦ ?_) fun _ _ ↦ Nat.le_refl _⟩
  · obtain ⟨howns, hacks⟩ := h.unused hm
    refine (h.stages j m hm).of_local hlocal howns fun htrue ↦ ?_
    rw [hacks] at htrue
    cases htrue
  · simp only [ImportSystem.tokens, hlocal.memProto, hrxq]
    exact Nat.le_refl _
  · exact absurd (h.heap.live _ hin).1 (Nat.lt_irrefl _)

theorem Inv.spawn_alloc (h : Inv s) {k : ImportStage} (hlocal : s.vm.Local s.vm.nextDesc vm')
    (hheap : vm'.Heap) (hfreed : vm'.freed s.vm.nextDesc = 0) (hrxq : vm'.impRxq = s.vm.impRxq)
    (hnew : k.Holds vm') (hself : ∀ e, k.owns e = true → e = s.vm.nextDesc)
    (hclaims : ∀ key, k.claims s.vm.memProto key = true → s.tokens key = 0 ∧
      s.vm.memProto key.2 = true ∧ s.vm.nextDesc ∈ vm'.impWhse ∧
        vm'.key s.vm.nextDesc = key ∧ (vm'.desc s.vm.nextDesc).importState = .init ∧
          k.owns s.vm.nextDesc = false) : Inv ⟨vm', s.calls.spawn k⟩ := by
  have hzero : s.calls.count (ImportStage.owns s.vm.nextDesc) = 0 :=
    Pool.count_eq_zero fun j m hm ↦ (h.unused hm).1
  have hcount : ∀ e, e ≠ s.vm.nextDesc → (s.calls.spawn k).count (ImportStage.owns e) =
      s.calls.count (ImportStage.owns e) := by
    intro e hne
    have hnot : k.owns e = false := by
      by_contra hown
      exact hne (hself e (by simpa using hown))
    rw [Pool.count_spawn, hnot]
    rfl
  have htokens : ∀ key, (ImportSystem.mk vm' (s.calls.spawn k)).tokens key =
      s.tokens key + (k.claims s.vm.memProto key).toNat := by
    intro key
    simp only [ImportSystem.tokens, hlocal.memProto, hrxq, Pool.count_spawn, Nat.add_assoc]
  refine ⟨hheap, fun j m hm ↦ ?_, fun e ↦ ?_, fun key hpos ↦ ?_⟩
  · rcases Pool.get_spawn.mp hm with ⟨-, rfl⟩ | hm
    · exact hnew
    · exact (h.stages j m hm).of_local hlocal (h.unused hm).1 fun _ ↦ hfreed
  · by_cases hne : e = s.vm.nextDesc
    · subst hne
      rw [Pool.count_spawn, hzero, Nat.zero_add]
      exact Bool.toNat_le _
    · exact Nat.le_trans (Nat.le_of_eq (hcount e hne)) (h.owners e)
  · rw [htokens] at hpos ⊢
    cases hk : k.claims s.vm.memProto key with
    | true =>
        obtain ⟨hnone, hproto, hin, hkey, hinit, hnot⟩ := hclaims key hk
        refine ⟨by rw [hnone, Bool.toNat_true], hlocal.memProto ▸ hproto, _, hin, hkey, hinit, ?_⟩
        rw [Pool.count_spawn, hzero, hnot]
        rfl
    | false =>
        rw [hk, Bool.toNat_false, Nat.add_zero] at hpos
        obtain ⟨hone, hproto, e, he, hkey, hinit, hzero'⟩ := h.tokens key hpos
        have hne : e ≠ s.vm.nextDesc := Nat.ne_of_lt (h.heap.live e he).1
        refine ⟨by rw [hone, Bool.toNat_false], hlocal.memProto ▸ hproto, e,
          (hlocal.impWhse e hne).mpr he, ?_, ?_, (hcount e hne).trans hzero'⟩
        · rw [ImportVm.key, hlocal.desc e hne]
          exact hkey
        · rw [hlocal.desc e hne]
          exact hinit

/-- A key that no descriptor in the warehouse has is not granted to anyone. -/
theorem Inv.tokens_eq_zero (h : Inv s) {key : UInt32 × HabPchan}
    (hnone : ∀ e ∈ s.vm.impWhse, s.vm.key e ≠ key) : s.tokens key = 0 := by
  by_contra hne
  obtain ⟨-, -, e, he, hkey, -⟩ := h.tokens key (Nat.pos_of_ne_zero hne)
  exact hnone e he hkey

/-- The receive handler under the new protocol: an inserted descriptor brings the
one ack that grants its import. -/
theorem Inv.enqueued_new (h : Inv s) {msg : ExportMsg} {added : Bool}
    (hproto : s.vm.memProto vchan.pchan = true)
    (hadd : (s.vm.alloc (s.vm.receivedDesc vchan msg)).habExportEnqueue s.vm.nextDesc =
      (added, vm')) :
    Inv ⟨vm', s.calls.spawn (.queueing vchan (vm'.importAck s.vm.nextDesc added)
      s.vm.nextDesc)⟩ := by
  set d := s.vm.receivedDesc vchan msg with hd
  have hfresh : s.vm.freed s.vm.nextDesc = 0 := h.heap.fresh _ (Nat.le_refl _)
  have hout : s.vm.nextDesc ∉ s.vm.impWhse := fun he ↦ Nat.lt_irrefl _ (h.heap.live _ he).1
  have hlt : s.vm.nextDesc < (s.vm.alloc d).nextDesc := Nat.lt_succ_self _
  obtain ⟨hheap, hlocal, hdesc, hfreed, hnext, hrxq, hin, hnone⟩ :=
    (h.heap.alloc d).habExportEnqueue hlt hfresh hout hadd
  have hfreed' : vm'.freed s.vm.nextDesc = 0 := hfreed ▸ hfresh
  have hdesc' : vm'.desc s.vm.nextDesc = d := by
    rw [hdesc, ImportVm.desc_alloc]
  have howns : ∀ e, (ImportStage.queueing vchan (vm'.importAck s.vm.nextDesc added)
      s.vm.nextDesc).owns e = true → e = s.vm.nextDesc ∧ added = false := by
    intro e he
    simp only [ImportStage.owns, ImportVm.importAck, Bool.and_eq_true, Bool.not_eq_true',
      decide_eq_true_eq] at he
    exact ⟨he.2.symm, he.1⟩
  have hkey : (vm'.importAck s.vm.nextDesc added).key = (msg.exportId, vchan.pchan) := by
    rw [HabImportAck.key, ImportVm.importAck, hdesc', hd, ImportVm.receivedDesc, hproto]
    exact Prod.ext rfl (vcidPchan_habVcid vchan.pchan vchan.idr)
  refine h.spawn_alloc ((ImportVm.local_alloc s.vm d).trans hlocal) hheap hfreed' hrxq
    ⟨fun e he ↦ ?_, nofun, nofun⟩ (fun e he ↦ (howns e he).1) fun key hkey' ↦ ?_
  · obtain ⟨rfl, hadded⟩ := howns e he
    refine ⟨hnext ▸ hlt, hfreed', iff_of_false (fun he' ↦ ?_) nofun, trivial⟩
    rw [hin.mp he'] at hadded
    cases hadded
  · simp only [ImportStage.claims, HabImportAck.grants, hkey, Bool.and_eq_true,
      decide_eq_true_eq] at hkey'
    obtain ⟨hadded, rfl⟩ := hkey'
    have hadded : added = true := hadded
    refine ⟨h.tokens_eq_zero fun e he hsame ↦ ?_, hproto, hin.mpr hadded, ?_, ?_, ?_⟩
    · refine hnone hadded e he ?_
      rw [h.heap.key_alloc d he, hsame, ImportVm.key, ImportVm.desc_alloc]
      rfl
    · rw [ImportVm.key, hdesc']
      rfl
    · rw [hdesc']
      rfl
    · rw [hadded]
      rfl

/-- The receive handler under the legacy protocol. -/
theorem Inv.enqueued_legacy (h : Inv s) {msg : ExportMsg} {added : Bool}
    (hproto : s.vm.memProto vchan.pchan = false)
    (hadd : (s.vm.alloc (s.vm.receivedDesc vchan msg)).habExportEnqueue s.vm.nextDesc =
      (added, vm')) :
    Inv ⟨vm', s.calls.spawn (.exportAcking vchan s.vm.nextDesc added)⟩ := by
  set d := s.vm.receivedDesc vchan msg
  have hfresh : s.vm.freed s.vm.nextDesc = 0 := h.heap.fresh _ (Nat.le_refl _)
  have hout : s.vm.nextDesc ∉ s.vm.impWhse := fun he ↦ Nat.lt_irrefl _ (h.heap.live _ he).1
  have hlt : s.vm.nextDesc < (s.vm.alloc d).nextDesc := Nat.lt_succ_self _
  obtain ⟨hheap, hlocal, -, hfreed, hnext, hrxq, hin, -⟩ :=
    (h.heap.alloc d).habExportEnqueue hlt hfresh hout hadd
  have hlocal' := (ImportVm.local_alloc s.vm d).trans hlocal
  have hfreed' : vm'.freed s.vm.nextDesc = 0 := hfreed ▸ hfresh
  have howns : ∀ e, (ImportStage.exportAcking vchan s.vm.nextDesc added).owns e = true →
      e = s.vm.nextDesc ∧ added = false := by
    intro e he
    simp only [ImportStage.owns, Bool.and_eq_true, Bool.not_eq_true', decide_eq_true_eq] at he
    exact ⟨he.2.symm, he.1⟩
  refine h.spawn_alloc hlocal' hheap hfreed' hrxq ⟨fun e he ↦ ?_, fun e he ↦ ?_, ?_⟩
    (fun e he ↦ (howns e he).1) nofun
  · obtain ⟨rfl, hadded⟩ := howns e he
    refine ⟨hnext ▸ hlt, hfreed', iff_of_false (fun he' ↦ ?_) nofun, trivial⟩
    rw [hin.mp he'] at hadded
    cases hadded
  · simp only [ImportStage.acks, Bool.and_eq_true, decide_eq_true_eq] at he
    obtain ⟨-, rfl⟩ := he
    exact ⟨hnext ▸ hlt, hfreed'⟩
  · rintro _ _ _ ⟨⟩
    rw [hlocal'.memProto]
    exact hproto

theorem Inv.recvExport (h : Inv s) (msg : ExportMsg) (read allocDesc allocAck : Bool) :
    Inv (s.received vchan
      (s.vm.habReceiveExportDesc vchan msg read allocDesc allocAck)) := by
  unfold ImportVm.habReceiveExportDesc
  split
  · exact h
  · set d := s.vm.receivedDesc vchan msg with hd
    have hfresh : s.vm.freed s.vm.nextDesc = 0 := h.heap.fresh _ (Nat.le_refl _)
    have hout : s.vm.nextDesc ∉ s.vm.impWhse :=
      fun he ↦ Nat.lt_irrefl _ (h.heap.live _ he).1
    have hheap := h.heap.alloc d
    have hlocal := ImportVm.local_alloc s.vm d
    have hlt : s.vm.nextDesc < (s.vm.alloc d).nextDesc := Nat.lt_succ_self _
    simp only
    split
    · -- a payload that cannot be read is freed at once
      refine h.vm_alloc ?_ (hheap.kfree hlt hfresh hout) rfl
      refine ⟨rfl, Nat.le_succ _, hlocal.desc, fun e hne ↦ ?_, fun _ _ ↦ Iff.rfl⟩
      exact Function.update_of_ne hne _ _
    · split
      · -- nobody else gets to see a malformed descriptor
        simp only [ImportSystem.received]
        split
        · have hself : ∀ e, (ImportStage.rejected vchan s.vm.nextDesc).owns e = true →
              e = s.vm.nextDesc := by
            intro e he
            simpa [ImportStage.owns, eq_comm] using he
          exact h.spawn_alloc hlocal hheap hfresh rfl (ImportStage.holds_of_private hlt hfresh hout
            hself (fun _ ↦ rfl) (fun _ ↦ trivial) (fun _ ↦ rfl) nofun) hself nofun
        · have hself : ∀ e, (ImportStage.freeing vchan s.vm.nextDesc).owns e = true →
              e = s.vm.nextDesc := by
            intro e he
            simpa [ImportStage.owns, eq_comm] using he
          exact h.spawn_alloc hlocal hheap hfresh rfl (ImportStage.holds_of_private hlt hfresh hout
            hself (fun _ ↦ rfl) (fun _ ↦ trivial) (fun _ ↦ rfl) nofun) hself nofun
      · simp only [ImportSystem.received]
        cases hadd : (s.vm.alloc d).habExportEnqueue s.vm.nextDesc with
        | mk added vm' =>
            obtain ⟨-, hlocal', -⟩ := hheap.habExportEnqueue hlt hfresh hout hadd
            have hsame : vm'.memProto = s.vm.memProto := hlocal'.memProto
            simp only [hsame]
            split
            · rename_i hproto
              exact h.enqueued_new hproto hadd
            · rename_i hproto
              exact h.enqueued_legacy (by simpa using hproto) hadd

theorem Inv.step {s s' : ImportSystem} (h : Inv s) (act : ImportAct) (hacked : s.Acked act)
    (hstep : s.step act = some s') : Inv s' := by
  cases act with
  | «import» v param sent =>
      simp only [ImportSystem.step] at hstep
      split at hstep
      · cases hstep
        exact h
      · split at hstep
        · cases hstep
          exact h
        · split at hstep
          · split at hstep
            · cases hstep
              exact h.spawn_plain (fun _ ↦ rfl) (fun _ ↦ rfl) nofun fun _ ↦ rfl
            · cases hstep
              exact h
          · rename_i hproto
            cases hstep
            refine h.spawn_plain (fun _ ↦ rfl) (fun _ ↦ rfl) nofun fun key ↦ ?_
            simp [ImportStage.claims, hproto]
  | unimport v exportId =>
      simp only [ImportSystem.step, h.heap.touch_impWhse_eq] at hstep
      split at hstep
      · cases hstep
        exact h
      · split at hstep
        · cases hstep
          exact h
        · rename_i hfind
          split at hstep
          · rename_i hstate
            cases hstep
            exact h.unimport (ImportVm.habRbExpFind_eq_some hfind).1 hstate
          · cases hstep
            exact h
  | advance i ok =>
      obtain ⟨stage, hget, hnext⟩ := Option.bind_eq_some_iff.mp hstep
      cases hnext
      exact h.advance hget hacked
  | recvExport v msg read allocDesc allocAck =>
      obtain ⟨vchan, -, hnext⟩ := Option.bind_eq_some_iff.mp hstep
      cases hnext
      exact h.recvExport msg read allocDesc allocAck
  | recvImportAckFail v exportId alloc =>
      obtain ⟨vchan, -, hnext⟩ := Option.bind_eq_some_iff.mp hstep
      cases hnext
      exact h.vm_same (ImportVm.same_queueFail vchan exportId alloc)
        fun key ↦ Nat.le_of_eq (ImportVm.countP_queueFail vchan exportId alloc key)
  | recvClose v =>
      obtain ⟨vchan, -, hnext⟩ := Option.bind_eq_some_iff.mp hstep
      cases hnext
      exact h.vm_same ⟨rfl, rfl, rfl, rfl, rfl, rfl, rfl⟩ fun _ ↦ Nat.le_refl _
  | openVchan vchan =>
      simp only [ImportSystem.step] at hstep
      split at hstep
      · cases hstep
        exact h.vm_same ⟨rfl, rfl, rfl, rfl, rfl, rfl, rfl⟩ fun _ ↦ Nat.le_refl _
      · cases hstep
  | closeVchan v =>
      cases hstep
      exact h.vm_same ⟨rfl, rfl, rfl, rfl, rfl, rfl, rfl⟩ fun _ ↦ Nat.le_refl _
  | freeVchan v =>
      simp only [ImportSystem.step] at hstep
      split at hstep
      · cases hstep
        exact h.vm_same ⟨rfl, rfl, rfl, rfl, rfl, rfl, rfl⟩ fun _ ↦ Nat.le_refl _
      · cases hstep

/-! ## The protocol does not change -/

theorem memProto_run (vm : ImportVm) (ok : Bool) (stage : ImportStage) :
    (stage.run vm ok).1.memProto = vm.memProto := by
  cases stage with
  | rejected vchan e => exact (ImportVm.same_queueFail _ _ _).memProto
  | waiting vchan param => exact (vm.same_habImportAckFind _ _).memProto
  | finding vchan param =>
      simp only [ImportStage.run]
      split
      · rfl
      · split <;> rfl
  | _ => rfl

theorem memProto_received (vm : ImportVm) (vchan : ImportVchan) (msg : ExportMsg)
    (read allocDesc allocAck : Bool) :
    (vm.habReceiveExportDesc vchan msg read allocDesc allocAck).2.memProto = vm.memProto := by
  unfold ImportVm.habReceiveExportDesc
  split
  · rfl
  · simp only
    split
    · rfl
    · split
      · rfl
      · simp only [ImportVm.habExportEnqueue]
        split <;> rfl

theorem memProto_step {s s' : ImportSystem} {act : ImportAct} (hstep : s.step act = some s') :
    s'.vm.memProto = s.vm.memProto := by
  cases act with
  | «import» v param sent =>
      simp only [ImportSystem.step] at hstep
      split at hstep
      · cases hstep
        rfl
      · split at hstep
        · cases hstep
          rfl
        · split at hstep
          · split at hstep <;> cases hstep <;> rfl
          · cases hstep
            rfl
  | unimport v exportId =>
      simp only [ImportSystem.step] at hstep
      split at hstep
      · cases hstep
        rfl
      · split at hstep
        · cases hstep
          rfl
        · split at hstep <;> cases hstep <;> rfl
  | advance i ok =>
      obtain ⟨stage, -, hnext⟩ := Option.bind_eq_some_iff.mp hstep
      cases hnext
      exact memProto_run _ _ _
  | recvExport v msg read allocDesc allocAck =>
      obtain ⟨vchan, -, hnext⟩ := Option.bind_eq_some_iff.mp hstep
      cases hnext
      rw [← memProto_received s.vm vchan msg read allocDesc allocAck]
      unfold ImportSystem.received
      split <;> rename_i heq <;> rw [heq]
  | recvImportAckFail v exportId alloc =>
      obtain ⟨vchan, -, hnext⟩ := Option.bind_eq_some_iff.mp hstep
      cases hnext
      exact (ImportVm.same_queueFail _ _ _).memProto
  | recvClose v =>
      obtain ⟨vchan, -, hnext⟩ := Option.bind_eq_some_iff.mp hstep
      cases hnext
      rfl
  | openVchan vchan =>
      simp only [ImportSystem.step] at hstep
      split at hstep <;> cases hstep
      rfl
  | closeVchan v =>
      cases hstep
      rfl
  | freeVchan v =>
      simp only [ImportSystem.step] at hstep
      split at hstep <;> cases hstep
      rfl

/-! ## Runs -/

/-- What the importer must not do, and what its total must be. -/
structure Safe (s : ImportSystem) : Prop where
  noUseAfterFree : s.vm.useAfterFree = false
  freedOnce : ∀ e, s.vm.freed e ≤ 1
  exclusive : ∀ i j stage stage' e, s.calls.get i = some stage → s.calls.get j = some stage' →
    stage.worksOn e = true → stage'.worksOn e = true → i = j
  total : s.vm.importTotal = s.vm.impWhse.length

theorem Inv.safe (h : Inv s) : s.Safe := by
  refine ⟨h.heap.noUse, h.heap.once, fun i j stage stage' e hi hj hw hw' ↦ ?_, h.heap.total⟩
  exact Pool.eq_of_count_le_one (h.owners e) hi hj (ImportStage.owns_of_worksOn hw)
    (ImportStage.owns_of_worksOn hw')

/-- The new protocol sends no EXPORT_ACK. -/
theorem Inv.acked (h : Inv s) (hnew : s.vm.memProto = fun _ ↦ true) (act : ImportAct) :
    s.Acked act := by
  cases act with
  | advance i ok =>
      intro _ e _ j k hk
      cases k with
      | exportAcking vchan e' added =>
          have hlegacy := (h.stages j _ hk).legacy vchan e' added rfl
          rw [hnew] at hlegacy
          cases hlegacy
      | _ => rfl
  | _ => trivial

/-- Under the new protocol every run is safe. -/
theorem safe_of_exec (acts : List ImportAct) {s : ImportSystem}
    (hrun : exec step (start fun _ ↦ true) acts = some s) : s.Safe := by
  have hkeep : ∀ (s : ImportSystem) act t, Inv s ∧ s.vm.memProto = (fun _ ↦ true) →
      s.step act = some t → Inv t ∧ t.vm.memProto = fun _ ↦ true :=
    fun s act t h hstep ↦
      ⟨h.1.step act (h.1.acked h.2 act) hstep, (memProto_step hstep).trans h.2⟩
  exact (invariant_of_exec hkeep ⟨inv_start _, rfl⟩ hrun).1.safe

/-- An import that waits for its IMPORT_ACK, takes it and maps the buffer. -/
def importAcked : List ImportAct :=
  [.openVchan ⟨0, ⟨⟨101, by decide⟩, ⟨2, by decide⟩⟩, ⟨1, by decide⟩, 1⟩,
    .import 0 ⟨7, 4096⟩ true, .recvExport 0 ⟨113, 7, 1, 1, 1, 1⟩ true true true, .advance 1 true,
    .advance 0 true, .advance 0 true, .advance 0 true, .advance 0 true, .advance 0 true]

theorem safe_of_exec_imported :
    ∃ s, exec step (start fun _ ↦ true) importAcked = some s ∧ s.Safe ∧
      (s.vm.desc 0).importState = .imported :=
  ⟨_, rfl, safe_of_exec importAcked rfl, by decide⟩

/-- Under the legacy protocol every run is that frees no descriptor before its
EXPORT_ACK is sent. -/
theorem legacy_of_meets (acts : List ImportAct) {s : ImportSystem}
    (hacked : Meets step Acked (start fun _ ↦ false) acts)
    (hrun : exec step (start fun _ ↦ false) acts = some s) :
    s.vm.useAfterFree = false ∧ ∀ e, s.vm.freed e ≤ 1 := by
  have hkeep : ∀ (s : ImportSystem) act t, Inv s → s.Acked act → s.step act = some t → Inv t :=
    fun s act t h hact hstep ↦ h.step act hact hstep
  have hsafe := (invariant_of_meets hkeep (inv_start _) hacked hrun).safe
  exact ⟨hsafe.noUseAfterFree, hsafe.freedOnce⟩

theorem acks_eq_false {calls : Pool ImportStage} {e j : ℕ} {k : ImportStage}
    (hall : calls.all (fun k ↦ !k.acks e) = true) (hk : calls.get j = some k) :
    k.acks e = false := by
  have hnot := Pool.all_eq_true.mp hall j k hk
  simpa using hnot

/-- A buffer of one page is exported on a vchan, imported there and given back;
`first` says whether the receive handler sends its EXPORT_ACK before that. -/
def importAndGiveBack (first : Bool) : List ImportAct :=
  [.openVchan ⟨0, ⟨⟨101, by decide⟩, ⟨2, by decide⟩⟩, ⟨1, by decide⟩, 1⟩,
    .recvExport 0 ⟨113, 7, 1, 1, 1, 1⟩ true true true] ++
    (if first then [.advance 0 true] else []) ++
    [.import 0 ⟨7, 4096⟩ true, .advance 1 true, .advance 1 true, .advance 1 true,
      .unimport 0 7, .advance 2 true, .advance 2 true, .advance 2 true] ++
    (if first then [] else [.advance 0 true])

theorem legacy_of_meets_ack_first :
    ∃ s, exec step (start fun _ ↦ false) (importAndGiveBack true) = some s ∧
      s.vm.useAfterFree = false ∧ ∀ e, s.vm.freed e ≤ 1 := by
  refine ⟨_, rfl, legacy_of_meets (importAndGiveBack true) ?_ rfl⟩
  refine ⟨trivial, trivial, ?_, trivial, ?_, ?_, ?_, trivial, ?_, ?_, ?_, trivial⟩
  · rintro vchan e ⟨⟩
  · rintro vchan e ⟨⟩
  · rintro vchan e ⟨⟩
  · rintro vchan e ⟨⟩
  · rintro vchan e ⟨⟩
  · rintro vchan e ⟨⟩
  · rintro vchan e ⟨⟩ j k hk
    exact acks_eq_false (by decide) hk

/-- The EXPORT_ACK is sent from a descriptor that has been freed. -/
theorem use_after_free_ack_last :
    ∃ s, exec step (start fun _ ↦ false) (importAndGiveBack false) = some s ∧
      s.vm.useAfterFree = true :=
  ⟨_, rfl, by decide⟩

end ImportSystem

end Hab
