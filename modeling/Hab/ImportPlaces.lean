import Hab.ImportTrace

/-!
# Where the answers to the imports are

An answer is with the peer, with the handler of its message, or in the queue of the acks,
and it is the answer of one request.  A descriptor is there for the request whose answer
brought it.
-/

namespace Hab

namespace ImportStage

/-- The call waits for an answer, or handles one. -/
def listens : ImportStage → Bool
  | .waiting _ _ | .queueing _ _ _ | .rejected _ _ => true
  | _ => false

variable {stage : ImportStage}

theorem listens_of_answering (h : stage.answering = true) : stage.listens = true := by
  cases stage with
  | queueing | rejected => rfl
  | _ => cases h

theorem listens_of_waitsFor {ack : HabImportAck} (h : stage.waitsFor ack = true) :
    stage.listens = true := by
  cases stage with
  | waiting => rfl
  | _ => cases h

theorem claims_of_seeks {key : UInt32 × HabPchan} (h : stage.seeks key = true) :
    stage.claims (fun _ ↦ true) key = true := by
  cases stage with
  | acked => exact h
  | finding => exact h
  | _ => cases h

end ImportStage

namespace ImportTrace

variable {s s' : ImportTrace} {i k : ℕ} {key : UInt32 × HabPchan} {stage : ImportStage}

/-- Where the answer to a request may be. -/
inductive Place where
  | peer
  | handler (i : ℕ)
  | queue

def At (s : ImportTrace) (k : ℕ) : Place → Prop
  | .peer => s.outstanding k = true
  | .handler i =>
      s.answers i = k ∧ ∃ stage, s.sys.calls.get i = some stage ∧ stage.answering = true
  | .queue => ∃ x, (x, k) ∈ s.impRxq

/-- The answer to a request lets its call look for the descriptor of this key. -/
inductive Grants (s : ImportTrace) (key : UInt32 × HabPchan) (k : ℕ) : Prop where
  | handler (i : ℕ) (vchan : ImportVchan) (ack : HabImportAck) (e : ℕ)
      (hget : s.sys.calls.get i = some (.queueing vchan ack e)) (hk : s.answers i = k)
      (hgrants : ack.grants key = true)
  | queued (x : HabImportAckRecvd) (hx : (x, k) ∈ s.impRxq) (hgrants : x.ack.grants key = true)
  | call (stage : ImportStage) (hget : s.sys.calls.get k = some stage)
      (hseeks : stage.seeks key = true)

theorem Grants.mono (hg : s.Grants key k)
    (hcalls : ∀ j m, s.sys.calls.get j = some m →
      s'.sys.calls.get j = some m ∧ s'.answers j = s.answers j)
    (hqueue : ∀ entry ∈ s.impRxq, entry ∈ s'.impRxq) : s'.Grants key k := by
  cases hg with
  | handler j vchan ack e hj hk hack =>
      exact .handler j vchan ack e (hcalls j _ hj).1 ((hcalls j _ hj).2.trans hk) hack
  | queued x hx hack => exact .queued x (hqueue _ hx) hack
  | call m hm hseeks => exact .call m (hcalls k m hm).1 hseeks

theorem awaits_eq_true {ack : HabImportAck} : s.awaits k ack = true ↔
    ∃ stage, s.sys.calls.get k = some stage ∧ stage.waitsFor ack = true := by
  rw [awaits, Option.any_eq_true]

/-- Two states whose waiting and handling calls are the same. -/
def SameListeners (s s' : ImportTrace) : Prop :=
  ∀ j m, m.listens = true → (s'.sys.calls.get j = some m ↔ s.sys.calls.get j = some m)

theorem SameListeners.awaits (h : s.SameListeners s') {ack : HabImportAck}
    (hawaits : s.awaits k ack = true) : s'.awaits k ack = true := by
  obtain ⟨m, hm, hwaits⟩ := awaits_eq_true.mp hawaits
  exact awaits_eq_true.mpr ⟨m, (h k m (ImportStage.listens_of_waitsFor hwaits)).mpr hm, hwaits⟩

theorem SameListeners.at (h : s.SameListeners s') (hpeer : ∀ k, s'.outstanding k = true →
    s.outstanding k = true) (hanswers : s'.answers = s.answers) (hrxq : s'.impRxq = s.impRxq)
    {p : Place} (hp : s'.At k p) : s.At k p := by
  cases p with
  | peer => exact hpeer k hp
  | handler i =>
      obtain ⟨hk, m, hm, hanswering⟩ := hp
      rw [hanswers] at hk
      exact ⟨hk, m, (h i m (ImportStage.listens_of_answering hanswering)).mp hm, hanswering⟩
  | queue =>
      obtain ⟨x, hx⟩ := hp
      rw [hrxq] at hx
      exact ⟨x, hx⟩

structure Inv (s : ImportTrace) : Prop where
  sys : s.sys.Inv
  memProto : s.sys.vm.memProto = fun _ ↦ true
  queue : s.impRxq.map Prod.fst = s.sys.vm.impRxq
  /-- What is in the queue is waited for. -/
  awaited : ∀ x k, (x, k) ∈ s.impRxq → s.awaits k x.ack = true
  once : (s.impRxq.map Prod.snd).Nodup
  place : ∀ k p q, s.At k p → s.At k q → p = q
  known : ∀ k p, s.At k p → k < s.sys.calls.next
  waits : ∀ i j vchan param stage, s.sys.calls.get i = some (.waiting vchan param) →
    s.sys.calls.get j = some stage →
      stage.waitsFor (expectedAck vchan param.exportId) = true → j = i
  own : ∀ entry ∈ s.taken, entry.1 = entry.2
  granted : ∀ key k, s.Grants key k → ∀ e ∈ s.sys.vm.impWhse, s.sys.vm.key e = key →
    s.producer e = k
  /-- A descriptor is there for a call that will find it, has found it or has succeeded. -/
  kept : ∀ e ∈ s.sys.vm.impWhse, s.Grants (s.sys.vm.key e) (s.producer e) ∨
    (∃ stage, s.sys.calls.get (s.producer e) = some stage ∧ stage.worksOn e = true) ∨
      s.succeeded (s.producer e) = true
  imported : ∀ e ∈ s.sys.vm.impWhse, (s.sys.vm.desc e).importState = .imported ∨
    (s.sys.vm.desc e).importState = .unimporting → s.succeeded (s.producer e) = true
  removed : ∀ i vchan e, s.sys.calls.get i = some (.removing vchan e) →
    s.unimport (s.producer e) = true ∨ s.succeeded (s.producer e) = true
  acked : ∀ k, s.importAck k = true → s.unimport k = true ∨ s.succeeded k = true ∨
    (∃ i vchan e, s.sys.calls.get i = some (.rejected vchan e) ∧ s.answers i = k) ∨
      ∃ e ∈ s.sys.vm.impWhse, s.producer e = k

theorem Inv.ne_of_at (h : s.Inv) {j : ℕ} {p q : Place} (hp : s.At j p) (hq : s.At k q)
    (hne : p ≠ q) : j ≠ k := by
  rintro rfl
  exact hne (h.place j p q hp hq)

/-- One answer moves to another place. -/
theorem Inv.place_moved (h : s.Inv) {goal : Place}
    (hat : ∀ {j p}, s'.At j p → j ≠ k ∧ s.At j p ∨ j = k ∧ p = goal) (j : ℕ) (p q : Place)
    (hp : s'.At j p) (hq : s'.At j q) : p = q := by
  rcases hat hp with ⟨hj, hp⟩ | ⟨hj, rfl⟩
  · rcases hat hq with ⟨-, hq⟩ | ⟨hj', -⟩
    · exact h.place j p q hp hq
    · exact absurd hj' hj
  · rcases hat hq with ⟨hj', -⟩ | ⟨-, rfl⟩
    · exact absurd hj hj'
    · rfl

theorem Inv.known_moved (h : s.Inv) {source goal : Place} (hsource : s.At k source)
    (hat : ∀ {j p}, s'.At j p → j ≠ k ∧ s.At j p ∨ j = k ∧ p = goal)
    (hnext : s.sys.calls.next ≤ s'.sys.calls.next) (j : ℕ) (p : Place) (hp : s'.At j p) :
    j < s'.sys.calls.next := by
  rcases hat hp with ⟨-, hp⟩ | ⟨rfl, -⟩
  · exact Nat.lt_of_lt_of_le (h.known j p hp) hnext
  · exact Nat.lt_of_lt_of_le (h.known _ _ hsource) hnext

theorem not_at_start {p : Place} : ¬ start.At k p := by
  intro hp
  cases p with
  | peer => cases hp
  | handler i =>
      obtain ⟨-, _, hget, -⟩ := hp
      cases hget
  | queue =>
      obtain ⟨_, hx⟩ := hp
      cases hx

theorem inv_start : start.Inv where
  sys := ImportSystem.inv_start _
  memProto := rfl
  queue := rfl
  awaited := by
    intro x k h
    cases h
  once := List.nodup_nil
  place := by
    intro k p q hp
    exact absurd hp not_at_start
  known := by
    intro k p hp
    exact absurd hp not_at_start
  waits := by
    intro i j vchan param stage h
    cases h
  own := by
    intro entry h
    cases h
  granted := by
    intro key k _ e h
    cases h
  kept := by
    intro e h
    cases h
  imported := by
    intro e h
    cases h
  removed := by
    intro i vchan e h
    cases h
  acked := by
    intro k h
    cases h

/-- What has been settled for a call that failed is undone. -/
theorem Inv.leavesNothing (h : s.Inv) : s.LeavesNothing where
  own := h.own
  queue := h.queue
  undone := by
    intro k hk
    have hnone : ∀ {stage}, s.sys.calls.get k ≠ some stage := by
      intro stage hget
      rw [hk.returned] at hget
      cases hget
    have hrxq : ∀ x, (x, k) ∉ s.impRxq := by
      intro x hx
      have hawaits := h.awaited x k hx
      rw [awaits, hk.returned] at hawaits
      cases hawaits
    have hwhse : ∀ e ∈ s.sys.vm.impWhse, s.producer e ≠ k := by
      rintro e he rfl
      rcases h.kept e he with hgrants | ⟨stage, hget, -⟩ | hsucceeded
      · cases hgrants with
        | handler i vchan ack e' hget hanswers =>
            exact hk.handled i _ hget rfl hanswers
        | queued x hx => exact hrxq x hx
        | call stage hget => exact hnone hget
      · exact hnone hget
      · rw [hk.failed] at hsucceeded
        cases hsucceeded
    refine ⟨hwhse, ?_, ?_⟩
    · rintro ⟨x, k⟩ hx rfl
      exact hrxq x hx
    · intro hack
      rcases h.acked k hack with hunimport | hsucceeded | ⟨i, vchan, e, hget, hanswers⟩ | hin
      · exact hunimport
      · rw [hk.failed] at hsucceeded
        cases hsucceeded
      · exact absurd hanswers (hk.handled i _ hget rfl)
      · obtain ⟨e, he, hproducer⟩ := hin
        exact absurd hproducer (hwhse e he)

/-- A request whose answer grants its key has the one token for it. -/
theorem Inv.tokens_pos (h : s.Inv) (hgrants : s.Grants key k) : 0 < s.sys.tokens key := by
  cases hgrants with
  | handler i vchan ack e hget _ hgrants =>
      exact Nat.add_pos_right _ (Pool.count_pos hget hgrants)
  | queued x hx hgrants =>
      refine Nat.add_pos_left (List.countP_pos_iff.mpr ⟨x, ?_, hgrants⟩) _
      rw [← h.queue]
      exact List.mem_map.mpr ⟨(x, k), hx, rfl⟩
  | call stage hget hseeks =>
      refine Nat.add_pos_right _ (Pool.count_pos hget ?_)
      rw [h.memProto]
      exact ImportStage.claims_of_seeks hseeks

/-- Its descriptor waits in the warehouse, and no call works on it. -/
theorem Inv.exists_of_grants (h : s.Inv) (hgrants : s.Grants key k) :
    ∃ e ∈ s.sys.vm.impWhse, s.sys.vm.key e = key ∧ s.producer e = k ∧
      (s.sys.vm.desc e).importState = .init ∧ s.sys.calls.count (ImportStage.owns e) = 0 := by
  obtain ⟨-, -, e, he, hkey, hinit, hfree⟩ := h.sys.tokens key (h.tokens_pos hgrants)
  exact ⟨e, he, hkey, h.granted key k hgrants e he hkey, hinit, hfree⟩

/-- A descriptor that a call works on is there for this call, or its import has
succeeded. -/
theorem Inv.producer_of_worksOn (h : s.Inv) {e : ℕ} (he : e ∈ s.sys.vm.impWhse)
    (hget : s.sys.calls.get i = some stage) (hworks : stage.worksOn e = true) :
    s.producer e = i ∨ s.succeeded (s.producer e) = true := by
  have howns := ImportStage.owns_of_worksOn hworks
  rcases h.kept e he with hgrants | ⟨stage', hget', hworks'⟩ | hsucceeded
  · obtain ⟨e', he', hkey, -, -, hfree⟩ := h.exists_of_grants hgrants
    rw [h.sys.heap.keys e' he' e he hkey] at hfree
    rw [Pool.eq_false_of_count_eq_zero hfree hget] at howns
    cases howns
  · exact .inl (Pool.eq_of_count_le_one (h.sys.owners e) hget' hget
      (ImportStage.owns_of_worksOn hworks') howns)
  · exact .inr hsucceeded

/-! ## What a step keeps -/

/-- No call has started to wait. -/
theorem Inv.waits_of_old (h : s.Inv)
    (hold : ∀ j vchan param, s'.sys.calls.get j = some (.waiting vchan param) →
      s.sys.calls.get j = some (.waiting vchan param))
    (i j : ℕ) (vchan : ImportVchan) (param : HabImport) (stage : ImportStage)
    (hi : s'.sys.calls.get i = some (.waiting vchan param))
    (hj : s'.sys.calls.get j = some stage)
    (hwaits : stage.waitsFor (expectedAck vchan param.exportId) = true) : j = i := by
  cases stage with
  | waiting vchan' param' =>
      exact h.waits i j vchan param _ (hold i vchan param hi) (hold j vchan' param' hj) hwaits
  | _ => cases hwaits

/-- No answer lets a call look for another descriptor. -/
theorem Inv.granted_of_old (h : s.Inv) (hgrants : ∀ {key k}, s'.Grants key k → s.Grants key k)
    (hwhse : ∀ e ∈ s'.sys.vm.impWhse, e ∈ s.sys.vm.impWhse)
    (hkey : ∀ e, s'.sys.vm.key e = s.sys.vm.key e) (hproducer : s'.producer = s.producer)
    (key : UInt32 × HabPchan) (k : ℕ) (hg : s'.Grants key k) (e : ℕ)
    (he : e ∈ s'.sys.vm.impWhse) (hek : s'.sys.vm.key e = key) : s'.producer e = k := by
  rw [hproducer]
  exact h.granted key k (hgrants hg) e (hwhse e he) ((hkey e).symm.trans hek)

/-- What an IMPORT_ACK brought is still there, or has been given back. -/
theorem Inv.acked_of_kept (h : s.Inv)
    (hunimport : ∀ k, s.unimport k = true → s'.unimport k = true)
    (hsucceeded : ∀ k, s.succeeded k = true → s'.succeeded k = true)
    (hrejected : ∀ i vchan e, s.sys.calls.get i = some (.rejected vchan e) →
      s'.unimport (s.answers i) = true ∨
        s'.sys.calls.get i = some (.rejected vchan e) ∧ s'.answers i = s.answers i)
    (hwhse : ∀ e ∈ s.sys.vm.impWhse,
      e ∈ s'.sys.vm.impWhse ∧ s'.producer e = s.producer e ∨
        s'.unimport (s.producer e) = true ∨ s'.succeeded (s.producer e) = true)
    (hack : s.importAck k = true) :
    s'.unimport k = true ∨ s'.succeeded k = true ∨
      (∃ i vchan e, s'.sys.calls.get i = some (.rejected vchan e) ∧ s'.answers i = k) ∨
        ∃ e ∈ s'.sys.vm.impWhse, s'.producer e = k := by
  rcases h.acked k hack with hdone | hdone | ⟨i, vchan, e, hi, rfl⟩ | ⟨e, he, rfl⟩
  · exact .inl (hunimport k hdone)
  · exact .inr (.inl (hsucceeded k hdone))
  · rcases hrejected i vchan e hi with hdone | ⟨hi', hanswers⟩
    · exact .inl hdone
    · exact .inr (.inr (.inl ⟨i, vchan, e, hi', hanswers⟩))
  · rcases hwhse e he with ⟨he', hproducer⟩ | hdone | hdone
    · exact .inr (.inr (.inr ⟨e, he', hproducer⟩))
    · exact .inl hdone
    · exact .inr (.inl hdone)

/-- An answer that was elsewhere comes into the queue once. -/
theorem Inv.once_concat (h : s.Inv) {p : Place} (hat : s.At k p) (hp : p ≠ .queue)
    (x : HabImportAckRecvd) : ((s.impRxq ++ [(x, k)]).map Prod.snd).Nodup := by
  rw [List.map_append]
  refine List.nodup_append.mpr ⟨h.once, List.nodup_singleton _, ?_⟩
  intro j hj j' hj' heq
  obtain ⟨⟨y, j⟩, hy, rfl⟩ := List.mem_map.mp hj
  obtain rfl : j' = k := List.mem_singleton.mp hj'
  obtain rfl : j = j' := heq
  have hqueue : s.At j .queue := ⟨y, hy⟩
  exact hp (h.place _ _ _ hat hqueue)

end ImportTrace

end Hab
