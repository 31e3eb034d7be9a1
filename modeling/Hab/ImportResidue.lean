import Hab.ImportQueue

/-!
# What a failed import leaves behind

The run theorem says when a `hab_mem_import` that fails leaves neither a descriptor nor
an ack behind and has every IMPORT_ACK taken back; the last part is a run in which the
answer comes after the time is up.
-/

namespace Hab

open Runs

namespace ImportTrace

variable {s s' : ImportTrace} {i k : ℕ} {key : UInt32 × HabPchan} {stage : ImportStage}

/-! ## Steps of a call -/

/-- Every step of a call under the condition keeps the invariant. -/
theorem Inv.advance (h : s.Inv) {ok sent : Bool} (hget : s.sys.calls.get i = some stage)
    (htimely : s.timelyAdvance i ok sent stage = true) :
    Inv { s.noteAdvance i ok sent stage with sys := s.advanced i ok stage } := by
  cases stage with
  | queueing vchan ack e => exact h.advance_queueing hget htimely
  | exportAcking vchan e added =>
      -- the new protocol sends no EXPORT_ACK
      have hlegacy := (h.sys.stages i _ hget).legacy vchan e added rfl
      rw [h.memProto] at hlegacy
      cases hlegacy
  | rejected vchan e =>
      simp only [timelyAdvance, Bool.and_eq_true, Bool.or_eq_true, Bool.not_eq_true'] at htimely
      refine h.advance_rejected hget htimely.1 fun hok ↦ ?_
      rcases htimely.2 with hno | hawaits
      · rw [hok] at hno
        cases hno
      · exact hawaits
  | waiting vchan param => exact h.advance_waiting hget htimely
  | acked vchan param scanImpWhse => exact h.advance_acked hget htimely
  | finding vchan param => exact h.advance_finding hget
  | importing vchan param e => exact h.advance_importing hget
  | mapped vchan e => exact h.advance_mapped hget
  | failed vchan e => exact h.advance_failed hget
  | unimporting vchan e => exact h.advance_unimporting hget
  | restoring vchan e => exact h.advance_restoring hget
  | undoing vchan e => exact h.advance_undoing hget htimely
  | removing vchan e => exact h.advance_removing hget
  | freeing vchan e => exact h.advance_freeing hget

/-! ## Other steps -/

/-- Nothing changes that a request depends on; its answer may be lost. -/
theorem Inv.same (h : s.Inv) {vm' : ImportVm} {outstanding : ℕ → Bool} {named : List ℕ}
    (hsys : ImportSystem.Inv { s.sys with vm := vm' }) (hsame : s.sys.vm.Same vm')
    (hrxq : vm'.impRxq = s.sys.vm.impRxq)
    (hpeer : ∀ k, outstanding k = true → s.outstanding k = true) :
    Inv { s with
      sys := { s.sys with vm := vm' }
      outstanding := outstanding
      named := named } := by
  have hcalls : s.SameListeners { s with
      sys := { s.sys with vm := vm' }
      outstanding := outstanding
      named := named } := fun _ _ _ ↦ Iff.rfl
  have hkey : ∀ e, vm'.key e = s.sys.vm.key e := by
    intro e
    rw [ImportVm.key, ImportVm.key, hsame.desc]
  refine ⟨hsys, hsame.memProto.trans h.memProto, h.queue.trans hrxq.symm, h.awaited, h.once, ?_,
    ?_, h.waits, h.own, ?_, ?_, ?_, h.removed, ?_⟩
  · intro k p q hp hq
    exact h.place k p q (hcalls.at hpeer rfl rfl hp) (hcalls.at hpeer rfl rfl hq)
  · intro k p hp
    exact h.known k p (hcalls.at hpeer rfl rfl hp)
  · exact h.granted_of_old (fun hg ↦ hg.mono (fun _ _ hj ↦ ⟨hj, rfl⟩) fun _ hx ↦ hx)
      (fun _ he ↦ hsame.impWhse ▸ he) hkey rfl
  · intro e he
    refine (h.kept e (hsame.impWhse ▸ he)).imp_left fun hg ↦ ?_
    change Grants _ (vm'.key e) _
    rw [hkey]
    exact hg.mono (fun _ _ hj ↦ ⟨hj, rfl⟩) fun _ hx ↦ hx
  · intro e he hstate
    rw [hsame.desc] at hstate
    exact h.imported e (hsame.impWhse ▸ he) hstate
  · intro k
    exact h.acked_of_kept (fun _ ↦ id) (fun _ ↦ id) (fun _ _ _ hj ↦ .inr ⟨hj, rfl⟩)
      fun e he ↦ .inl ⟨hsame.impWhse ▸ he, rfl⟩

/-- A call that starts: it may be a request, which the peer can answer from now on. -/
structure Starts (s : ImportTrace) (vm' : ImportVm) (m : ImportStage) (outstanding : ℕ → Bool) :
    Prop where
  memProto : vm'.memProto = s.sys.vm.memProto
  impRxq : vm'.impRxq = s.sys.vm.impRxq
  impWhse : vm'.impWhse = s.sys.vm.impWhse
  key : ∀ e, vm'.key e = s.sys.vm.key e
  imported : ∀ e ∈ s.sys.vm.impWhse, (vm'.desc e).importState = .imported ∨
    (vm'.desc e).importState = .unimporting → s.succeeded (s.producer e) = true
  peer : ∀ k, outstanding k = true → s.outstanding k = true ∨ k = s.sys.calls.next
  answering : m.answering = false
  seeks : ∀ key, m.seeks key = false
  removing : ∀ vchan e, m ≠ .removing vchan e
  waits : ∀ vchan param, m = .waiting vchan param → ∀ j k, s.sys.calls.get j = some k →
    k.waitsFor (expectedAck vchan param.exportId) = false

/-- The call has started. -/
def spawn (s : ImportTrace) (vm' : ImportVm) (m : ImportStage)
    (request : ℕ → Option (ImportVchan × HabImport)) (outstanding : ℕ → Bool) : ImportTrace :=
  { s with
    sys := ⟨vm', s.sys.calls.spawn m⟩
    request := request
    outstanding := outstanding }

section Starts

variable {m : ImportStage} {vm' : ImportVm} {request : ℕ → Option (ImportVchan × HabImport)}
  {outstanding : ℕ → Bool}

theorem waitsFor_symm {vchan vchan' : ImportVchan} {param param' : HabImport}
    (h : (ImportStage.waiting vchan' param').waitsFor (expectedAck vchan param.exportId) = true) :
    (ImportStage.waiting vchan param).waitsFor (expectedAck vchan' param'.exportId) = true := by
  simp only [ImportStage.waitsFor, HabImportAck.answers, Bool.and_eq_true,
    decide_eq_true_eq] at h ⊢
  exact ⟨⟨h.1.1.symm, h.1.2.symm⟩, h.2.symm⟩

theorem Starts.at_of (hs : s.Starts vm' m outstanding) {p : Place}
    (hp : (s.spawn vm' m request outstanding).At k p) :
    s.At k p ∨ k = s.sys.calls.next ∧ p = .peer := by
  cases p with
  | peer => exact (hs.peer k hp).imp_right fun hk ↦ ⟨hk, rfl⟩
  | handler j =>
      obtain ⟨hk, stage, hj, hstage⟩ := hp
      rcases Pool.get_spawn.mp hj with ⟨-, rfl⟩ | hj
      · rw [hs.answering] at hstage
        cases hstage
      · exact .inl ⟨hk, stage, hj, hstage⟩
  | queue => exact .inl hp

theorem Starts.grants_of (hs : s.Starts vm' m outstanding)
    (hg : (s.spawn vm' m request outstanding).Grants key k) : s.Grants key k := by
  cases hg with
  | handler j vchan ack e hj hk hack =>
      rcases Pool.get_spawn.mp hj with ⟨-, rfl⟩ | hj
      · cases hs.answering
      · exact .handler j vchan ack e hj hk hack
  | queued x hx hack => exact .queued x hx hack
  | call stage hk hstage =>
      rcases Pool.get_spawn.mp hk with ⟨-, rfl⟩ | hk
      · rw [hs.seeks] at hstage
        cases hstage
      · exact .call stage hk hstage

/-- Two calls do not wait for one answer. -/
theorem Starts.waits_once (hs : s.Starts vm' m outstanding) (h : s.Inv) {j j' : ℕ}
    {vchan : ImportVchan} {param : HabImport}
    (hj : (s.sys.calls.spawn m).get j = some (.waiting vchan param))
    (hj' : (s.sys.calls.spawn m).get j' = some stage)
    (hw : stage.waitsFor (expectedAck vchan param.exportId) = true) : j' = j := by
  rcases Pool.get_spawn.mp hj with ⟨rfl, heq⟩ | hj
  · rcases Pool.get_spawn.mp hj' with ⟨rfl, -⟩ | hj'
    · rfl
    · rw [hs.waits vchan param heq.symm j' stage hj'] at hw
      cases hw
  · rcases Pool.get_spawn.mp hj' with ⟨rfl, heq⟩ | hj'
    · cases stage with
      | waiting vchan' param' =>
          have hno := hs.waits vchan' param' heq.symm j _ hj
          rw [waitsFor_symm hw] at hno
          cases hno
      | _ => cases hw
    · exact h.waits j j' vchan param stage hj hj' hw

theorem Inv.started (h : s.Inv) (hsys : ImportSystem.Inv ⟨vm', s.sys.calls.spawn m⟩)
    (hs : s.Starts vm' m outstanding) : (s.spawn vm' m request outstanding).Inv := by
  have hother : ∀ {j k}, s.sys.calls.get j = some k → (s.sys.calls.spawn m).get j = some k :=
    fun hj ↦ Pool.get_spawn.mpr (.inr hj)
  have hnew : ∀ {p}, ¬ s.At s.sys.calls.next p := fun hp ↦ Nat.lt_irrefl _ (h.known _ _ hp)
  refine ⟨hsys, hs.memProto.trans h.memProto, h.queue.trans hs.impRxq.symm, ?_, h.once, ?_, ?_,
    fun j j' vchan param stage ↦ hs.waits_once h, h.own,
    h.granted_of_old hs.grants_of (fun _ he ↦ hs.impWhse ▸ he) hs.key rfl, ?_,
    fun e he ↦ hs.imported e (hs.impWhse ▸ he), ?_, ?_⟩
  · intro x k hx
    obtain ⟨stage, hk, hw⟩ := awaits_eq_true.mp (h.awaited x k hx)
    exact awaits_eq_true.mpr ⟨stage, hother hk, hw⟩
  · intro k p q hp hq
    rcases hs.at_of hp with hp | ⟨rfl, rfl⟩
    · rcases hs.at_of hq with hq | ⟨rfl, rfl⟩
      · exact h.place k p q hp hq
      · exact absurd hp hnew
    · rcases hs.at_of hq with hq | ⟨-, rfl⟩
      · exact absurd hq hnew
      · rfl
  · intro k p hp
    rcases hs.at_of hp with hp | ⟨rfl, -⟩
    · exact Nat.lt_succ_of_lt (h.known k p hp)
    · exact Nat.lt_succ_self _
  · intro e he
    change Grants _ (vm'.key e) _ ∨ _
    rw [hs.key]
    rcases h.kept e (hs.impWhse ▸ he) with hg | ⟨stage, hk, hworks⟩ | hdone
    · exact .inl (hg.mono (fun _ _ hj ↦ ⟨hother hj, rfl⟩) fun _ hx ↦ hx)
    · exact .inr (.inl ⟨stage, hother hk, hworks⟩)
    · exact .inr (.inr hdone)
  · intro j vchan e hj
    rcases Pool.get_spawn.mp hj with ⟨-, heq⟩ | hj
    · exact absurd heq.symm (hs.removing vchan e)
    · exact h.removed j vchan e hj
  · intro k
    exact h.acked_of_kept (fun _ ↦ id) (fun _ ↦ id) (fun _ _ _ hj ↦ .inr ⟨hother hj, rfl⟩)
      fun e he ↦ .inl ⟨hs.impWhse ▸ he, rfl⟩

end Starts

/-! ## Answers that arrive -/

section Arrival

variable {vchan : ImportVchan}

theorem outstanding_update {outstanding : ℕ → Bool} {j : ℕ} :
    Function.update outstanding k false j = true ↔ j ≠ k ∧ outstanding j = true := by
  by_cases hjk : j = k
  · subst hjk
    simp
  · simp [hjk]

/-- An IMPORT_ACK_FAIL goes into the queue at once. -/
theorem Inv.failArrived (h : s.Inv) (hpeer : s.outstanding k = true) {exportId : UInt32}
    (hawaits : s.awaits k (expectedAck vchan exportId) = true)
    (hsys : ImportSystem.Inv { s.sys with vm := s.sys.vm.queueFail vchan exportId true }) :
    Inv { s with
      outstanding := Function.update s.outstanding k false
      sys := { s.sys with vm := s.sys.vm.queueFail vchan exportId true }
      impRxq := s.impRxq ++ [(⟨expectedAck vchan exportId, 0⟩, k)] } := by
  have hsource : s.At k .peer := hpeer
  have hmem : ∀ {x j}, (x, j) ∈ [((⟨expectedAck vchan exportId, 0⟩ : HabImportAckRecvd), k)] →
      j = k ∧ x.ack = expectedAck vchan exportId := by
    intro x j hx
    cases List.mem_singleton.mp hx
    exact ⟨rfl, rfl⟩
  have hat : ∀ {j p}, At { s with
      outstanding := Function.update s.outstanding k false
      sys := { s.sys with vm := s.sys.vm.queueFail vchan exportId true }
      impRxq := s.impRxq ++ [(⟨expectedAck vchan exportId, 0⟩, k)] } j p →
        j ≠ k ∧ s.At j p ∨ j = k ∧ p = .queue := by
    intro j p hp
    have hplace : s.At j p → p ≠ .peer → j ≠ k ∧ s.At j p ∨ j = k ∧ p = .queue :=
      fun hold hne ↦ .inl ⟨h.ne_of_at hold hsource hne, hold⟩
    cases p with
    | peer => exact .inl (outstanding_update.mp hp)
    | handler i => exact hplace hp (by rintro ⟨⟩)
    | queue =>
        obtain ⟨x, hx⟩ := hp
        rcases List.mem_append.mp hx with hx | hx
        · exact hplace ⟨x, hx⟩ (by rintro ⟨⟩)
        · exact .inr ⟨(hmem hx).1, rfl⟩
  refine ⟨hsys, h.memProto, ?_, ?_, ?_, ?_, ?_, h.waits, h.own, ?_, ?_, h.imported, h.removed,
    h.acked⟩
  · rw [List.map_append, h.queue]
    rfl
  · intro x j hx
    rcases List.mem_append.mp hx with hx | hx
    · exact h.awaited x j hx
    · obtain ⟨rfl, hack⟩ := hmem hx
      rw [hack]
      exact hawaits
  · exact h.once_concat hsource (by rintro ⟨⟩) _
  · exact h.place_moved hat
  · exact h.known_moved hsource hat (Nat.le_refl _)
  · intro key j hg
    refine h.granted key j ?_
    cases hg with
    | handler i vchan' ack e hi hj hack => exact .handler i vchan' ack e hi hj hack
    | queued x hx hack =>
        rcases List.mem_append.mp hx with hx | hx
        · exact .queued x hx hack
        · rw [(hmem hx).2] at hack
          cases hack
    | call m hm hseeks => exact .call m hm hseeks
  · intro e he
    refine (h.kept e he).imp_left fun hg ↦ ?_
    exact hg.mono (fun _ _ hj ↦ ⟨hj, rfl⟩) fun _ hx ↦ List.mem_append_left _ hx

/-- The handling of an IMPORT_ACK starts, with a new descriptor that is in the warehouse or is
rejected. -/
structure Arrives (s : ImportTrace) (k : ℕ) (vm' : ImportVm) (m : ImportStage) : Prop where
  peer : s.outstanding k = true
  sys : ImportSystem.Inv ⟨vm', s.sys.calls.spawn m⟩
  others : s.sys.vm.Local s.sys.vm.nextDesc vm'
  impRxq : vm'.impRxq = s.sys.vm.impRxq
  answering : m.answering = true
  added : s.sys.vm.nextDesc ∈ vm'.impWhse →
    (vm'.desc s.sys.vm.nextDesc).importState = .init ∧ ∃ vchan ack e,
      m = .queueing vchan ack e ∧ ack.grants (vm'.key s.sys.vm.nextDesc) = true
  grants : ∀ vchan ack e key, m = .queueing vchan ack e → ack.grants key = true →
    s.sys.vm.nextDesc ∈ vm'.impWhse ∧ vm'.key s.sys.vm.nextDesc = key
  acked : s.sys.vm.nextDesc ∈ vm'.impWhse ∨ ∃ vchan e, m = .rejected vchan e

/-- The message that answers the request `k` has come. -/
def arrive (s : ImportTrace) (k : ℕ) (vm' : ImportVm) (m : ImportStage) : ImportTrace :=
  { s with
    outstanding := Function.update s.outstanding k false
    importAck := Function.update s.importAck k true
    sys := ⟨vm', s.sys.calls.spawn m⟩
    answers := Function.update s.answers s.sys.calls.next k
    producer := Function.update s.producer s.sys.vm.nextDesc k }

section Arrives

variable {vm' : ImportVm} {m : ImportStage}

theorem answers_arrive {j : ℕ} (hget : s.sys.calls.get j = some stage) :
    (s.arrive k vm' m).answers j = s.answers j :=
  Function.update_of_ne (Nat.ne_of_lt (Pool.lt_next hget)) _ _

theorem producer_arrive {e : ℕ} (he : e ≠ s.sys.vm.nextDesc) :
    (s.arrive k vm' m).producer e = s.producer e :=
  Function.update_of_ne he _ _

theorem Inv.ne_nextDesc (h : s.Inv) {e : ℕ} (he : e ∈ s.sys.vm.impWhse) :
    e ≠ s.sys.vm.nextDesc :=
  Nat.ne_of_lt (h.sys.heap.live e he).1

theorem Arrives.key_eq (ha : s.Arrives k vm' m) {e : ℕ} (he : e ≠ s.sys.vm.nextDesc) :
    vm'.key e = s.sys.vm.key e := by
  rw [ImportVm.key, ImportVm.key, ha.others.desc e he]

/-- The answer moves from the peer to its handler. -/
theorem Arrives.at_of (ha : s.Arrives k vm' m) (h : s.Inv) {j : ℕ} {p : Place}
    (hp : (s.arrive k vm' m).At j p) :
    j ≠ k ∧ s.At j p ∨ j = k ∧ p = .handler s.sys.calls.next := by
  have hsource : s.At k .peer := ha.peer
  have hplace : s.At j p → p ≠ .peer →
      j ≠ k ∧ s.At j p ∨ j = k ∧ p = .handler s.sys.calls.next :=
    fun hold hne ↦ .inl ⟨h.ne_of_at hold hsource hne, hold⟩
  cases p with
  | peer => exact .inl (outstanding_update.mp hp)
  | handler i =>
      obtain ⟨hk, stage, hi, hstage⟩ := hp
      rcases Pool.get_spawn.mp hi with ⟨rfl, -⟩ | hi
      · exact .inr ⟨hk.symm.trans (Function.update_self _ _ _), rfl⟩
      · rw [answers_arrive hi] at hk
        exact hplace ⟨hk, stage, hi, hstage⟩ (by rintro ⟨⟩)
  | queue => exact hplace hp (by rintro ⟨⟩)

/-- A key that was granted before has its descriptor already. -/
theorem Arrives.producer_of_grants (ha : s.Arrives k vm' m) (h : s.Inv) {j e : ℕ}
    (hg : s.Grants key j) (he : e ∈ vm'.impWhse) (hek : vm'.key e = key) :
    (s.arrive k vm' m).producer e = j := by
  obtain ⟨e', he', hkey', hproducer', -⟩ := h.exists_of_grants hg
  have hne := h.ne_nextDesc he'
  have hin' : e' ∈ vm'.impWhse := (ha.others.impWhse e' hne).mpr he'
  obtain rfl := ha.sys.heap.keys e he e' hin' (hek.trans ((ha.key_eq hne).trans hkey').symm)
  exact (producer_arrive hne).trans hproducer'

theorem Arrives.granted (ha : s.Arrives k vm' m) (h : s.Inv) {j e : ℕ}
    (hg : (s.arrive k vm' m).Grants key j) (he : e ∈ vm'.impWhse) (hek : vm'.key e = key) :
    (s.arrive k vm' m).producer e = j := by
  cases hg with
  | handler i vchan ack e' hi hj hgrants =>
      rcases Pool.get_spawn.mp hi with ⟨rfl, heq⟩ | hi
      · obtain ⟨hnext, hkey'⟩ := ha.grants vchan ack e' key heq.symm hgrants
        obtain rfl := ha.sys.heap.keys e he _ hnext (hek.trans hkey'.symm)
        exact (Function.update_self _ _ _).trans ((Function.update_self _ _ _).symm.trans hj)
      · exact ha.producer_of_grants h
          (.handler i vchan ack e' hi ((answers_arrive hi).symm.trans hj) hgrants) he hek
  | queued x hx hgrants => exact ha.producer_of_grants h (.queued x hx hgrants) he hek
  | call stage hj hseeks =>
      rcases Pool.get_spawn.mp hj with ⟨-, rfl⟩ | hj
      · have hanswering := ha.answering
        cases stage with
        | queueing | rejected => cases hseeks
        | _ => cases hanswering
      · exact ha.producer_of_grants h (.call stage hj hseeks) he hek

theorem Arrives.kept (ha : s.Arrives k vm' m) (h : s.Inv) {e : ℕ} (he : e ∈ vm'.impWhse) :
    (s.arrive k vm' m).Grants (vm'.key e) ((s.arrive k vm' m).producer e) ∨
      (∃ stage, (s.sys.calls.spawn m).get ((s.arrive k vm' m).producer e) = some stage ∧
        stage.worksOn e = true) ∨ s.succeeded ((s.arrive k vm' m).producer e) = true := by
  by_cases hee : e = s.sys.vm.nextDesc
  · subst hee
    obtain ⟨-, vchan, ack, e', rfl, hgrants⟩ := ha.added he
    have hproducer : (s.arrive k vm' (.queueing vchan ack e')).producer s.sys.vm.nextDesc = k :=
      Function.update_self _ _ _
    rw [hproducer]
    exact .inl (.handler s.sys.calls.next vchan ack e' (Pool.get_spawn.mpr (.inl ⟨rfl, rfl⟩))
      (Function.update_self _ _ _) hgrants)
  · rw [ha.key_eq hee, producer_arrive hee]
    rcases h.kept e ((ha.others.impWhse e hee).mp he) with hg | ⟨stage, hj, hworks⟩ | hdone
    · refine .inl (hg.mono ?_ fun _ hx ↦ hx)
      exact fun i stage hi ↦ ⟨Pool.get_spawn.mpr (.inr hi), answers_arrive hi⟩
    · exact .inr (.inl ⟨stage, Pool.get_spawn.mpr (.inr hj), hworks⟩)
    · exact .inr (.inr hdone)

theorem Arrives.imported (ha : s.Arrives k vm' m) (h : s.Inv) {e : ℕ} (he : e ∈ vm'.impWhse)
    (hstate : (vm'.desc e).importState = .imported ∨ (vm'.desc e).importState = .unimporting) :
    s.succeeded ((s.arrive k vm' m).producer e) = true := by
  by_cases hee : e = s.sys.vm.nextDesc
  · subst hee
    rw [(ha.added he).1] at hstate
    rcases hstate with hstate | hstate <;> cases hstate
  · rw [ha.others.desc e hee] at hstate
    rw [producer_arrive hee]
    exact h.imported e ((ha.others.impWhse e hee).mp he) hstate

theorem Arrives.removed (ha : s.Arrives k vm' m) (h : s.Inv) {j e : ℕ} {vchan : ImportVchan}
    (hj : (s.sys.calls.spawn m).get j = some (.removing vchan e)) :
    s.unimport ((s.arrive k vm' m).producer e) = true ∨
      s.succeeded ((s.arrive k vm' m).producer e) = true := by
  rcases Pool.get_spawn.mp hj with ⟨-, rfl⟩ | hj
  · cases ha.answering
  · have hlt := ((h.sys.stages j _ hj).owned e (decide_eq_true rfl)).1
    rw [producer_arrive (Nat.ne_of_lt hlt)]
    exact h.removed j vchan e hj

/-- What the answer brings is in the warehouse, or its handler gives it back. -/
theorem Arrives.acked_self (ha : s.Arrives k vm' m) :
    (∃ i vchan e, (s.sys.calls.spawn m).get i = some (.rejected vchan e) ∧
      (s.arrive k vm' m).answers i = k) ∨
        ∃ e ∈ vm'.impWhse, (s.arrive k vm' m).producer e = k := by
  rcases ha.acked with hnext | ⟨vchan, e, rfl⟩
  · exact .inr ⟨_, hnext, Function.update_self _ _ _⟩
  · exact .inl ⟨s.sys.calls.next, vchan, e, Pool.get_spawn.mpr (.inl ⟨rfl, rfl⟩),
      Function.update_self _ _ _⟩

theorem Inv.ackArrived (h : s.Inv) (ha : s.Arrives k vm' m) : (s.arrive k vm' m).Inv := by
  have hsource : s.At k .peer := ha.peer
  refine ⟨ha.sys, ha.others.memProto.trans h.memProto, h.queue.trans ha.impRxq.symm, ?_, h.once,
    h.place_moved (ha.at_of h), h.known_moved hsource (ha.at_of h) (Nat.le_succ _), ?_, h.own,
    fun key j hg e ↦ ha.granted h hg, fun e ↦ ha.kept h, fun e ↦ ha.imported h,
    fun j vchan e ↦ ha.removed h, ?_⟩
  · intro x j hx
    obtain ⟨stage, hj, hw⟩ := awaits_eq_true.mp (h.awaited x j hx)
    exact awaits_eq_true.mpr ⟨stage, Pool.get_spawn.mpr (.inr hj), hw⟩
  · refine h.waits_of_old fun j vchan param hj ↦ ?_
    rcases Pool.get_spawn.mp hj with ⟨-, rfl⟩ | hj
    · cases ha.answering
    · exact hj
  · intro j hj
    by_cases hjk : j = k
    · subst hjk
      exact .inr (.inr ha.acked_self)
    · refine h.acked_of_kept (fun _ ↦ id) (fun _ ↦ id) (fun i vchan e hi ↦ .inr ⟨?_, ?_⟩)
        (fun e he ↦ .inl ⟨?_, ?_⟩) ((Function.update_of_ne hjk _ _).symm.trans hj)
      · exact Pool.get_spawn.mpr (.inr hi)
      · exact answers_arrive hi
      · exact (ha.others.impWhse e (h.ne_nextDesc he)).mpr he
      · exact producer_arrive (h.ne_nextDesc he)

end Arrives

/-- A descriptor whose key is not in the warehouse goes there. -/
theorem habExportEnqueue_fst {vm : ImportVm} {e : ℕ}
    (hfree : ∀ e' ∈ vm.impWhse, vm.key e' ≠ vm.key e) : (vm.habExportEnqueue e).1 = true := by
  have hnone : (vm.touch (e :: vm.impWhse)).habRbExpFind (vm.desc e).exportId (vm.desc e).pchan =
      none := by
    refine List.find?_eq_none.mpr fun e' he' hkey ↦ hfree e' he' ?_
    have hkey := of_decide_eq_true hkey
    exact Prod.ext hkey.1 hkey.2
  change (if ((vm.touch (e :: vm.impWhse)).habRbExpFind (vm.desc e).exportId
    (vm.desc e).pchan).isSome = true then _ else _ : Bool × ImportVm).1 = true
  rw [hnone]
  rfl

/-- An IMPORT_ACK that is read brings its descriptor, or is rejected. -/
theorem Inv.ackReceived (h : s.Inv) (hpeer : s.outstanding k = true) {msg : ExportMsg}
    {read allocDesc allocAck : Bool} (hsize : msg.badSize = false) (hdesc : allocDesc = true)
    (hread : read = true) (hplace : msg.malformed = true ∨ allocAck = false ∨
      s.sys.vm.habRbExpFind msg.exportId vchan.pchan = none) :
    Inv { s with
      outstanding := Function.update s.outstanding k false
      importAck := Function.update s.importAck k true
      sys := s.sys.received vchan
        (s.sys.vm.habReceiveExportDesc vchan msg read allocDesc allocAck)
      answers := Function.update s.answers s.sys.calls.next k
      producer := Function.update s.producer s.sys.vm.nextDesc k } := by
  have hsys : ImportSystem.Inv (s.sys.received vchan
      (s.sys.vm.habReceiveExportDesc vchan msg read allocDesc allocAck)) :=
    h.sys.recvExport msg read allocDesc allocAck
  subst hdesc hread
  set d := s.sys.vm.receivedDesc vchan msg with hd
  have hfresh : s.sys.vm.freed s.sys.vm.nextDesc = 0 := h.sys.heap.fresh _ (Nat.le_refl _)
  have hout : s.sys.vm.nextDesc ∉ s.sys.vm.impWhse :=
    fun he ↦ Nat.lt_irrefl _ (h.sys.heap.live _ he).1
  have hlocal := ImportVm.local_alloc s.sys.vm d
  have hproto : ∀ {vm' : ImportVm}, vm'.memProto = s.sys.vm.memProto →
      vm'.memProto vchan.pchan = true := by
    intro vm' hsame
    rw [hsame, h.memProto]
  by_cases hreject : msg.malformed = true ∨ allocAck = false
  · have heq : s.sys.received vchan (s.sys.vm.habReceiveExportDesc vchan msg true true allocAck) =
        ⟨s.sys.vm.alloc d, s.sys.calls.spawn (.rejected vchan s.sys.vm.nextDesc)⟩ := by
      have hproto' : (s.sys.vm.alloc d).memProto vchan.pchan = true := hproto rfl
      rw [ImportVm.habReceiveExportDesc, hsize]
      simp only [Bool.not_true, Bool.or_false, Bool.false_eq_true, if_false, ← hd, hproto',
        Bool.true_and]
      rw [if_pos (by simpa using hreject)]
      simp only [ImportSystem.received, hproto', if_true]
    rw [heq] at hsys ⊢
    refine h.ackArrived ⟨hpeer, hsys, hlocal, rfl, rfl, fun he ↦ absurd he hout, ?_,
      .inr ⟨vchan, _, rfl⟩⟩
    rintro _ _ _ _ ⟨⟩
  · obtain ⟨hform, hack⟩ := not_or.mp hreject
    obtain ⟨added, vm', hadd⟩ : ∃ added vm',
        (s.sys.vm.alloc d).habExportEnqueue s.sys.vm.nextDesc = (added, vm') := ⟨_, _, rfl⟩
    obtain ⟨-, hlocal', hdesc', -, -, hrxq, hin, -⟩ :=
      (h.sys.heap.alloc d).habExportEnqueue (Nat.lt_succ_self _) hfresh hout hadd
    have hlocal'' := hlocal.trans hlocal'
    have hself : vm'.desc s.sys.vm.nextDesc = d := by
      rw [hdesc', ImportVm.desc_alloc]
    have hkey : vm'.key s.sys.vm.nextDesc = (msg.exportId, vchan.pchan) := by
      rw [ImportVm.key, hself]
      rfl
    -- no other descriptor has the key
    have hadded : added = true := by
      have hfree := (hplace.resolve_left hform).resolve_left hack
      refine (congrArg Prod.fst hadd).symm.trans (habExportEnqueue_fst fun e he ↦ ?_)
      have hnew : (s.sys.vm.alloc d).key s.sys.vm.nextDesc = (msg.exportId, vchan.pchan) := by
        rw [ImportVm.key, ImportVm.desc_alloc]
        rfl
      rw [h.sys.heap.key_alloc d he, hnew]
      exact ImportVm.habRbExpFind_eq_none hfree e he
    subst hadded
    have hmem := hin.mpr rfl
    have hackKey : (vm'.importAck s.sys.vm.nextDesc true).key = (msg.exportId, vchan.pchan) := by
      rw [HabImportAck.key, ImportVm.importAck, hself, hd, ImportVm.receivedDesc, h.memProto]
      exact Prod.ext rfl (vcidPchan_habVcid vchan.pchan vchan.idr)
    have heq : s.sys.received vchan (s.sys.vm.habReceiveExportDesc vchan msg true true allocAck) =
        ⟨vm', s.sys.calls.spawn (.queueing vchan (vm'.importAck s.sys.vm.nextDesc true)
          s.sys.vm.nextDesc)⟩ := by
      have hproto' : vm'.memProto vchan.pchan = true := hproto hlocal''.memProto
      rw [ImportVm.habReceiveExportDesc, hsize]
      simp only [Bool.not_true, Bool.or_false, Bool.false_eq_true, if_false, ← hd]
      rw [if_neg (by simp [hform, hack])]
      simp only [ImportSystem.received, hadd, hproto', if_true]
    rw [heq] at hsys ⊢
    refine h.ackArrived ⟨hpeer, hsys, hlocal'', hrxq, rfl, fun _ ↦ ⟨?_, vchan, _, _, rfl, ?_⟩, ?_,
      .inl hmem⟩
    · rw [hself]
      rfl
    · rw [hkey, HabImportAck.grants, hackKey]
      simp [ImportVm.importAck]
    · rintro _ _ _ key ⟨⟩ hgrants
      simp only [HabImportAck.grants, Bool.and_eq_true, decide_eq_true_eq] at hgrants
      exact ⟨hmem, hkey.trans (hackKey.symm.trans hgrants.2)⟩

end Arrival

/-! ## Steps and runs -/

theorem Inv.importCalled (h : s.Inv) {v : ℕ} {param : HabImport} {sent sent' : Bool}
    {next : ImportSystem} (htimely : s.timely (.own (.import v param sent') sent) = true)
    (hstep : s.sys.step (.import v param sent') = some next) :
    Inv { s.note sent next (.import v param sent') with sys := next } := by
  have hsys := h.sys.step _ (h.sys.acked h.memProto _) hstep
  have hstay : Inv { s.note sent s.sys (.import v param sent') with sys := s.sys } := by
    have hnone := s.sys.calls.unused s.sys.calls.next (Nat.le_refl _)
    simp only [note, hnone]
    exact h
  simp only [ImportSystem.step] at hstep
  split at hstep
  · cases hstep
    exact hstay
  · rename_i hsize
    split at hstep
    · cases hstep
      exact hstay
    · rename_i vchan hvchan
      rw [h.memProto, if_pos rfl] at hstep
      split at hstep
      · rename_i hsent
        cases hstep
        have hnew : (s.sys.calls.spawn (.waiting vchan param)).get s.sys.calls.next =
            some (.waiting vchan param) := Pool.get_spawn.mpr (.inl ⟨rfl, rfl⟩)
        simp only [note, hnew]
        refine h.started hsys ⟨rfl, rfl, rfl, fun _ ↦ rfl, h.imported, fun k hk ↦ ?_, rfl,
          fun _ ↦ rfl, by rintro _ _ ⟨⟩, ?_⟩
        · by_cases hknext : k = s.sys.calls.next
          · exact .inr hknext
          · rw [Function.update_of_ne hknext] at hk
            exact .inl hk
        · -- nobody else waits for an answer with these ids
          rintro _ _ ⟨⟩ j stage hj
          simp only [not_not] at hsize
          simp only [timely, hsize, hsent, hvchan, ne_eq, not_true, decide_false, Bool.not_true,
            Bool.or_self, Bool.false_or, Option.all_some] at htimely
          have hno := Pool.all_eq_true.mp htimely j stage hj
          simpa using hno
      · cases hstep
        exact hstay

theorem Inv.unimportCalled (h : s.Inv) {v : ℕ} {exportId : UInt32} {next : ImportSystem}
    (hstep : s.sys.step (.unimport v exportId) = some next) : Inv { s with sys := next } := by
  have hsys := h.sys.step _ (h.sys.acked h.memProto _) hstep
  simp only [ImportSystem.step, h.sys.heap.touch_impWhse_eq] at hstep
  split at hstep
  · cases hstep
    exact h
  · split at hstep
    · cases hstep
      exact h
    · rename_i e hfind
      split at hstep
      · rename_i hstate
        cases hstep
        have he := (ImportVm.habRbExpFind_eq_some hfind).1
        have himported := h.imported e he (.inl hstate)
        refine h.started hsys ⟨rfl, rfl, rfl, fun e' ↦ ?_, ?_, fun _ hk ↦ .inl hk, rfl,
          fun _ ↦ rfl, by rintro _ _ ⟨⟩, by rintro _ _ ⟨⟩⟩
        · exact ImportVm.key_setImportState e e' .unimporting
        · exact h.imported_setImportState (fun _ _ ↦ himported) fun _ hk ↦ hk
      · cases hstep
        exact h

/-- The steps of the side itself. -/
theorem Inv.stepped (h : s.Inv) {act : ImportAct} {sent : Bool} {next : ImportSystem}
    (henabled : s.enabled act = true) (htimely : s.timely (.own act sent) = true)
    (hstep : s.sys.step act = some next) : Inv { s.note sent next act with sys := next } := by
  have hsys := h.sys.step _ (h.sys.acked h.memProto act) hstep
  cases act with
  | «import» v param sent' => exact h.importCalled htimely hstep
  | unimport v exportId => exact h.unimportCalled hstep
  | advance i ok =>
      obtain ⟨stage, hget, hnext⟩ := Option.bind_eq_some_iff.mp hstep
      cases hnext
      simp only [timely, hget, Option.all_some] at htimely
      simp only [note, hget]
      exact h.advance hget htimely
  | recvExport v msg read allocDesc allocAck => cases henabled
  | recvImportAckFail v exportId alloc => cases henabled
  | recvClose v =>
      obtain ⟨vchan, -, hnext⟩ := Option.bind_eq_some_iff.mp hstep
      cases hnext
      exact h.same hsys ⟨rfl, rfl, rfl, rfl, rfl, rfl, rfl⟩ rfl fun _ hk ↦ hk
  | openVchan vchan =>
      simp only [ImportSystem.step] at hstep
      split at hstep
      · cases hstep
        exact h.same hsys ⟨rfl, rfl, rfl, rfl, rfl, rfl, rfl⟩ rfl fun _ hk ↦ hk
      · cases hstep
  | closeVchan v =>
      cases hstep
      exact h.same hsys ⟨rfl, rfl, rfl, rfl, rfl, rfl, rfl⟩ rfl fun _ hk ↦ hk
  | freeVchan v =>
      simp only [ImportSystem.step] at hstep
      split at hstep
      · cases hstep
        exact h.same hsys ⟨rfl, rfl, rfl, rfl, rfl, rfl, rfl⟩ rfl fun _ hk ↦ hk
      · cases hstep

/-- A request is no longer answered. -/
theorem Inv.noAnswer (h : s.Inv) :
    Inv { s with outstanding := Function.update s.outstanding k false } :=
  h.same h.sys (ImportVm.Same.refl _) rfl fun _ hk ↦ (outstanding_update.mp hk).2

theorem Inv.ran (h : s.Inv) {act : ImportTraceAct} (htimely : s.timely act = true)
    (hrun : s.run act = some s') : s'.Inv := by
  cases act with
  | own act sent =>
      simp only [run] at hrun
      split at hrun
      · rename_i henabled
        obtain ⟨next, hstep, rfl⟩ := Option.map_eq_some_iff.mp hrun
        exact h.stepped henabled htimely hstep
      · cases hrun
  | importAck k msg read allocDesc allocAck =>
      simp only [run] at hrun
      split at hrun
      · rename_i vchan param hrequest hpeer
        simp only [timely, hrequest, Option.all_some] at htimely
        rw [Option.any_eq_true] at htimely
        obtain ⟨vchan', hvchan, hplace⟩ := htimely
        simp only [Bool.and_eq_true, Bool.or_eq_true, Bool.not_eq_true', Option.isNone_iff_eq_none,
          or_assoc] at hplace
        simp only [ImportSystem.step, hvchan] at hrun
        cases hrun
        exact h.ackReceived hpeer hplace.1.1.1 hplace.1.1.2 hplace.1.2 hplace.2
      · cases hrun
  | importAckFail k exportId alloc =>
      simp only [run] at hrun
      split at hrun
      · rename_i vchan param hrequest hpeer
        split at hrun
        · cases hrun
          exact h.noAnswer
        · rename_i vchan' hvchan
          cases hrun
          have hsys : ImportSystem.Inv
              { s.sys with vm := s.sys.vm.queueFail vchan' exportId alloc } :=
            h.sys.vm_same (ImportVm.same_queueFail _ _ _)
              fun key ↦ Nat.le_of_eq (ImportVm.countP_queueFail _ _ _ key)
          cases alloc with
          | true =>
              simp only [timely, hrequest, hvchan, Option.all_some, Bool.not_true,
                Bool.false_or] at htimely
              exact h.failArrived hpeer htimely hsys
          | false =>
              simp only [Bool.false_eq_true, if_false, List.append_nil]
              exact h.same hsys (ImportVm.same_queueFail _ _ _) rfl
                fun _ hk ↦ (outstanding_update.mp hk).2
      · cases hrun
  | unanswered k =>
      simp only [run] at hrun
      split at hrun
      · cases hrun
        exact h.noAnswer
      · cases hrun

/-- A failed import leaves nothing behind when its answer is handled in time. -/
theorem leavesNothing_of_meets {acts : List ImportTraceAct} {s : ImportTrace}
    (hmeets : Meets run (fun s act ↦ s.timely act = true) start acts)
    (hrun : exec run start acts = some s) : s.LeavesNothing :=
  (invariant_of_meets (fun _ _ _ h htimely hstep ↦ h.ran htimely hstep) inv_start hmeets
    hrun).leavesNothing

/-- An import that is answered and cannot be mapped. -/
def unmappable (vchan : ImportVchan) : List ImportTraceAct :=
  [.own (.openVchan vchan) false, .own (.import vchan.addr ⟨7, 4096⟩ true) false,
    .importAck 0 ⟨113, 7, 1, 1, 1, 1⟩ true true true, .own (.advance 1 true) false,
    .own (.advance 0 true) false, .own (.advance 0 true) false, .own (.advance 0 true) false,
    .own (.advance 0 false) false, .own (.advance 0 true) false, .own (.advance 0 true) true,
    .own (.advance 0 true) false, .own (.advance 0 true) false]

theorem leavesNothing_of_meets_unmappable :
    ∃ s, exec run start (unmappable ⟨0, ⟨⟨101, by decide⟩, ⟨2, by decide⟩⟩, ⟨1, by decide⟩, 1⟩) =
      some s ∧ s.LeavesNothing ∧ s.importAck 0 = true ∧ s.sys.calls.get 0 = none ∧
        s.succeeded 0 = false := by
  have hseen : (exec run start (unmappable ⟨0, ⟨⟨101, by decide⟩, ⟨2, by decide⟩⟩,
      ⟨1, by decide⟩, 1⟩)).map (fun s ↦
      (s.importAck 0, s.sys.calls.get 0, s.succeeded 0)) = some (true, none, false) := by decide
  obtain ⟨s, hrun, heq⟩ := Option.map_eq_some_iff.mp hseen
  simp only [Prod.mk.injEq] at heq
  exact ⟨s, hrun, leavesNothing_of_meets (by decide) hrun, heq⟩

/-! ## An answer that comes too late -/

/-- The time of an import is up before its IMPORT_ACK arrives; then the same buffer is
imported again. -/
def answeredLate (vchan : ImportVchan) : List ImportTraceAct :=
  [.own (.openVchan vchan) false, .own (.import vchan.addr ⟨7, 4096⟩ true) false,
    .own (.advance 0 false) false, .importAck 0 ⟨113, 7, 1, 1, 1, 1⟩ true true true,
    .own (.advance 1 true) false, .own (.import vchan.addr ⟨7, 4096⟩ true) false,
    .own (.advance 2 true) false]

/-- The first import leaves its descriptor and its ack, which the second takes. -/
theorem not_leavesNothing_answeredLate :
    ∃ s, exec run start (answeredLate ⟨0, ⟨⟨101, by decide⟩, ⟨2, by decide⟩⟩, ⟨1, by decide⟩, 1⟩) =
      some s ∧ s.Settled 0 ∧ ¬ s.Undone 0 ∧ (2, 0) ∈ s.taken ∧ ¬ s.LeavesNothing := by
  have hseen : (exec run start (answeredLate ⟨0, ⟨⟨101, by decide⟩, ⟨2, by decide⟩⟩,
      ⟨1, by decide⟩, 1⟩)).map (fun s ↦
      ((s.request 0).isSome && !s.succeeded 0 && !s.outstanding 0 &&
        s.sys.calls.all (fun stage ↦ !stage.answering) && (s.sys.calls.get 0).isNone,
          s.sys.vm.impWhse, s.producer 0, s.taken)) = some (true, [0], 0, [(2, 0)]) := by decide
  obtain ⟨s, hrun, heq⟩ := Option.map_eq_some_iff.mp hseen
  simp only [Prod.mk.injEq, Bool.and_eq_true, Bool.not_eq_true', Option.isNone_iff_eq_none] at heq
  obtain ⟨⟨⟨⟨⟨hrequest, hfailed⟩, harrived⟩, hhandled⟩, hreturned⟩, hwhse, hproducer, htaken⟩ := heq
  have hsettled : s.Settled 0 := by
    refine ⟨Option.isSome_iff_ne_none.mp hrequest, hreturned, hfailed, harrived, ?_⟩
    intro i stage hget hanswering
    have hno := Pool.all_eq_true.mp hhandled i stage hget
    rw [hanswering] at hno
    cases hno
  have hleft : ¬ s.Undone 0 := by
    intro hundone
    refine hundone.impWhse 0 ?_ hproducer
    rw [hwhse]
    exact List.mem_cons_self
  refine ⟨s, hrun, hsettled, hleft, ?_, fun h ↦ hleft (h.undone 0 hsettled)⟩
  rw [htaken]
  exact List.mem_cons_self

end ImportTrace

end Hab
