import Hab.ImportProgress

/-!
# Answers in the queue

The handling of a message puts the answer to one request into the queue, and the wait of
this request takes it from there.
-/

namespace Hab

namespace ImportTrace

variable {s : ImportTrace} {i k : ℕ} {key : UInt32 × HabPchan} {stage : ImportStage}

/-! ## Answers -/

/-- The handling of a message goes on without bringing anything else about. -/
structure Ends (m : ImportStage) : Prop where
  listens : m.listens = false
  seeks : ∀ key, m.seeks key = false
  worksOn : ∀ e, m.worksOn e = false

theorem ends_freeing (vchan : ImportVchan) (e : ℕ) : Ends (.freeing vchan e) :=
  ⟨rfl, fun _ ↦ rfl, fun _ ↦ rfl⟩

theorem not_ends_of_listens {m : ImportStage} (h : m.listens = true) : ¬ Ends m := by
  intro hend
  rw [hend.listens] at h
  cases h

/-- What the handling of a message brings into the queue, if anything, and what it leaves as
it is. -/
structure Answers (s : ImportTrace) (i : ℕ) (stage : ImportStage) (vm' : ImportVm)
    (next : Option ImportStage) (new : List (HabImportAckRecvd × ℕ)) (unimport : ℕ → Bool) :
    Prop where
  get : s.sys.calls.get i = some stage
  answering : stage.answering = true
  same : s.sys.vm.Same vm'
  impRxq : vm'.impRxq = s.sys.vm.impRxq ++ new.map Prod.fst
  ends : ∀ m, next = some m → Ends m
  entry : new = [] ∨ ∃ a, new = [(a, s.answers i)] ∧ s.awaits (s.answers i) a.ack = true
  grants : ∀ key, (∃ p ∈ new, p.1.ack.grants key = true) ↔
    ∃ vchan ack e, stage = .queueing vchan ack e ∧ ack.grants key = true
  sent : ∀ k, s.unimport k = true → unimport k = true
  rejected : ∀ vchan e, stage = .rejected vchan e → unimport (s.answers i) = true

/-- The message that the call `i` handles is in the queue. -/
def answer (s : ImportTrace) (i : ℕ) (vm' : ImportVm) (next : Option ImportStage)
    (new : List (HabImportAckRecvd × ℕ)) (unimport : ℕ → Bool) : ImportTrace :=
  { s with
    sys := ⟨vm', s.sys.calls.set i next⟩
    impRxq := s.impRxq ++ new
    unimport := unimport }

section Answers

variable {vm' : ImportVm} {next : Option ImportStage} {new : List (HabImportAckRecvd × ℕ)}
  {unimport : ℕ → Bool}

/-- All other calls stay, and this one is over. -/
theorem Answers.get_of_not_ends (ha : s.Answers i stage vm' next new unimport) {j : ℕ}
    {m : ImportStage} (hj : (s.sys.calls.set i next).get j = some m) (hm : ¬ Ends m) :
    j ≠ i ∧ s.sys.calls.get j = some m := by
  rcases (Pool.get_set (Pool.lt_next ha.get)).mp hj with ⟨-, hmnext⟩ | hj
  · exact absurd (ha.ends m hmnext) hm
  · exact hj

theorem Answers.get_of_ne (ha : s.Answers i stage vm' next new unimport) {j : ℕ}
    {m : ImportStage} (hj : s.sys.calls.get j = some m) (hne : stage ≠ m) :
    (s.sys.calls.set i next).get j = some m := by
  refine (Pool.get_set (Pool.lt_next ha.get)).mpr (.inr ⟨?_, hj⟩)
  rintro rfl
  exact hne (Option.some.inj (ha.get.symm.trans hj))

theorem Answers.awaits (ha : s.Answers i stage vm' next new unimport) {ack : HabImportAck}
    (hawaits : s.awaits k ack = true) : (s.answer i vm' next new unimport).awaits k ack = true := by
  obtain ⟨m, hm, hwaits⟩ := awaits_eq_true.mp hawaits
  refine awaits_eq_true.mpr ⟨m, ha.get_of_ne hm ?_, hwaits⟩
  rintro rfl
  have hanswering := ha.answering
  cases stage with
  | waiting => cases hanswering
  | _ => cases hwaits

theorem Answers.of_mem_new (ha : s.Answers i stage vm' next new unimport)
    {x : HabImportAckRecvd} (hx : (x, k) ∈ new) :
    k = s.answers i ∧ s.awaits k x.ack = true := by
  rcases ha.entry with rfl | ⟨a, rfl, hawaits⟩
  · cases hx
  · cases List.mem_singleton.mp hx
    exact ⟨rfl, hawaits⟩

theorem Answers.at_handler (ha : s.Answers i stage vm' next new unimport) :
    s.At (s.answers i) (.handler i) :=
  ⟨rfl, stage, ha.get, ha.answering⟩

/-- An answer stays where it is, unless it is the one that is handled. -/
theorem Answers.at_of (ha : s.Answers i stage vm' next new unimport) (h : s.Inv) {p : Place}
    (hp : (s.answer i vm' next new unimport).At k p) :
    k ≠ s.answers i ∧ s.At k p ∨ k = s.answers i ∧ p = .queue := by
  have hplace : s.At k p → (p ≠ .queue → p ≠ .handler i) →
      k ≠ s.answers i ∧ s.At k p ∨ k = s.answers i ∧ p = .queue := by
    intro hp hne
    by_cases hk : k = s.answers i
    · subst hk
      have heq := h.place _ _ _ hp ha.at_handler
      by_cases hq : p = .queue
      · exact .inr ⟨rfl, hq⟩
      · exact absurd heq (hne hq)
    · exact .inl ⟨hk, hp⟩
  cases p with
  | peer => exact hplace hp (fun _ ↦ by rintro ⟨⟩)
  | handler j =>
      obtain ⟨hk, m, hm, hma⟩ := hp
      obtain ⟨hji, hj⟩ :=
        ha.get_of_not_ends hm (not_ends_of_listens (ImportStage.listens_of_answering hma))
      refine hplace ⟨hk, m, hj, hma⟩ fun _ ↦ ?_
      rintro ⟨⟩
      exact hji rfl
  | queue =>
      obtain ⟨x, hx⟩ := hp
      rcases List.mem_append.mp hx with hx | hx
      · exact hplace ⟨x, hx⟩ fun hne ↦ absurd rfl hne
      · exact .inr ⟨(ha.of_mem_new hx).1, rfl⟩

theorem Answers.grants_of (ha : s.Answers i stage vm' next new unimport)
    (hg : (s.answer i vm' next new unimport).Grants key k) : s.Grants key k := by
  cases hg with
  | handler j vchan ack e hj hk hack =>
      exact .handler j vchan ack e (ha.get_of_not_ends hj (not_ends_of_listens rfl)).2 hk hack
  | queued x hx hxgrants =>
      rcases List.mem_append.mp hx with hx | hx
      · exact .queued x hx hxgrants
      · obtain ⟨vchan, ack, e, rfl, hack⟩ := (ha.grants key).mp ⟨_, hx, hxgrants⟩
        exact .handler i vchan ack e ha.get (ha.of_mem_new hx).1.symm hack
  | call m hm hseeks =>
      refine .call m (ha.get_of_not_ends hm ?_).2 hseeks
      intro hend
      rw [hend.seeks] at hseeks
      cases hseeks

/-- What the handler would let a call look for, the queue does. -/
theorem Answers.grants_after (ha : s.Answers i stage vm' next new unimport) (hg : s.Grants key k) :
    (s.answer i vm' next new unimport).Grants key k := by
  have hanswering := ha.answering
  cases hg with
  | handler j vchan ack e hj hk hack =>
      by_cases hji : j = i
      · subst hji
        cases ha.get.symm.trans hj
        obtain ⟨⟨x, k'⟩, hx, hxgrants⟩ := (ha.grants key).mpr ⟨vchan, ack, e, rfl, hack⟩
        rw [← hk, ← (ha.of_mem_new hx).1]
        exact .queued x (List.mem_append_right _ hx) hxgrants
      · exact .handler j vchan ack e
          ((Pool.get_set (Pool.lt_next ha.get)).mpr (.inr ⟨hji, hj⟩)) hk hack
  | queued x hx hxgrants => exact .queued x (List.mem_append_left _ hx) hxgrants
  | call m hm hseeks =>
      refine .call m (ha.get_of_ne hm ?_) hseeks
      rintro rfl
      cases stage with
      | acked | finding => cases hanswering
      | _ => cases hseeks

theorem Answers.worksOn (ha : s.Answers i stage vm' next new unimport) {j e : ℕ}
    {m : ImportStage} (hm : s.sys.calls.get j = some m) (hworks : m.worksOn e = true) :
    (s.sys.calls.set i next).get j = some m := by
  refine ha.get_of_ne hm ?_
  rintro rfl
  have hanswering := ha.answering
  cases stage with
  | queueing | rejected => cases hworks
  | _ => cases hanswering

/-- The handling of a message has put its entry into the queue, if it does. -/
theorem Inv.answered (h : s.Inv) (hsys : ImportSystem.Inv ⟨vm', s.sys.calls.set i next⟩)
    (ha : s.Answers i stage vm' next new unimport) :
    (s.answer i vm' next new unimport).Inv := by
  have hkey : ∀ e, vm'.key e = s.sys.vm.key e := by
    intro e
    rw [ImportVm.key, ImportVm.key, ha.same.desc]
  have hwhse : ∀ {e}, e ∈ vm'.impWhse ↔ e ∈ s.sys.vm.impWhse := by
    intro e
    rw [ha.same.impWhse]
  refine ⟨hsys, ha.same.memProto.trans h.memProto, ?_, ?_, ?_, h.place_moved (ha.at_of h),
    h.known_moved ha.at_handler (ha.at_of h) (Nat.le_of_eq (Pool.next_set _ _).symm), ?_, h.own, ?_,
    ?_, ?_, ?_, ?_⟩
  · change (s.impRxq ++ new).map Prod.fst = vm'.impRxq
    rw [List.map_append, h.queue]
    exact ha.impRxq.symm
  · intro x k hx
    rcases List.mem_append.mp hx with hx | hx
    · exact ha.awaits (h.awaited x k hx)
    · exact ha.awaits (ha.of_mem_new hx).2
  · change ((s.impRxq ++ new).map Prod.snd).Nodup
    rcases ha.entry with hnil | ⟨a, ha', -⟩
    · rw [hnil, List.append_nil]
      exact h.once
    · rw [ha']
      exact h.once_concat ha.at_handler (by rintro ⟨⟩) a
  · exact h.waits_of_old fun j _ _ hj ↦ (ha.get_of_not_ends hj (not_ends_of_listens rfl)).2
  · exact h.granted_of_old ha.grants_of (fun _ ↦ hwhse.mp) hkey rfl
  · intro e he
    change (s.answer i vm' next new unimport).Grants (vm'.key e) _ ∨ _
    rw [hkey]
    rcases h.kept e (hwhse.mp he) with hg | ⟨m, hm, hworks⟩ | hdone
    · exact .inl (ha.grants_after hg)
    · exact .inr (.inl ⟨m, ha.worksOn hm hworks, hworks⟩)
    · exact .inr (.inr hdone)
  · intro e he hstate
    change (vm'.desc e).importState = _ ∨ (vm'.desc e).importState = _ at hstate
    rw [ha.same.desc] at hstate
    exact h.imported e (hwhse.mp he) hstate
  · intro j vchan e hj
    have hremoving : ¬ Ends (.removing vchan e) := by
      intro hend
      have hworks := hend.worksOn e
      rw [ImportStage.worksOn, decide_eq_false_iff_not] at hworks
      exact hworks rfl
    exact (h.removed j vchan e (ha.get_of_not_ends hj hremoving).2).imp (ha.sent _) id
  · intro k
    refine h.acked_of_kept ha.sent (fun _ ↦ id) (fun j vchan e hj ↦ ?_)
      fun e he ↦ .inl ⟨hwhse.mpr he, rfl⟩
    by_cases hji : j = i
    · subst hji
      exact .inl (ha.rejected vchan e (Option.some.inj (ha.get.symm.trans hj)))
    · exact .inr ⟨(Pool.get_set (Pool.lt_next ha.get)).mpr (.inr ⟨hji, hj⟩), rfl⟩

end Answers

section Queue

variable {ok sent : Bool} {vchan : ImportVchan} {param : HabImport} {e : ℕ}

theorem Inv.advance_queueing (h : s.Inv) {ack : HabImportAck}
    (hget : s.sys.calls.get i = some (.queueing vchan ack e))
    (htimely : s.awaits (s.answers i) ack = true) :
    Inv { s with
      sys := s.advanced i ok (.queueing vchan ack e)
      impRxq := s.impRxq ++ [(⟨ack, 0⟩, s.answers i)] } := by
  refine h.answered (h.sys_advanced hget ok) ⟨hget, rfl, ImportVm.same_queueAck ack, rfl, ?_,
    .inr ⟨_, rfl, htimely⟩, ?_, fun _ ↦ id, ?_⟩
  · intro m hm
    simp only [ImportStage.run] at hm
    split at hm
    · cases hm
    · cases hm
      exact ends_freeing vchan e
  · intro key
    constructor
    · rintro ⟨p, hp, hgrants⟩
      rw [List.mem_singleton.mp hp] at hgrants
      exact ⟨vchan, ack, e, rfl, hgrants⟩
    · rintro ⟨_, _, _, ⟨⟩, hgrants⟩
      exact ⟨_, List.mem_singleton_self _, hgrants⟩
  · rintro _ _ ⟨⟩

/-- A descriptor that is rejected is given back with an UNIMPORT. -/
theorem Inv.advance_rejected (h : s.Inv)
    (hget : s.sys.calls.get i = some (.rejected vchan e)) (hsent : sent = true)
    (htimely : ok = true →
      s.awaits (s.answers i) (expectedAck vchan (s.sys.vm.desc e).exportId) = true) :
    Inv { s with
      sys := s.advanced i ok (.rejected vchan e)
      impRxq := s.impRxq ++
        if ok then [(⟨expectedAck vchan (s.sys.vm.desc e).exportId, 0⟩, s.answers i)] else []
      unimport := Function.update s.unimport (s.answers i)
        (s.unimport (s.answers i) || sent) } := by
  have htouch : s.sys.vm.touch [e] = s.sys.vm :=
    ImportVm.touch_singleton_eq ((h.sys.stages i _ hget).owned e (decide_eq_true rfl)).2.1
  have hsys := h.sys_advanced hget ok
  simp only [advanced, ImportStage.run, htouch] at hsys ⊢
  refine h.answered hsys ⟨hget, rfl, ImportVm.same_queueFail _ _ _, ?_, ?_, ?_, ?_, ?_, ?_⟩
  · cases ok with
    | true => rfl
    | false => exact (List.append_nil _).symm
  · rintro _ ⟨⟩
    exact ends_freeing vchan e
  · cases ok with
    | true => exact .inr ⟨_, rfl, htimely rfl⟩
    | false => exact .inl rfl
  · intro key
    constructor
    · rintro ⟨p, hp, hgrants⟩
      cases ok with
      | true =>
          rw [List.mem_singleton.mp hp] at hgrants
          cases hgrants
      | false => cases hp
    · rintro ⟨_, _, _, ⟨⟩, -⟩
  · intro k hk
    by_cases hki : k = s.answers i
    · subst hki
      simp [hk]
    · exact (Function.update_of_ne hki _ _).trans hk
  · intro _ _ _
    simp [hsent]

/-- The answer that a wait takes is the one to its own request. -/
theorem Inv.own_of_taken (h : s.Inv) (hget : s.sys.calls.get i = some (.waiting vchan param))
    {ack : HabImportAck}
    (htaken : (ackScanTraced (expectedAck vchan param.exportId) s.impRxq).1 = some (ack, k)) :
    k = i := by
  obtain ⟨hanswers, x, hx, rfl⟩ := mem_of_ackScanTraced htaken
  obtain ⟨m, hm, hwaits⟩ := awaits_eq_true.mp (h.awaited x k hx)
  cases m with
  | waiting vchan' param' =>
      -- the call that waits for this entry waits for the same ids
      refine h.waits i k vchan param _ hget hm ?_
      simp only [ImportStage.waitsFor, HabImportAck.answers, Bool.and_eq_true,
        decide_eq_true_eq] at hanswers hwaits ⊢
      obtain ⟨⟨hid, hlocal⟩, hremote⟩ := hanswers
      obtain ⟨⟨hid', hlocal'⟩, hremote'⟩ := hwaits
      exact ⟨⟨hid.symm.trans hid', hlocal.symm.trans hlocal'⟩, hremote.symm.trans hremote'⟩
  | _ => cases hwaits

theorem key_of_answers {ack : HabImportAck} {exportId : UInt32}
    (h : ack.answers (expectedAck vchan exportId) = true) : ack.key = (exportId, vchan.pchan) := by
  rw [HabImportAck.answers, Bool.and_eq_true, Bool.and_eq_true] at h
  have hid : ack.exportId = exportId := of_decide_eq_true h.1.1
  have hlocal : ack.vcidLocal = vchan.id := of_decide_eq_true h.1.2
  rw [HabImportAck.key, hid, hlocal, ImportVchan.id, vcidPchan_habVcid]

/-- What the walk over the queue takes, and what it leaves there. -/
def scan (s : ImportTrace) (vchan : ImportVchan) (param : HabImport) :
    Option (HabImportAck × ℕ) × List (HabImportAckRecvd × ℕ) :=
  ackScanTraced (expectedAck vchan param.exportId) s.impRxq

/-- The wait goes on, or is over, and then lets the import look for its descriptor only if
it has taken the ack for it. -/
structure Scans (s : ImportTrace) (i : ℕ) (vchan : ImportVchan) (param : HabImport)
    (vm' : ImportVm) (next : Option ImportStage) : Prop where
  get : s.sys.calls.get i = some (.waiting vchan param)
  same : s.sys.vm.Same vm'
  impRxq : vm'.impRxq = (s.scan vchan param).2.map Prod.fst
  young : (passedOver (expectedAck vchan param.exportId) s.sys.vm.impRxq).all (fun a ↦
    !a.ack.impWhseAdded || a.age < qAgeThreshold) = true
  goesOn : ∀ m, next = some m → m = .waiting vchan param ∨ m = .acked vchan param false ∨
    m = .acked vchan param true ∧
      ∃ ack, (s.scan vchan param).1 = some (ack, i) ∧ ack.impWhseAdded = true
  taken : ∀ ack, (s.scan vchan param).1 = some (ack, i) →
    next = some (.acked vchan param ack.impWhseAdded)

/-- The call `i` has looked into the queue. -/
def look (s : ImportTrace) (i : ℕ) (vchan : ImportVchan) (param : HabImport) (vm' : ImportVm)
    (next : Option ImportStage) : ImportTrace :=
  { s with
    sys := ⟨vm', s.sys.calls.set i next⟩
    impRxq := (s.scan vchan param).2
    taken := s.taken ++ (s.scan vchan param).1.toList.map fun ack ↦ (i, ack.2) }

section Scans

variable {vm' : ImportVm} {next : Option ImportStage}

/-- No entry that answers this request is left. -/
theorem Inv.ne_of_mem_scan (h : s.Inv) (hget : s.sys.calls.get i = some (.waiting vchan param))
    {y : HabImportAckRecvd} (hy : (y, k) ∈ (s.scan vchan param).2) : k ≠ i := by
  rintro rfl
  cases hack : (s.scan vchan param).1 with
  | none =>
      obtain ⟨x, hx, -⟩ := mem_of_mem_ackScanTraced hy
      have hanswers := ackScanTraced_eq_none hack hx
      obtain ⟨m, hm, hwaits⟩ := awaits_eq_true.mp (h.awaited x k hx)
      cases hget.symm.trans hm
      rw [ImportStage.waitsFor] at hwaits
      rw [hwaits] at hanswers
      cases hanswers
  | some taken =>
      obtain ⟨ack, k'⟩ := taken
      obtain rfl := h.own_of_taken hget hack
      exact (nodup_ackScanTraced h.once).2 ack k' hack (List.mem_map.mpr ⟨(y, k'), hy, rfl⟩)

theorem Scans.get_of_ne (hs : s.Scans i vchan param vm' next) {j : ℕ} {m : ImportStage}
    (hji : j ≠ i) (hm : s.sys.calls.get j = some m) : (s.sys.calls.set i next).get j = some m :=
  (Pool.get_set (Pool.lt_next hs.get)).mpr (.inr ⟨hji, hm⟩)

theorem Scans.get_of_not_acked (hs : s.Scans i vchan param vm' next) {j : ℕ} {m : ImportStage}
    (hj : (s.sys.calls.set i next).get j = some m) (hne : ∀ added, m ≠ .acked vchan param added) :
    s.sys.calls.get j = some m := by
  rcases (Pool.get_set (Pool.lt_next hs.get)).mp hj with ⟨rfl, hm⟩ | ⟨-, hj⟩
  · rcases hs.goesOn m hm with rfl | rfl | ⟨rfl, -⟩
    · exact hs.get
    · exact absurd rfl (hne false)
    · exact absurd rfl (hne true)
  · exact hj

theorem Scans.at_of (hs : s.Scans i vchan param vm' next) {p : Place}
    (hp : (s.look i vchan param vm' next).At k p) : s.At k p := by
  cases p with
  | peer => exact hp
  | handler j =>
      obtain ⟨hk, m, hm, hanswering⟩ := hp
      refine ⟨hk, m, hs.get_of_not_acked hm ?_, hanswering⟩
      rintro added rfl
      cases hanswering
  | queue =>
      obtain ⟨y, hy⟩ := hp
      obtain ⟨x, hx, -⟩ := mem_of_mem_ackScanTraced hy
      exact ⟨x, hx⟩

/-- A call that is to look for its descriptor has taken the ack for it from the queue. -/
theorem Scans.grants_of (hs : s.Scans i vchan param vm' next)
    (hg : (s.look i vchan param vm' next).Grants key k) : s.Grants key k := by
  cases hg with
  | handler j vchan' ack e hj hk hack =>
      exact .handler j vchan' ack e (hs.get_of_not_acked hj (fun _ ↦ by rintro ⟨⟩)) hk hack
  | queued y hy hack =>
      obtain ⟨x, hx, heq⟩ := mem_of_mem_ackScanTraced hy
      rw [← heq] at hack
      exact .queued x hx hack
  | call m hm hseeks =>
      rcases (Pool.get_set (Pool.lt_next hs.get)).mp hm with ⟨rfl, hmnext⟩ | ⟨-, hm⟩
      · rcases hs.goesOn m hmnext with rfl | rfl | ⟨rfl, ack, hack, hadded⟩
        · cases hseeks
        · cases hseeks
        · obtain ⟨hanswers, x, hx, rfl⟩ := mem_of_ackScanTraced hack
          refine .queued x hx ?_
          rw [HabImportAck.grants, hadded, key_of_answers hanswers]
          exact hseeks
      · exact .call m hm hseeks

/-- An ack that grants a key is taken by the call that waits for it, or stays. -/
theorem Scans.grants_after (hs : s.Scans i vchan param vm' next) (h : s.Inv)
    (hg : s.Grants key k) : (s.look i vchan param vm' next).Grants key k := by
  cases hg with
  | handler j vchan' ack e hj hk hack =>
      refine .handler j vchan' ack e (hs.get_of_ne ?_ hj) hk hack
      rintro rfl
      cases hs.get.symm.trans hj
  | queued x hx hack =>
      have hadded : x.ack.impWhseAdded = true := by
        rw [HabImportAck.grants, Bool.and_eq_true] at hack
        exact hack.1
      have hyoung := hs.young
      rw [← h.queue] at hyoung
      rcases mem_ackScanTraced hx hadded hyoung with hx' | ⟨y, hy, heq⟩
      · obtain rfl := h.own_of_taken hs.get hx'
        refine .call _ ((Pool.get_set (Pool.lt_next hs.get)).mpr (.inl ⟨rfl, hs.taken _ hx'⟩)) ?_
        rw [HabImportAck.grants, key_of_answers (mem_of_ackScanTraced hx').1] at hack
        exact hack
      · rw [← heq] at hack
        exact .queued y hy hack
  | call m hm hseeks =>
      refine .call m (hs.get_of_ne ?_ hm) hseeks
      rintro rfl
      cases hs.get.symm.trans hm
      cases hseeks

theorem Inv.scanned (h : s.Inv) (hsys : ImportSystem.Inv ⟨vm', s.sys.calls.set i next⟩)
    (hs : s.Scans i vchan param vm' next) : (s.look i vchan param vm' next).Inv := by
  have hkey : ∀ e, vm'.key e = s.sys.vm.key e := by
    intro e
    rw [ImportVm.key, ImportVm.key, hs.same.desc]
  have hwhse : ∀ {e}, e ∈ vm'.impWhse ↔ e ∈ s.sys.vm.impWhse := by
    intro e
    rw [hs.same.impWhse]
  refine ⟨hsys, hs.same.memProto.trans h.memProto, hs.impRxq.symm, ?_,
    (nodup_ackScanTraced h.once).1, ?_, ?_, ?_, ?_, ?_, ?_, ?_, ?_, ?_⟩
  · intro y k hy
    obtain ⟨x, hx, heq⟩ := mem_of_mem_ackScanTraced hy
    obtain ⟨m, hm, hwaits⟩ := awaits_eq_true.mp (h.awaited x k hx)
    rw [heq] at hwaits
    exact awaits_eq_true.mpr ⟨m, hs.get_of_ne (h.ne_of_mem_scan hs.get hy) hm, hwaits⟩
  · intro k p q hp hq
    exact h.place k p q (hs.at_of hp) (hs.at_of hq)
  · intro k p hp
    exact Nat.lt_of_lt_of_eq (h.known k p (hs.at_of hp)) (Pool.next_set _ _).symm
  · exact h.waits_of_old fun j _ _ hj ↦ hs.get_of_not_acked hj (fun _ ↦ by rintro ⟨⟩)
  · intro entry hentry
    rcases List.mem_append.mp hentry with hentry | hentry
    · exact h.own entry hentry
    · obtain ⟨⟨ack, k⟩, hack, rfl⟩ := List.mem_map.mp hentry
      exact (h.own_of_taken hs.get (Option.mem_toList.mp hack)).symm
  · exact h.granted_of_old hs.grants_of (fun _ ↦ hwhse.mp) hkey rfl
  · intro e he
    change (s.look i vchan param vm' next).Grants (vm'.key e) _ ∨ _
    rw [hkey]
    rcases h.kept e (hwhse.mp he) with hg | ⟨m, hm, hworks⟩ | hdone
    · exact .inl (hs.grants_after h hg)
    · refine .inr (.inl ⟨m, hs.get_of_ne ?_ hm, hworks⟩)
      intro heq
      replace heq : s.producer e = i := heq
      rw [heq] at hm
      cases hs.get.symm.trans hm
      cases hworks
    · exact .inr (.inr hdone)
  · intro e he hstate
    change (vm'.desc e).importState = _ ∨ (vm'.desc e).importState = _ at hstate
    rw [hs.same.desc] at hstate
    exact h.imported e (hwhse.mp he) hstate
  · intro j vchan' e hj
    exact h.removed j vchan' e (hs.get_of_not_acked hj (fun _ ↦ by rintro ⟨⟩))
  · intro k
    refine h.acked_of_kept (fun _ ↦ id) (fun _ ↦ id) (fun j vchan' e hj ↦ .inr ⟨?_, rfl⟩)
      fun e he ↦ .inl ⟨hwhse.mpr he, rfl⟩
    refine hs.get_of_ne ?_ hj
    rintro rfl
    cases hs.get.symm.trans hj

end Scans

theorem Inv.advance_waiting (h : s.Inv)
    (hget : s.sys.calls.get i = some (.waiting vchan param))
    (hyoung : (passedOver (expectedAck vchan param.exportId) s.sys.vm.impRxq).all (fun a ↦
      !a.ack.impWhseAdded || a.age < qAgeThreshold) = true) :
    Inv { s.noteAdvance i ok sent (.waiting vchan param) with
      sys := s.advanced i ok (.waiting vchan param) } := by
  have hfst := ackScanTraced_fst (expectedAck vchan param.exportId) s.impRxq
  rw [h.queue] at hfst
  have hsys := h.sys_advanced hget ok
  have hsame := s.sys.vm.same_habImportAckFind (expectedAck vchan param.exportId) vchan
  -- how the wait ends, by what the walk takes
  have hfound : ∀ {ack k}, (ackScanTraced (expectedAck vchan param.exportId) s.impRxq).1 =
      some (ack, k) → (s.sys.vm.habImportAckFind (expectedAck vchan param.exportId) vchan).1 =
        (true, ack.impWhseAdded) := by
    intro ack k hack
    rw [hack] at hfst
    rw [ImportVm.habImportAckFind]
    simp only [← hfst.1, Option.map_some]
  have hnone : (ackScanTraced (expectedAck vchan param.exportId) s.impRxq).1 = none →
      (s.sys.vm.habImportAckFind (expectedAck vchan param.exportId) vchan).1 =
        (s.sys.vm.otherendClosed vchan.addr, false) := by
    intro hack
    rw [hack] at hfst
    rw [ImportVm.habImportAckFind]
    simp only [← hfst.1, Option.map_none]
  refine h.scanned hsys ⟨hget, hsame, ?_, hyoung, ?_, ?_⟩
  · have hleft : (s.sys.vm.habImportAckFind (expectedAck vchan param.exportId) vchan).2.impRxq =
        (ImportVm.ackScan (expectedAck vchan param.exportId) s.sys.vm.impRxq).2 := by
      rw [ImportVm.habImportAckFind]
      split <;> rfl
    exact hleft.trans hfst.2.symm
  · intro m hm
    cases hack : (ackScanTraced (expectedAck vchan param.exportId) s.impRxq).1 with
    | some taken =>
        obtain ⟨ack, k⟩ := taken
        obtain rfl := h.own_of_taken hget hack
        have hpair : (s.sys.vm.habImportAckFind ⟨param.exportId, vchan.id, vchan.otherendId, false⟩
          vchan).1 = (true, ack.impWhseAdded) := hfound hack
        simp only [ImportStage.run, hpair, if_true] at hm
        cases hm
        cases hadded : ack.impWhseAdded with
        | true => exact .inr (.inr ⟨rfl, ack, hack, hadded⟩)
        | false => exact .inr (.inl rfl)
    | none =>
        have hpair : (s.sys.vm.habImportAckFind ⟨param.exportId, vchan.id, vchan.otherendId, false⟩
          vchan).1 = (s.sys.vm.otherendClosed vchan.addr, false) := hnone hack
        simp only [ImportStage.run, hpair] at hm
        split at hm
        · cases hm
          exact .inr (.inl rfl)
        · split at hm
          · cases hm
            exact .inl rfl
          · cases hm
  · intro ack hack
    have hpair : (s.sys.vm.habImportAckFind ⟨param.exportId, vchan.id, vchan.otherendId, false⟩
      vchan).1 = (true, ack.impWhseAdded) := hfound hack
    simp only [ImportStage.run, hpair, if_true]

end Queue

end ImportTrace

end Hab
