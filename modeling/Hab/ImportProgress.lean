import Hab.ImportPlaces

/-!
# Calls that have their answer

A call that neither waits nor handles a message takes its descriptor from step to step,
until its import has succeeded or the descriptor is given back.
-/

namespace Hab

namespace ImportTrace

variable {s : ImportTrace} {i k : ℕ} {key : UInt32 × HabPchan} {stage : ImportStage}

theorem Inv.imported_setImportState (h : s.Inv) {e : ℕ} {state : ExpDescState}
    {succeeded : ℕ → Bool} (hstate : state = .imported ∨ state = .unimporting →
      e ∈ s.sys.vm.impWhse → succeeded (s.producer e) = true)
    (hsucceeded : ∀ k, s.succeeded k = true → succeeded k = true) :
    ∀ e' ∈ s.sys.vm.impWhse,
      ((s.sys.vm.setImportState e state).desc e').importState = .imported ∨
        ((s.sys.vm.setImportState e state).desc e').importState = .unimporting →
          succeeded (s.producer e') = true := by
  intro e' he' hstate'
  by_cases hee : e' = e
  · subst hee
    rw [ImportVm.desc_setImportState] at hstate'
    exact hstate hstate' he'
  · rw [(ImportVm.local_setImportState s.sys.vm e state).desc e' hee] at hstate'
    exact hsucceeded _ (h.imported e' he' hstate')

/-- What becomes of a call that neither waits nor handles a message, and what it does to
the descriptors. -/
structure GoesOn (s : ImportTrace) (i : ℕ) (stage : ImportStage) (vm' : ImportVm)
    (next : Option ImportStage) (unimport succeeded : ℕ → Bool) : Prop where
  memProto : vm'.memProto = s.sys.vm.memProto
  impRxq : vm'.impRxq = s.sys.vm.impRxq
  impWhse : ∀ e ∈ vm'.impWhse, e ∈ s.sys.vm.impWhse
  key : ∀ e, vm'.key e = s.sys.vm.key e
  sent : ∀ k, s.unimport k = true → unimport k = true
  done : ∀ k, s.succeeded k = true → succeeded k = true
  quiet : ∀ m, next = some m → m.listens = false
  seeks : ∀ m key, next = some m → m.seeks key = true → stage.seeks key = true
  kept : ∀ e ∈ vm'.impWhse, s.producer e = i →
    stage.seeks (s.sys.vm.key e) = true ∨ stage.worksOn e = true →
      (∃ m, next = some m ∧ (m.seeks (s.sys.vm.key e) = true ∨ m.worksOn e = true)) ∨
        succeeded i = true
  imported : ∀ e ∈ vm'.impWhse, (vm'.desc e).importState = .imported ∨
    (vm'.desc e).importState = .unimporting → succeeded (s.producer e) = true
  removed : ∀ vchan e, next = some (.removing vchan e) →
    unimport (s.producer e) = true ∨ succeeded (s.producer e) = true
  gone : ∀ e ∈ s.sys.vm.impWhse, e ∉ vm'.impWhse →
    unimport (s.producer e) = true ∨ succeeded (s.producer e) = true

/-- The call `i` has gone on. -/
def goOn (s : ImportTrace) (i : ℕ) (vm' : ImportVm) (next : Option ImportStage)
    (unimport succeeded : ℕ → Bool) : ImportTrace :=
  { s with
    sys := ⟨vm', s.sys.calls.set i next⟩
    unimport := unimport
    succeeded := succeeded }

section GoesOn

variable {vm' : ImportVm} {next : Option ImportStage} {unimport succeeded : ℕ → Bool}

theorem GoesOn.sameListeners (hgoesOn : s.GoesOn i stage vm' next unimport succeeded)
    (hget : s.sys.calls.get i = some stage) (hlistens : stage.listens = false) :
    s.SameListeners (s.goOn i vm' next unimport succeeded) := by
  intro j m hm
  refine (Pool.get_set (Pool.lt_next hget)).trans ⟨?_, fun hj ↦ ?_⟩
  · rintro (⟨-, hmnext⟩ | ⟨-, hj⟩)
    · rw [hgoesOn.quiet m hmnext] at hm
      cases hm
    · exact hj
  · by_cases hji : j = i
    · subst hji
      cases hget.symm.trans hj
      rw [hlistens] at hm
      cases hm
    · exact .inr ⟨hji, hj⟩

/-- A claim on a key was there before. -/
theorem GoesOn.grants_of (hgoesOn : s.GoesOn i stage vm' next unimport succeeded)
    (hget : s.sys.calls.get i = some stage) (hlistens : stage.listens = false)
    (hg : (s.goOn i vm' next unimport succeeded).Grants key k) : s.Grants key k := by
  have hsame := hgoesOn.sameListeners hget hlistens
  cases hg with
  | handler j vchan ack e hj hk hgrants =>
      exact .handler j vchan ack e ((hsame j _ rfl).mp hj) hk hgrants
  | queued x hx hgrants => exact .queued x hx hgrants
  | call m hm hmseeks =>
      rcases (Pool.get_set (Pool.lt_next hget)).mp hm with ⟨rfl, hmnext⟩ | ⟨-, hm⟩
      · exact .call stage hget (hgoesOn.seeks m key hmnext hmseeks)
      · exact .call m hm hmseeks

/-- A call that had a descriptor for itself still has, or has succeeded. -/
theorem GoesOn.kept_of_call (hgoesOn : s.GoesOn i stage vm' next unimport succeeded)
    (hget : s.sys.calls.get i = some stage) {e : ℕ} (he : e ∈ vm'.impWhse) {m : ImportStage}
    (hm : s.sys.calls.get (s.producer e) = some m)
    (hdoes : m.seeks (s.sys.vm.key e) = true ∨ m.worksOn e = true) :
    (s.goOn i vm' next unimport succeeded).Grants (vm'.key e) (s.producer e) ∨
      (∃ m', (s.sys.calls.set i next).get (s.producer e) = some m' ∧ m'.worksOn e = true) ∨
        succeeded (s.producer e) = true := by
  have hi := Pool.lt_next hget
  have hcall : (∃ m', (s.sys.calls.set i next).get (s.producer e) = some m' ∧
      (m'.seeks (s.sys.vm.key e) = true ∨ m'.worksOn e = true)) ∨
        succeeded (s.producer e) = true := by
    by_cases hproducer : s.producer e = i
    · rw [hproducer] at hm ⊢
      cases hget.symm.trans hm
      rcases hgoesOn.kept e he hproducer hdoes with ⟨m', hm', hdoes'⟩ | hdone
      · exact .inl ⟨m', (Pool.get_set hi).mpr (.inl ⟨rfl, hm'⟩), hdoes'⟩
      · exact .inr hdone
    · exact .inl ⟨m, (Pool.get_set hi).mpr (.inr ⟨hproducer, hm⟩), hdoes⟩
  rcases hcall with ⟨m', hm', hseeks' | hworks'⟩ | hdone
  · rw [hgoesOn.key]
    exact .inl (.call m' hm' hseeks')
  · exact .inr (.inl ⟨m', hm', hworks'⟩)
  · exact .inr (.inr hdone)

/-- A descriptor is there for a call as before. -/
theorem GoesOn.kept_of (hgoesOn : s.GoesOn i stage vm' next unimport succeeded) (h : s.Inv)
    (hget : s.sys.calls.get i = some stage) (hlistens : stage.listens = false) {e : ℕ}
    (he : e ∈ vm'.impWhse) :
    (s.goOn i vm' next unimport succeeded).Grants (vm'.key e) (s.producer e) ∨
      (∃ m', (s.sys.calls.set i next).get (s.producer e) = some m' ∧ m'.worksOn e = true) ∨
        succeeded (s.producer e) = true := by
  have hsame := hgoesOn.sameListeners hget hlistens
  rcases h.kept e (hgoesOn.impWhse e he) with hg | ⟨m, hm, hworks⟩ | hdone
  · cases hg with
    | handler j vchan ack e' hj hk hgrants =>
        rw [← hgoesOn.key] at hgrants
        exact .inl (.handler j vchan ack e' ((hsame j _ rfl).mpr hj) hk hgrants)
    | queued x hx hgrants =>
        rw [← hgoesOn.key] at hgrants
        exact .inl (.queued x hx hgrants)
    | call m hm hmseeks => exact hgoesOn.kept_of_call hget he hm (.inl hmseeks)
  · exact hgoesOn.kept_of_call hget he hm (.inr hworks)
  · exact .inr (.inr (hgoesOn.done _ hdone))

theorem Inv.goesOn (h : s.Inv) (hget : s.sys.calls.get i = some stage)
    (hlistens : stage.listens = false) (hsys : ImportSystem.Inv ⟨vm', s.sys.calls.set i next⟩)
    (hgoesOn : s.GoesOn i stage vm' next unimport succeeded) :
    (s.goOn i vm' next unimport succeeded).Inv := by
  have hsame := hgoesOn.sameListeners hget hlistens
  refine ⟨hsys, hgoesOn.memProto.trans h.memProto, h.queue.trans hgoesOn.impRxq.symm, ?_, h.once,
    ?_, ?_, ?_, h.own, ?_, ?_, hgoesOn.imported, ?_, ?_⟩
  · intro x k hx
    exact hsame.awaits (h.awaited x k hx)
  · intro k p q hp hq
    exact h.place k p q (hsame.at (fun _ ↦ id) rfl rfl hp) (hsame.at (fun _ ↦ id) rfl rfl hq)
  · intro k p hp
    exact Nat.lt_of_lt_of_eq (h.known k p (hsame.at (fun _ ↦ id) rfl rfl hp))
      (Pool.next_set _ _).symm
  · exact h.waits_of_old fun j _ _ hj ↦ (hsame j _ rfl).mp hj
  · exact h.granted_of_old (hgoesOn.grants_of hget hlistens) hgoesOn.impWhse hgoesOn.key rfl
  · exact fun e he ↦ hgoesOn.kept_of h hget hlistens he
  · intro j vchan e hj
    rcases (Pool.get_set (Pool.lt_next hget)).mp hj with ⟨-, hj⟩ | ⟨-, hj⟩
    · exact hgoesOn.removed vchan e hj
    · exact (h.removed j vchan e hj).imp (hgoesOn.sent _) (hgoesOn.done _)
  · intro k
    refine h.acked_of_kept hgoesOn.sent hgoesOn.done (fun j _ _ hj ↦ .inr ⟨?_, rfl⟩) fun e he ↦ ?_
    · exact (hsame j _ rfl).mpr hj
    · by_cases he' : e ∈ vm'.impWhse
      · exact .inl ⟨he', rfl⟩
      · exact .inr (hgoesOn.gone e he he')

end GoesOn

/-! ## Its steps -/

section Advance

variable {ok sent : Bool} {vchan : ImportVchan} {param : HabImport} {e : ℕ}

/-- The importing side after a step of a call. -/
def advanced (s : ImportTrace) (i : ℕ) (ok : Bool) (stage : ImportStage) : ImportSystem :=
  ⟨(stage.run s.sys.vm ok).1, s.sys.calls.set i (stage.run s.sys.vm ok).2⟩

theorem Inv.sys_advanced (h : s.Inv) (hget : s.sys.calls.get i = some stage) (ok : Bool) :
    (s.advanced i ok stage).Inv :=
  h.sys.advance hget (h.sys.acked h.memProto (.advance i ok))

theorem Inv.advance_acked (h : s.Inv) {scanImpWhse : Bool}
    (hget : s.sys.calls.get i = some (.acked vchan param scanImpWhse))
    (htimely : (!scanImpWhse || !s.sys.vm.otherendClosed vchan.addr) = true) :
    Inv { s with sys := s.advanced i ok (.acked vchan param scanImpWhse) } := by
  have hrun : (ImportStage.acked vchan param scanImpWhse).run s.sys.vm ok =
      (s.sys.vm, if scanImpWhse then some (.finding vchan param) else none) := by
    cases scanImpWhse with
    | false => simp [ImportStage.run]
    | true =>
        simp only [Bool.not_true, Bool.false_or, Bool.not_eq_true'] at htimely
        simp [ImportStage.run, htimely]
  have hsys := h.sys_advanced hget ok
  rw [advanced, hrun] at hsys ⊢
  refine h.goesOn hget rfl hsys ⟨rfl, rfl, fun _ ↦ id, fun _ ↦ rfl, fun _ ↦ id, fun _ ↦ id, ?_,
    ?_, ?_, h.imported, ?_, fun _ he hout ↦ absurd he hout⟩
  · intro m hm
    cases scanImpWhse with
    | false => cases hm
    | true =>
        cases hm
        rfl
  · intro m key hm hseeks
    cases scanImpWhse with
    | false => cases hm
    | true =>
        cases hm
        exact hseeks
  · rintro e he - (hseeks | hdoes)
    · cases scanImpWhse with
      | false => cases hseeks
      | true => exact .inl ⟨_, rfl, .inl hseeks⟩
    · cases hdoes
  · intro vchan' e hm
    cases scanImpWhse <;> cases hm

/-- The import finds the descriptor that has come for it. -/
theorem Inv.advance_finding (h : s.Inv)
    (hget : s.sys.calls.get i = some (.finding vchan param)) :
    Inv { s with sys := s.advanced i ok (.finding vchan param) } := by
  have hgrants : s.Grants (param.exportId, vchan.pchan) i :=
    .call _ hget (decide_eq_true rfl)
  obtain ⟨e, he, hkey, -, hinit, -⟩ := h.exists_of_grants hgrants
  have hfind : s.sys.vm.habRbExpFind param.exportId vchan.pchan = some e := by
    cases hfind : s.sys.vm.habRbExpFind param.exportId vchan.pchan with
    | none => exact absurd hkey (ImportVm.habRbExpFind_eq_none hfind e he)
    | some e' =>
        obtain ⟨he', hkey'⟩ := ImportVm.habRbExpFind_eq_some hfind
        rw [h.sys.heap.keys e' he' e he (hkey'.trans hkey.symm)]
  have hrun : (ImportStage.finding vchan param).run s.sys.vm ok =
      (s.sys.vm.setImportState e .importing, some (.importing vchan param e)) := by
    simp only [ImportStage.run, h.sys.heap.touch_impWhse_eq, hfind, hinit, if_true]
  have hsys := h.sys_advanced hget ok
  rw [advanced, hrun] at hsys ⊢
  refine h.goesOn hget rfl hsys ⟨rfl, rfl, fun _ ↦ id,
    fun e' ↦ ImportVm.key_setImportState e e' .importing, fun _ ↦ id, fun _ ↦ id, ?_, ?_, ?_, ?_,
    ?_, fun _ he hout ↦ absurd he hout⟩
  · rintro _ ⟨⟩
    rfl
  · rintro _ key ⟨⟩ ⟨⟩
  · rintro e' he' - (hseeks | hdoes)
    · have hkey' : (param.exportId, vchan.pchan) = s.sys.vm.key e' := of_decide_eq_true hseeks
      obtain rfl := h.sys.heap.keys e he e' he' (hkey.trans hkey')
      exact .inl ⟨_, rfl, .inr (decide_eq_true rfl)⟩
    · cases hdoes
  · apply h.imported_setImportState
    · rintro (hstate | hstate) <;> cases hstate
    · exact fun _ ↦ id
  · rintro _ _ ⟨⟩

/-- A call goes on working on its descriptor. -/
theorem Inv.advance_working (h : s.Inv) (hget : s.sys.calls.get i = some stage)
    {m : ImportStage} (hrun : stage.run s.sys.vm ok = (s.sys.vm.touch [e], some m))
    (hlistens : stage.listens = false) (hm : m.listens = false)
    (hseeks : ∀ key, m.seeks key = false) (hsought : ∀ key, stage.seeks key = false)
    (hworks : ∀ e', stage.worksOn e' = true → m.worksOn e' = true)
    (hremoving : ∀ vchan e', m ≠ .removing vchan e') :
    Inv { s with sys := s.advanced i ok stage } := by
  have hsys := h.sys_advanced hget ok
  rw [advanced, hrun] at hsys ⊢
  refine h.goesOn hget hlistens hsys ⟨rfl, rfl, fun _ ↦ id, fun _ ↦ rfl, fun _ ↦ id, fun _ ↦ id,
    ?_, ?_, ?_, h.imported, ?_, fun _ he hout ↦ absurd he hout⟩
  · rintro _ ⟨⟩
    exact hm
  · rintro _ key ⟨⟩ hkey
    rw [hseeks] at hkey
    cases hkey
  · rintro e' he' - (hkey | hdoes)
    · rw [hsought] at hkey
      cases hkey
    · exact .inl ⟨m, rfl, .inr (hworks e' hdoes)⟩
  · intro vchan e' heq
    exact absurd (Option.some.inj heq) (hremoving vchan e')

theorem Inv.advance_importing (h : s.Inv)
    (hget : s.sys.calls.get i = some (.importing vchan param e)) :
    Inv { s with sys := s.advanced i ok (.importing vchan param e) } := by
  by_cases hfits : (s.sys.vm.desc e).payloadCount * pageSize % 2 ^ 32 =
      param.sizebytes.toNat ∧ ok
  · have hrun : (ImportStage.importing vchan param e).run s.sys.vm ok =
        (s.sys.vm.touch [e], some (.mapped vchan e)) := by
      simp only [ImportStage.run, if_pos hfits]
    apply h.advance_working hget hrun
    · rfl
    · rfl
    · exact fun _ ↦ rfl
    · exact fun _ ↦ rfl
    · exact fun _ hworks ↦ hworks
    · rintro _ _ ⟨⟩
  · have hrun : (ImportStage.importing vchan param e).run s.sys.vm ok =
        (s.sys.vm.touch [e], some (.failed vchan e)) := by
      simp only [ImportStage.run, if_neg hfits]
    apply h.advance_working hget hrun
    · rfl
    · rfl
    · exact fun _ ↦ rfl
    · exact fun _ ↦ rfl
    · exact fun _ hworks ↦ hworks
    · rintro _ _ ⟨⟩

theorem Inv.advance_unimporting (h : s.Inv)
    (hget : s.sys.calls.get i = some (.unimporting vchan e)) :
    Inv { s with sys := s.advanced i ok (.unimporting vchan e) } := by
  have hproto : s.sys.vm.memProto vchan.pchan = true := by rw [h.memProto]
  cases ok with
  | true =>
      have hrun : (ImportStage.unimporting vchan e).run s.sys.vm true =
          (s.sys.vm.touch [e], some (.undoing vchan e)) := by
        simp only [ImportStage.run, hproto, not_true_eq_false, if_false, if_true]
      apply h.advance_working hget hrun
      · rfl
      · rfl
      · exact fun _ ↦ rfl
      · exact fun _ ↦ rfl
      · exact fun _ hworks ↦ hworks
      · rintro _ _ ⟨⟩
  | false =>
      have hrun : (ImportStage.unimporting vchan e).run s.sys.vm false =
          (s.sys.vm.touch [e], some (.restoring vchan e)) := by
        simp only [ImportStage.run, Bool.false_eq_true, not_false_eq_true, if_true]
      apply h.advance_working hget hrun
      · rfl
      · rfl
      · exact fun _ ↦ rfl
      · exact fun _ ↦ rfl
      · exact fun _ hworks ↦ hworks
      · rintro _ _ ⟨⟩

/-- A call makes its descriptor EXP_DESC_IMPORTED and returns; an import has then
succeeded. -/
theorem Inv.advance_imported (h : s.Inv) (hget : s.sys.calls.get i = some stage)
    {succeeded : ℕ → Bool}
    (hrun : stage.run s.sys.vm ok = ((s.sys.vm.touch [e]).setImportState e .imported, none))
    (hlistens : stage.listens = false) (hsought : ∀ key, stage.seeks key = false)
    (hworks : ∀ e', stage.worksOn e' = true → e' = e) (hsucceeded : ∀ k, s.succeeded k = true →
      succeeded k = true)
    (hdone : e ∈ s.sys.vm.impWhse → succeeded (s.producer e) = true) :
    Inv { s with sys := s.advanced i ok stage, succeeded := succeeded } := by
  have hsys := h.sys_advanced hget ok
  rw [advanced, hrun] at hsys ⊢
  refine h.goesOn hget hlistens hsys ⟨rfl, rfl, fun _ ↦ id,
    fun e' ↦ ImportVm.key_setImportState e e' .imported, fun _ ↦ id, hsucceeded, ?_, ?_, ?_, ?_,
    ?_, fun _ he hout ↦ absurd he hout⟩
  · rintro _ ⟨⟩
  · rintro _ _ ⟨⟩
  · rintro e' he' hproducer (hkey | hdoes)
    · rw [hsought] at hkey
      cases hkey
    · obtain rfl := hworks e' hdoes
      exact .inr (hproducer ▸ hdone he')
  · exact h.imported_setImportState (fun _ ↦ hdone) hsucceeded
  · rintro _ _ ⟨⟩

theorem Inv.advance_mapped (h : s.Inv) (hget : s.sys.calls.get i = some (.mapped vchan e)) :
    Inv { s with
      sys := s.advanced i ok (.mapped vchan e)
      succeeded := Function.update s.succeeded i true } := by
  apply h.advance_imported hget
  · rfl
  · rfl
  · exact fun _ ↦ rfl
  · intro e' hworks
    exact (of_decide_eq_true hworks).symm
  · intro k hk
    by_cases hki : k = i
    · subst hki
      exact Function.update_self _ _ _
    · exact (Function.update_of_ne hki _ _).trans hk
  · intro he
    by_cases hproducer : s.producer e = i
    · rw [hproducer]
      exact Function.update_self _ _ _
    · rcases h.producer_of_worksOn he hget (decide_eq_true rfl) with heq | hdone
      · exact absurd heq hproducer
      · exact (Function.update_of_ne hproducer _ _).trans hdone

theorem Inv.advance_restoring (h : s.Inv)
    (hget : s.sys.calls.get i = some (.restoring vchan e)) :
    Inv { s with sys := s.advanced i ok (.restoring vchan e) } := by
  apply h.advance_imported hget
  · rfl
  · rfl
  · exact fun _ ↦ rfl
  · intro e' hworks
    exact (of_decide_eq_true hworks).symm
  · exact fun _ ↦ id
  · intro he
    obtain ⟨-, -, -, hstate⟩ := (h.sys.stages i _ hget).owned e (decide_eq_true rfl)
    exact h.imported e he (.inr hstate)

theorem Inv.advance_failed (h : s.Inv) (hget : s.sys.calls.get i = some (.failed vchan e)) :
    Inv { s with sys := s.advanced i ok (.failed vchan e) } := by
  have hrun : (ImportStage.failed vchan e).run s.sys.vm ok =
      ((s.sys.vm.touch [e]).setImportState e .init, some (.undoing vchan e)) := by
    simp only [ImportStage.run, h.memProto, if_true]
  have hsys := h.sys_advanced hget ok
  rw [advanced, hrun] at hsys ⊢
  refine h.goesOn hget rfl hsys ⟨rfl, rfl, fun _ ↦ id,
    fun e' ↦ ImportVm.key_setImportState e e' .init, fun _ ↦ id, fun _ ↦ id, ?_, ?_, ?_, ?_,
    ?_, fun _ he hout ↦ absurd he hout⟩
  · rintro _ ⟨⟩
    rfl
  · rintro _ key ⟨⟩ ⟨⟩
  · rintro e' he' - (hseeks | hdoes)
    · cases hseeks
    · exact .inl ⟨_, rfl, .inr hdoes⟩
  · apply h.imported_setImportState
    · rintro (hstate | hstate) <;> cases hstate
    · exact fun _ ↦ id
  · rintro _ _ ⟨⟩

/-- The UNIMPORT for a descriptor is sent, or its import had succeeded. -/
theorem Inv.advance_undoing (h : s.Inv)
    (hget : s.sys.calls.get i = some (.undoing vchan e))
    (htimely : (sent || (s.sys.vm.desc e).importState ≠ .init) = true) :
    Inv { s with
      sys := s.advanced i ok (.undoing vchan e)
      unimport := Function.update s.unimport (s.producer e)
        (s.unimport (s.producer e) || sent) } := by
  have hmono : ∀ k, s.unimport k = true → Function.update s.unimport (s.producer e)
      (s.unimport (s.producer e) || sent) k = true := by
    intro k hk
    by_cases hke : k = s.producer e
    · subst hke
      simp [hk]
    · exact (Function.update_of_ne hke _ _).trans hk
  have hsys := h.sys_advanced hget ok
  refine h.goesOn hget rfl hsys ⟨rfl, rfl, fun _ ↦ id, fun _ ↦ rfl, hmono, fun _ ↦ id, ?_, ?_, ?_,
    h.imported, ?_, fun _ he hout ↦ absurd he hout⟩
  · rintro _ ⟨⟩
    rfl
  · rintro _ key ⟨⟩ ⟨⟩
  · rintro e' he' - (hseeks | hdoes)
    · cases hseeks
    · exact .inl ⟨_, rfl, .inr hdoes⟩
  · rintro _ _ ⟨⟩
    cases sent with
    | true => exact .inl (by simp)
    | false =>
        obtain ⟨-, -, hin, hstate⟩ := (h.sys.stages i _ hget).owned e (decide_eq_true rfl)
        rcases hstate with hstate | ⟨hinit, -⟩
        · exact .inr (h.imported e (hin.mpr (decide_eq_true rfl)) (.inr hstate))
        · simp [hinit] at htimely

theorem Inv.advance_removing (h : s.Inv)
    (hget : s.sys.calls.get i = some (.removing vchan e)) :
    Inv { s with sys := s.advanced i ok (.removing vchan e) } := by
  have hsys := h.sys_advanced hget ok
  have hout : e ∉ s.sys.vm.impWhse.erase e := h.sys.heap.nodup.not_mem_erase
  refine h.goesOn hget rfl hsys ⟨rfl, rfl, fun _ ↦ List.mem_of_mem_erase, fun _ ↦ rfl, fun _ ↦ id,
    fun _ ↦ id, ?_, ?_, ?_, ?_, ?_, ?_⟩
  · rintro _ ⟨⟩
    rfl
  · rintro _ key ⟨⟩ ⟨⟩
  · rintro e' he' - (hseeks | hdoes)
    · cases hseeks
    · obtain rfl : e = e' := of_decide_eq_true hdoes
      exact absurd he' hout
  · intro e' he' hstate
    exact h.imported e' (List.mem_of_mem_erase he') hstate
  · rintro _ _ ⟨⟩
  · intro e' he' hgone
    by_cases hee : e' = e
    · subst hee
      exact h.removed i vchan e' hget
    · exact absurd ((List.mem_erase_of_ne hee).mpr he') hgone

theorem Inv.advance_freeing (h : s.Inv) (hget : s.sys.calls.get i = some (.freeing vchan e)) :
    Inv { s with sys := s.advanced i ok (.freeing vchan e) } := by
  have hsys := h.sys_advanced hget ok
  refine h.goesOn hget rfl hsys ⟨rfl, rfl, fun _ ↦ id, fun _ ↦ rfl, fun _ ↦ id, fun _ ↦ id, ?_, ?_,
    ?_, h.imported, ?_, fun _ he hout ↦ absurd he hout⟩
  · rintro _ ⟨⟩
  · rintro _ _ ⟨⟩
  · rintro e' he' - (hseeks | hdoes)
    · cases hseeks
    · cases hdoes
  · rintro _ _ ⟨⟩

end Advance

end ImportTrace

end Hab
