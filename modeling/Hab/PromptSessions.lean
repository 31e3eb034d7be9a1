import Hab.Stack

/-!
# One message at a time

Where each message of a VM is received before anything else is done, all that the VMs can
do over two lossless channels they can do over transports that hand on a short message
whenever they rest.
-/

namespace Hab

/-- A message that fits in the smallest buffers, and gets no time stamp on its way. -/
def HabMsg.Short (msg : HabMsg) : Prop := msg.payload.length ≤ 512 ∧ msg.Plain

instance (msg : HabMsg) : Decidable msg.Short :=
  match msg with
  | .data _ _ message => inferInstanceAs (Decidable (_ ∧ message.type ≠ .profile))
  | .request _ _ | .close _ _ => inferInstanceAs (Decidable (_ ∧ True))

namespace Link

/-- A step of one end, and the other receives what it sends. -/
def promptStep (p q : HabPchan) (s : Link) : LinkAct → Option Link
  | .front act env =>
      (s.step p q (.front act env)).bind fun t ↦
        match t.toBack with
        | [] => some t
        | [msg] => if msg.Short then t.step p q (.deliverBack {}) else none
        | _ => none
  | .back act env =>
      (s.step p q (.back act env)).bind fun t ↦
        match t.toFront with
        | [] => some t
        | [msg] => if msg.Short then t.step p q (.deliverFront {}) else none
        | _ => none
  | .deliverBack _ | .deliverFront _ => none

end Link

/-- A transport that hands on any short message; it can do so as often as the number
says. -/
structure Carrier.Prompt {σ ε : Type*} (c : Carrier σ ε) (R : ℕ → σ → Prop) : Prop where
  hands : ∀ {n s node renv}, R (n + 1) s → node.payload.length ≤ 512 → renv.alloc = true →
    renv.otherendClosed = false → ∃ t, R n t ∧ c.Hands s node renv t
  length_eq : ∀ {n s}, R n s → (c.handled s).length = (c.accepted s).length
  mono : ∀ {n s}, R (n + 1) s → R n s

/-! ## One direction -/

section Direction

variable {σ ε κ α : Type*} {c : Carrier σ ε} {step : κ → α → Option κ} {guard : κ → α → Prop}
  {pchan : HabPchan} {vm : HabVm} {s u v w : σ} {e : ε}

/-- The steps of the transport that ends at a VM, in a system of which only the two
change. -/
structure Carrier.EndsAt (c : Carrier σ ε) (step : κ → α → Option κ) (guard : κ → α → Prop)
    (pchan : HabPchan) (put : HabVm → σ → κ) (act : ε → α) : Prop where
  step_eq : ∀ vm s e, step (put vm s) (act e) =
    (c.goOn s e).map fun t ↦ put (c.deliver s t vm pchan {}) t
  guard_iff : ∀ vm s e, guard (put vm s) (act e) ↔
    c.Undisturbed s e ∧ ∀ t, c.goOn s e = some t →
      ∀ r, c.newlyHandled s t = [r] → r.Agrees vm pchan {}

theorem Carrier.goOn_of_accepted_eq (hstep : c.step s e = some u)
    (haccepted : c.accepted u = c.accepted s) : c.goOn s e = some u := by
  rw [Carrier.goOn, hstep, Option.bind_some, Carrier.newlyAccepted, haccepted, List.drop_length]
  exact if_pos rfl

variable {put : HabVm → σ → κ} {act : ε → α}

theorem Carrier.EndsAt.leads_rests (h : c.EndsAt step guard pchan put act) (vm : HabVm)
    (hrests : c.Rests u v) : Runs.Leads step guard (put vm u) (put vm v) := by
  refine hrests.map (put vm) ?_
  rintro s e t ⟨hguard, hsame⟩ hstep
  obtain ⟨haccepted, hhandled⟩ := hsame t hstep
  have hgoOn := c.goOn_of_accepted_eq hstep haccepted
  have hnone : c.newlyHandled s t = [] := by
    rw [Carrier.newlyHandled, hhandled, List.drop_length]
  refine .single (a := act e) ((h.guard_iff vm s e).mpr ⟨hguard, ?_⟩) ?_
  · intro t' ht' r hr
    rw [hgoOn] at ht'
    cases ht'
    rw [hnone] at hr
    cases hr
  · rw [h.step_eq, hgoOn, Option.map_some, Carrier.deliver, hnone]

theorem Carrier.EndsAt.leads_returns (h : c.EndsAt step guard pchan put act) {r : Received}
    (hreturns : c.Returns v e r w) (hagrees : r.Agrees vm pchan {}) :
    Runs.Leads step guard (put vm v) (put (vm.habMsgRecv pchan {} r) w) := by
  have hgoOn := c.goOn_of_accepted_eq hreturns.step hreturns.accepted
  have hnew : c.newlyHandled v w = [r] := by
    rw [Carrier.newlyHandled, hreturns.handled, List.drop_left]
  refine .single (a := act e) ((h.guard_iff vm v e).mpr ⟨hreturns.undisturbed, ?_⟩) ?_
  · intro t ht r' hr'
    rw [hgoOn] at ht
    cases ht
    rw [hnew] at hr'
    cases hr'
    exact hagrees
  · rw [h.step_eq, hgoOn, Option.map_some, Carrier.deliver, hnew]

/-- A short message is accepted, and the VM receives it as it was sent. -/
theorem Carrier.Prompt.exists_leads {R : ℕ → σ → Prop} (hc : c.Prompt R)
    (h : c.EndsAt step guard pchan put act) (hreached : c.Reached s) {n : ℕ} (hR : R (n + 1) s)
    {msg : HabMsg} (hsound : msg.Sound) (hshort : msg.Short) (vm : HabVm) :
    ∃ e u t, c.Accepts s e (msg.node hsound) u ∧ R n t ∧
      Runs.Leads step guard (put vm u) (put (vm.receive pchan {} msg) t) := by
  let node := msg.node hsound
  -- the call of `hab_msg_recv` finds what the VM has
  let renv : RecvEnv := ⟨(vm.vchanGet pchan (habVcidGetId node.header.getId)
    node.header.sessionId).isSome, false, true, true⟩
  obtain ⟨t, ht, e, e', r, u, v, w, haccepts, hrests, hreturns, henv, hrests'⟩ :=
    @hc.hands n s node renv hR hshort.1 rfl rfl
  obtain ⟨sequence, clock, hgets⟩ := Carrier.Returns.gets hreached (hc.length_eq hR) haccepts
    hrests hreturns
  have hagrees : r.Agrees vm pchan {} := by
    refine ⟨?_, by rw [henv], by rw [henv], rfl⟩
    rw [hgets.ofBytes_header, henv]
  have hreceive : vm.habMsgRecv pchan {} r = vm.receive pchan {} msg :=
    HabVm.habMsgRecv_eq ⟨rfl, rfl⟩ hsound hshort.2 hgets hagrees
  refine ⟨e, u, t, haccepts, ht, (h.leads_rests vm hrests).trans ?_⟩
  rw [← hreceive]
  exact (h.leads_returns hreturns hagrees).trans (h.leads_rests _ hrests')

theorem Carrier.Accepts.send_eq {msg : HabMsg} {hsound : msg.Sound}
    (h : c.Accepts s e (msg.node hsound) u) : c.send s [msg] (some e) = some u := by
  have hnew : c.newlyAccepted s u = [msg.node hsound] := by
    rw [Carrier.newlyAccepted, h.accepted, List.drop_left]
  have hnone : c.newlyHandled s u = [] := by
    rw [Carrier.newlyHandled, h.handled, List.drop_length]
  rw [Carrier.send, h.step, Option.bind_some, hnew, hnone]
  exact if_pos ⟨rfl, rfl⟩

end Direction

/-! ## Both directions -/

namespace Stack

variable {σ τ ε δ : Type*} {c : Carrier σ ε} {d : Carrier τ δ} {R : ℕ → σ → Prop}
  {S : ℕ → τ → Prop} {p q : HabPchan} {s : Stack σ τ} {l l' : Link} {n : ℕ}

theorem endsAt_back (front : HabVm) (v : τ) : c.EndsAt (step p q c d) (Undisturbed p q c d) q
    (fun back u ↦ ⟨front, back, u, v⟩) (fun e ↦ .toBack e {}) where
  step_eq := fun _ _ _ ↦ rfl
  guard_iff := fun _ _ _ ↦ Iff.rfl

theorem endsAt_front (back : HabVm) (u : σ) : d.EndsAt (step p q c d) (Undisturbed p q c d) p
    (fun front v ↦ ⟨front, back, u, v⟩) (fun e ↦ .toFront e {}) where
  step_eq := fun _ _ _ ↦ rfl
  guard_iff := fun _ _ _ ↦ Iff.rfl

/-- The VMs stand as over two channels that nothing is in, and both transports rest. -/
structure AtRest (c : Carrier σ ε) (d : Carrier τ δ) (R : ℕ → σ → Prop) (S : ℕ → τ → Prop)
    (n : ℕ) (s : Stack σ τ) (l : Link) : Prop where
  inv : Inv c d s
  toBack : R n s.toBack
  toFront : S n s.toFront
  link : l = ⟨s.front, s.back, [], []⟩

theorem Inv.leads (h : Inv c d s) {t : Stack σ τ}
    (hleads : Runs.Leads (Stack.step p q c d) (Undisturbed p q c d) s t) : Inv c d t :=
  hleads.invariant (fun _ _ _ hs hguard hstep ↦ (hs.step hguard hstep).1) h

section Acts

variable (p q c d) {act : VmAct} {env : Env} {vm : HabVm} {out : List (HabPchan × HabMsg)}

theorem leads_front {e : Option ε} {u : σ} (hact : act.onFront p = true)
    (hvm : s.front.step act env = some (vm, out)) (hplain : ∀ msg ∈ out.map Prod.snd, msg.Plain)
    (hguard : ∀ e', e = some e' → c.Undisturbed s.toBack e')
    (hsend : c.send s.toBack (out.map Prod.snd) e = some u) :
    Runs.Leads (step p q c d) (Undisturbed p q c d) s { s with front := vm, toBack := u } := by
  refine .single (a := .front act env e) ⟨hguard, ?_⟩ ?_
  · intro next hnext
    rw [hvm] at hnext
    cases hnext
    exact hplain
  · rw [step, if_pos hact, hvm, Option.bind_some, hsend]
    rfl

theorem leads_back {e : Option δ} {v : τ} (hact : act.onBack = true)
    (hvm : s.back.step act env = some (vm, out)) (hplain : ∀ msg ∈ out.map Prod.snd, msg.Plain)
    (hguard : ∀ e', e = some e' → d.Undisturbed s.toFront e')
    (hsend : d.send s.toFront (out.map Prod.snd) e = some v) :
    Runs.Leads (step p q c d) (Undisturbed p q c d) s { s with back := vm, toFront := v } := by
  refine .single (a := .back act env e) ⟨hguard, ?_⟩ ?_
  · intro next hnext
    rw [hvm] at hnext
    cases hnext
    exact hplain
  · rw [step, if_pos hact, hvm, Option.bind_some, hsend]
    rfl

end Acts

/-- Each step of the VMs, with what it sends received at once, takes at most one message
each way. -/
theorem AtRest.step (h : AtRest c d R S (n + 1) s l) (hc : c.Prompt R) (hd : d.Prompt S)
    {act : LinkAct} (hstep : l.promptStep p q act = some l') :
    ∃ t, Runs.Leads (step p q c d) (Undisturbed p q c d) s t ∧ AtRest c d R S n t l' := by
  have hlink := h.link
  subst hlink
  cases act with
  | front act env =>
      obtain ⟨mid, hmid, hstep⟩ := Option.bind_eq_some_iff.mp hstep
      obtain ⟨hact, hmid⟩ := Option.ite_none_right_eq_some.mp hmid
      obtain ⟨⟨vm, out⟩, hvm, rfl⟩ := Option.map_eq_some_iff.mp hmid
      dsimp only [List.nil_append] at hstep
      split at hstep
      next hout =>
        cases hstep
        have hleads := leads_front c d p q (e := none) (u := s.toBack) hact hvm
          (by simp [hout]) (fun e' he ↦ absurd he.symm (Option.some_ne_none e')) (by rw [hout]; rfl)
        exact ⟨_, hleads, h.inv.leads hleads, hc.mono h.toBack, hd.mono h.toFront, by rw [hout]⟩
      next msg hout =>
        obtain ⟨hshort, hstep⟩ := Option.ite_none_right_eq_some.mp hstep
        rw [hout] at hstep
        cases hstep
        have hsound : msg.Sound :=
          (HabVm.step_cases hvm).sound_out h.inv.front.2 (hout ▸ List.mem_singleton_self msg)
        obtain ⟨e, u, t, haccepts, ht, hreceives⟩ := hc.exists_leads
          (endsAt_back (p := p) (d := d) vm s.toFront) h.inv.toBack.reached h.toBack hsound hshort
          s.back
        have hsends := leads_front c d p q (e := some e) hact hvm
          (by simp [hout, hshort.2]) (by rintro e' ⟨⟩; exact haccepts.undisturbed)
          (by rw [hout, haccepts.send_eq])
        have hleads := hsends.trans hreceives
        exact ⟨_, hleads, h.inv.leads hleads, ht, hd.mono h.toFront, rfl⟩
      next => cases hstep
  | back act env =>
      obtain ⟨mid, hmid, hstep⟩ := Option.bind_eq_some_iff.mp hstep
      obtain ⟨hact, hmid⟩ := Option.ite_none_right_eq_some.mp hmid
      obtain ⟨⟨vm, out⟩, hvm, rfl⟩ := Option.map_eq_some_iff.mp hmid
      dsimp only [List.nil_append] at hstep
      split at hstep
      next hout =>
        cases hstep
        have hleads := leads_back c d p q (e := none) (v := s.toFront) hact hvm
          (by simp [hout]) (fun e' he ↦ absurd he.symm (Option.some_ne_none e')) (by rw [hout]; rfl)
        exact ⟨_, hleads, h.inv.leads hleads, hc.mono h.toBack, hd.mono h.toFront, by rw [hout]⟩
      next msg hout =>
        obtain ⟨hshort, hstep⟩ := Option.ite_none_right_eq_some.mp hstep
        rw [hout] at hstep
        cases hstep
        have hsound : msg.Sound :=
          (HabVm.step_cases hvm).sound_out h.inv.back.2 (hout ▸ List.mem_singleton_self msg)
        obtain ⟨e, v, t, haccepts, ht, hreceives⟩ := hd.exists_leads
          (endsAt_front (q := q) (c := c) vm s.toBack) h.inv.toFront.reached h.toFront hsound hshort
          s.front
        have hsends := leads_back c d p q (e := some e) hact hvm
          (by simp [hout, hshort.2]) (by rintro e' ⟨⟩; exact haccepts.undisturbed)
          (by rw [hout, haccepts.send_eq])
        have hleads := hsends.trans hreceives
        exact ⟨_, hleads, h.inv.leads hleads, hc.mono h.toBack, ht, rfl⟩
      next => cases hstep
  | deliverBack | deliverFront => cases hstep

/-- A run of the VMs over two lossless channels, each message received at once, is possible
over the transports. -/
theorem AtRest.exec (h : AtRest c d R S n s l) (hc : c.Prompt R) (hd : d.Prompt S)
    {acts : List LinkAct} (hrun : Runs.exec (Link.promptStep p q) l acts = some l')
    (hlen : acts.length ≤ n) :
    ∃ t, Runs.Leads (Stack.step p q c d) (Undisturbed p q c d) s t ∧
      AtRest c d R S (n - acts.length) t l' := by
  induction acts generalizing s l n with
  | nil =>
      cases hrun
      exact ⟨s, .refl s, h⟩
  | cons act acts ih =>
      obtain ⟨m, rfl⟩ : ∃ m, n = m + 1 := ⟨n - 1, by rw [List.length_cons] at hlen; omega⟩
      obtain ⟨mid, hstep, hrest⟩ := Runs.exec_cons_eq_some.mp hrun
      obtain ⟨t, hleads, ht⟩ := h.step hc hd hstep
      obtain ⟨u, hleads', hu⟩ := ih ht hrest (Nat.le_of_succ_le_succ hlen)
      refine ⟨u, hleads.trans hleads', ?_⟩
      rw [List.length_cons, Nat.add_sub_add_right]
      exact hu

/-- What the VMs see of a stack at rest. -/
theorem AtRest.link_eq (h : AtRest c d R S n s l) (hc : c.Prompt R) (hd : d.Prompt S) :
    s.link c d = l := by
  rw [h.link, Stack.link, Carrier.flying_of_length_eq (hc.length_eq h.toBack),
    Carrier.flying_of_length_eq (hd.length_eq h.toFront)]

end Stack

end Hab
