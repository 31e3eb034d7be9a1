import Hab.Library.Simulation
import Hab.Wire

/-!
# Transports that keep their frames

For the messages above it, a transport is what its sender has accepted and what the calls of
`hab_msg_recv` on its other end have got.  One that keeps its frames hands them on in order,
each once and with its stamps only.
-/

namespace Hab

/-- A message that was accepted and the call that got it. -/
def Received.Becomes (_ : ℕ) (node : SendNode) (r : Received) : Prop :=
  ∃ sequence clock, r.Gets (node.stamp sequence clock)

/-- One direction of a transport that keeps its frames, as long as its steps are
undisturbed. -/
structure Carrier (σ ε : Type*) where
  start : σ
  step : σ → ε → Option σ
  Undisturbed : σ → ε → Prop
  /-- The messages that `physical_channel_send` has accepted. -/
  accepted : σ → List SendNode
  /-- The calls of `hab_msg_recv` that have returned. -/
  handled : σ → List Received
  accepted_start : accepted start = []
  handled_start : handled start = []
  accepted_step : ∀ {s e t}, step s e = some t → accepted s <+: accepted t
  handled_step : ∀ {s e t}, step s e = some t →
    handled t = handled s ∨ ∃ r, handled t = handled s ++ [r]
  carries : ∀ {events s}, Runs.Meets step Undisturbed start events →
    Runs.exec step start events = some s →
      Channel.Carries Received.Becomes (accepted s) (handled s)

namespace Carrier

variable {σ ε : Type*} (c : Carrier σ ε)

/-- A state that an undisturbed run of the transport ends in. -/
def Reached (s : σ) : Prop :=
  ∃ events, Runs.Meets c.step c.Undisturbed c.start events ∧
    Runs.exec c.step c.start events = some s

/-- What was accepted by a step. -/
def newlyAccepted (s t : σ) : List SendNode := (c.accepted t).drop (c.accepted s).length

/-- What was handled by a step. -/
def newlyHandled (s t : σ) : List Received := (c.handled t).drop (c.handled s).length

/-- The messages of the opens and the vchans that were accepted and are not handled yet. -/
def flying (s : σ) : List HabMsg :=
  ((c.accepted s).drop (c.handled s).length).filterMap SendNode.habMsg

/-- A step of the transport in which these messages of a VM are accepted. -/
def send (s : σ) : List HabMsg → Option ε → Option σ
  | [], none => some s
  | [msg], some e =>
      (c.step s e).bind fun t ↦
        match c.newlyAccepted s t, c.newlyHandled s t with
        | [node], [] => if node.IsFor msg then some t else none
        | _, _ => none
  | _, _ => none

/-- A step of the transport beside the calls of the VMs here: what is accepted in it are the
messages of exports and imports. -/
def goOn (s : σ) (e : ε) : Option σ :=
  (c.step s e).bind fun t ↦
    if (c.newlyAccepted s t).all fun node ↦ node.habMsg.isNone then some t else none

/-- The VM gets what was handled by a step. -/
def deliver (s t : σ) (vm : HabVm) (pchan : HabPchan) (env : Env) : HabVm :=
  match c.newlyHandled s t with
  | [] => vm
  | r :: _ => vm.habMsgRecv pchan env r

variable {c} {s t : σ} {e : ε} {msgs : List HabMsg} {msg : HabMsg}

theorem reached_start : c.Reached c.start := ⟨[], trivial, rfl⟩

theorem Reached.step (h : c.Reached s) (hguard : c.Undisturbed s e) (hstep : c.step s e = some t) :
    c.Reached t := by
  obtain ⟨events, hmeets, hrun⟩ := h
  have hlast : Runs.Meets c.step c.Undisturbed s [e] := (Runs.meets_cons hstep).mpr ⟨hguard, trivial⟩
  exact ⟨events ++ [e], (Runs.meets_append hrun).mpr ⟨hmeets, hlast⟩,
    (Runs.exec_append hrun).trans (Runs.exec_cons hstep [])⟩

theorem Reached.carries (h : c.Reached s) :
    Channel.Carries Received.Becomes (c.accepted s) (c.handled s) := by
  obtain ⟨events, hmeets, hrun⟩ := h
  exact c.carries hmeets hrun

theorem accepted_eq (hstep : c.step s e = some t) :
    c.accepted t = c.accepted s ++ c.newlyAccepted s t := by
  obtain ⟨nodes, hnodes⟩ := c.accepted_step hstep
  rw [newlyAccepted, ← hnodes, List.drop_left]

theorem handled_eq (hstep : c.step s e = some t) :
    c.handled t = c.handled s ++ c.newlyHandled s t := by
  rcases c.handled_step hstep with heq | ⟨r, heq⟩
  · rw [newlyHandled, heq, List.drop_length, List.append_nil]
  · rw [newlyHandled, heq, List.drop_left]

theorem newlyHandled_cases (hstep : c.step s e = some t) :
    c.newlyHandled s t = [] ∨ ∃ r, c.newlyHandled s t = [r] := by
  rcases c.handled_step hstep with heq | ⟨r, heq⟩
  · exact .inl (by rw [newlyHandled, heq, List.drop_length])
  · exact .inr ⟨r, by rw [newlyHandled, heq, List.drop_left]⟩

theorem flying_start : c.flying c.start = [] := by
  rw [flying, c.accepted_start, List.drop_nil, List.filterMap_nil]

theorem flying_of_length_eq (h : (c.handled s).length = (c.accepted s).length) :
    c.flying s = [] := by
  rw [flying, h, List.drop_length, List.filterMap_nil]

/-- What is accepted goes to the end of what is on its way. -/
theorem flying_accept (hreached : c.Reached s) (hstep : c.step s e = some t)
    (hhandled : c.newlyHandled s t = []) :
    c.flying t = c.flying s ++ (c.newlyAccepted s t).filterMap SendNode.habMsg := by
  have hsame : c.handled t = c.handled s := by
    rw [handled_eq hstep, hhandled, List.append_nil]
  rw [flying, hsame, accepted_eq hstep, List.drop_append_of_le_length hreached.carries.le,
    List.filterMap_append]
  rfl

/-- What is handled is the first of what is on its way, if it is for the opens or the
vchans. -/
theorem flying_handle (hreached : c.Reached s) (hnext : c.Reached t) (hstep : c.step s e = some t)
    {r : Received} (hhandled : c.newlyHandled s t = [r]) :
    ∃ node ∈ c.accepted t, (∃ sequence clock, r.Gets (node.stamp sequence clock)) ∧
      c.flying s ++ (c.newlyAccepted s t).filterMap SendNode.habMsg =
        node.habMsg.toList ++ c.flying t := by
  have hhandled' : c.handled t = c.handled s ++ [r] := by
    rw [handled_eq hstep, hhandled]
  have hlast : (c.handled t)[(c.handled s).length]? = some r := by
    rw [hhandled', List.getElem?_concat_length]
  obtain ⟨node, hnode, hbecomes⟩ := hnext.carries.exists_sent hlast
  refine ⟨node, List.mem_of_getElem? hnode, hbecomes, ?_⟩
  obtain ⟨hlt, hget⟩ := List.getElem?_eq_some_iff.mp hnode
  have hdrop : (c.accepted t).drop (c.handled s).length =
      node :: (c.accepted t).drop (c.handled t).length := by
    rw [hhandled', List.length_append, List.length_singleton, List.drop_eq_getElem_cons hlt, hget]
  have hfly : c.flying s ++ (c.newlyAccepted s t).filterMap SendNode.habMsg =
      ((c.accepted t).drop (c.handled s).length).filterMap SendNode.habMsg := by
    rw [accepted_eq hstep, List.drop_append_of_le_length hreached.carries.le,
      List.filterMap_append]
    rfl
  rw [hfly, hdrop, flying]
  cases hmsg : node.habMsg with
  | none => rw [List.filterMap_cons_none hmsg]; rfl
  | some msg => rw [List.filterMap_cons_some hmsg]; rfl

/-! ### Steps of the transport below the VMs -/

/-- All that the transport was given are messages as the VMs send them, and others that do
not concern them. -/
structure Sound (c : Carrier σ ε) (s : σ) : Prop where
  reached : c.Reached s
  nodes : ∀ node ∈ c.accepted s,
    node.habMsg = none ∨ ∃ msg, node.IsFor msg ∧ HabMsg.Sound msg ∧ HabMsg.Plain msg

theorem Sound.start : c.Sound c.start where
  reached := reached_start
  nodes := by
    rw [c.accepted_start]
    exact List.forall_mem_nil _

theorem Sound.of_newlyAccepted (h : c.Sound s) (hguard : c.Undisturbed s e)
    (hstep : c.step s e = some t)
    (hnew : ∀ node ∈ c.newlyAccepted s t,
      node.habMsg = none ∨ ∃ msg, node.IsFor msg ∧ HabMsg.Sound msg ∧ HabMsg.Plain msg) :
    c.Sound t where
  reached := h.reached.step hguard hstep
  nodes := by
    rw [accepted_eq hstep]
    intro node hnode
    rcases List.mem_append.mp hnode with hnode | hnode
    · exact h.nodes node hnode
    · exact hnew node hnode

/-- What a VM sends is on its way. -/
theorem Sound.send (h : c.Sound s) {e : Option ε} (hguard : ∀ e', e = some e' → c.Undisturbed s e')
    (hsound : ∀ msg ∈ msgs, msg.Sound) (hplain : ∀ msg ∈ msgs, msg.Plain)
    (hsend : c.send s msgs e = some t) : c.Sound t ∧ c.flying t = c.flying s ++ msgs := by
  unfold Carrier.send at hsend
  split at hsend
  next =>
    cases hsend
    exact ⟨h, (List.append_nil _).symm⟩
  next msg e =>
    obtain ⟨u, hstep, hsend⟩ := Option.bind_eq_some_iff.mp hsend
    split at hsend
    next node haccepted hhandled =>
      obtain ⟨hfor, ⟨⟩⟩ := Option.ite_none_right_eq_some.mp hsend
      have hmsg := hsound msg (List.mem_singleton_self msg)
      have hnode := hfor.habMsg hmsg
      constructor
      · refine h.of_newlyAccepted (hguard e rfl) hstep ?_
        rw [haccepted, List.forall_mem_singleton]
        exact .inr ⟨msg, hfor, hmsg, hplain msg (List.mem_singleton_self msg)⟩
      · rw [flying_accept h.reached hstep hhandled, haccepted, List.filterMap_cons_some hnode,
          List.filterMap_nil]
    next => cases hsend
  next => cases hsend

/-- The transport goes on by itself, or hands a VM the first message that is on its way. -/
theorem Sound.goOn (h : c.Sound s) (hguard : c.Undisturbed s e) (hgoOn : c.goOn s e = some t)
    {vm : HabVm} {pchan : HabPchan} {env : Env}
    (hagrees : ∀ r, c.newlyHandled s t = [r] → r.Agrees vm pchan env) :
    c.Sound t ∧ (c.flying t = c.flying s ∧ c.deliver s t vm pchan env = vm ∨
      ∃ msg, c.flying s = msg :: c.flying t ∧ env.alloc = true ∧
        c.deliver s t vm pchan env = vm.receive pchan env msg) := by
  obtain ⟨u, hstep, hothers⟩ := Option.bind_eq_some_iff.mp hgoOn
  obtain ⟨hothers, ⟨⟩⟩ := Option.ite_none_right_eq_some.mp hothers
  have hforeign : ∀ node ∈ c.newlyAccepted s t, node.habMsg = none := fun node hnode ↦
    Option.isNone_iff_eq_none.mp (List.all_eq_true.mp hothers node hnode)
  have hnone : (c.newlyAccepted s t).filterMap SendNode.habMsg = [] :=
    List.filterMap_eq_nil_iff.mpr hforeign
  have hnext := h.of_newlyAccepted hguard hstep fun node hnode ↦ .inl (hforeign node hnode)
  refine ⟨hnext, ?_⟩
  rcases newlyHandled_cases hstep with hhandled | ⟨r, hhandled⟩
  · left
    rw [flying_accept h.reached hstep hhandled, hnone, List.append_nil, deliver, hhandled]
    exact ⟨rfl, rfl⟩
  · obtain ⟨node, hnode, ⟨sequence, clock, hgets⟩, hflying⟩ :=
      flying_handle h.reached hnext.reached hstep hhandled
    rw [hnone, List.append_nil] at hflying
    rw [deliver, hhandled]
    rcases hnext.nodes node hnode with hother | ⟨msg, hfor, hsound, hplain⟩
    · left
      rw [hother] at hflying
      exact ⟨hflying.symm, HabVm.habMsgRecv_of_habMsg_eq_none hother hgets⟩
    · right
      rw [hfor.habMsg hsound] at hflying
      have hfound := hagrees r hhandled
      exact ⟨msg, hflying, hfound.queued, HabVm.habMsgRecv_eq hfor hsound hplain hgets hfound⟩

/-! ### One message at a time -/

section OneByOne

variable {node : SendNode} {r : Received} {renv : RecvEnv} {u : σ}

/-- Undisturbed steps in which nothing is accepted and nothing handled. -/
def Rests (c : Carrier σ ε) : σ → σ → Prop :=
  Runs.Leads c.step fun s e ↦ c.Undisturbed s e ∧
    ∀ t, c.step s e = some t → c.accepted t = c.accepted s ∧ c.handled t = c.handled s

/-- An undisturbed step in which this message is accepted. -/
structure Accepts (c : Carrier σ ε) (s : σ) (e : ε) (node : SendNode) (t : σ) : Prop where
  undisturbed : c.Undisturbed s e
  step : c.step s e = some t
  accepted : c.accepted t = c.accepted s ++ [node]
  handled : c.handled t = c.handled s

/-- An undisturbed step in which this call of `hab_msg_recv` returns. -/
structure Returns (c : Carrier σ ε) (s : σ) (e : ε) (r : Received) (t : σ) : Prop where
  undisturbed : c.Undisturbed s e
  step : c.step s e = some t
  accepted : c.accepted t = c.accepted s
  handled : c.handled t = c.handled s ++ [r]

/-- A message is accepted, and then a call returns that was entered in `renv`. -/
def Hands (c : Carrier σ ε) (s : σ) (node : SendNode) (renv : RecvEnv) (t : σ) : Prop :=
  ∃ e e' r u v w, c.Accepts s e node u ∧ c.Rests u v ∧ c.Returns v e' r w ∧ r.env = renv ∧
    c.Rests w t

/-- Both lists only grow, so it is enough to compare their lengths at the end. -/
theorem rests_of_exec {es : List ε} (hmeets : Runs.Meets c.step c.Undisturbed s es)
    (hrun : Runs.exec c.step s es = some t) (haccepted : c.accepted t = c.accepted s)
    (hhandled : c.handled t = c.handled s) : c.Rests s t := by
  have hgrows {a b : σ} {es : List ε} (h : Runs.exec c.step a es = some b) :
      c.accepted a <+: c.accepted b ∧ c.handled a <+: c.handled b := by
    apply Runs.invariant_of_exec (I := fun b ↦
      c.accepted a <+: c.accepted b ∧ c.handled a <+: c.handled b) _
      ⟨List.prefix_refl _, List.prefix_refl _⟩ h
    rintro x e y ⟨hx, hx'⟩ hstep
    refine ⟨hx.trans (c.accepted_step hstep), hx'.trans ?_⟩
    rw [handled_eq hstep]
    exact List.prefix_append _ _
  induction es generalizing s with
  | nil =>
      cases hrun
      exact .refl _
  | cons e es ih =>
      obtain ⟨u, hstep, hrest⟩ := Runs.exec_cons_eq_some.mp hrun
      obtain ⟨hguard, hmeets⟩ := (Runs.meets_cons hstep).mp hmeets
      obtain ⟨hsu, hsu'⟩ := hgrows (Runs.exec_cons hstep [])
      obtain ⟨hut, hut'⟩ := hgrows hrest
      have hfirst : c.accepted u = c.accepted s :=
        (hsu.eq_of_length_le (haccepted ▸ hut.length_le)).symm
      have hfirst' : c.handled u = c.handled s :=
        (hsu'.eq_of_length_le (hhandled ▸ hut'.length_le)).symm
      have hstays : c.Rests s u := by
        refine .single ⟨hguard, ?_⟩ hstep
        intro t' ht'
        rw [hstep] at ht'
        cases ht'
        exact ⟨hfirst, hfirst'⟩
      exact hstays.trans (ih hmeets hrest (haccepted.trans hfirst.symm)
        (hhandled.trans hfirst'.symm))

theorem Rests.same (h : c.Rests s t) :
    c.accepted t = c.accepted s ∧ c.handled t = c.handled s := by
  refine Runs.Leads.invariant (I := fun u ↦
    c.accepted u = c.accepted s ∧ c.handled u = c.handled s) h ?_ ⟨rfl, rfl⟩
  rintro u e v ⟨hu, hu'⟩ ⟨-, hsame⟩ hstep
  obtain ⟨hv, hv'⟩ := hsame v hstep
  exact ⟨hv.trans hu, hv'.trans hu'⟩

theorem Reached.rests (h : c.Reached s) (hrests : c.Rests s t) : c.Reached t :=
  Runs.Leads.trans h <| hrests.map id fun _ _ _ hguard hstep ↦ .single hguard.1 hstep

/-- What is handed over is the message that was accepted, if nothing was on its way. -/
theorem Returns.gets (hreached : c.Reached s)
    (hlen : (c.handled s).length = (c.accepted s).length) {e e' : ε} {v w : σ}
    (haccepts : c.Accepts s e node u) (hrests : c.Rests u v) (hreturns : c.Returns v e' r w) :
    ∃ sequence clock, r.Gets (node.stamp sequence clock) := by
  obtain ⟨haccepted, hhandled⟩ := hrests.same
  have hw : c.Reached w := ((hreached.step haccepts.undisturbed haccepts.step).rests hrests).step
    hreturns.undisturbed hreturns.step
  have hlast : (c.handled w)[(c.handled s).length]? = some r := by
    rw [hreturns.handled, hhandled, haccepts.handled, List.getElem?_concat_length]
  obtain ⟨node', hnode', hbecomes⟩ := hw.carries.exists_sent hlast
  rw [hreturns.accepted, haccepted, haccepts.accepted, hlen, List.getElem?_concat_length] at hnode'
  cases hnode'
  exact hbecomes

end OneByOne

end Carrier

end Hab
