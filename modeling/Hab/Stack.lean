import Hab.Carrier
import Hab.Library.Simulation
import Hab.Sessions

/-!
# Two VMs over their transports

The front end and the back end of a pchan, with a transport in each direction that works at
its own pace.  A call of a VM that sends takes the step of the transport in which its message
is accepted; what a call of `hab_msg_recv` on the other end has read is for the VM there.
The pchan carries other messages as well.
-/

namespace Hab

structure Stack (σ τ : Type*) where
  front : HabVm
  back : HabVm
  toBack : σ
  toFront : τ

inductive StackAct (ε δ : Type*) where
  /-- A step of the front end, and the step of the transport that accepts what it sends. -/
  | front (act : VmAct) (env : Env) (e : Option ε)
  | back (act : VmAct) (env : Env) (e : Option δ)
  /-- A step of a transport, and what the end of a call of `hab_msg_recv` finds. -/
  | toBack (e : ε) (env : Env)
  | toFront (e : δ) (env : Env)

/-- What is always so of a VM. -/
def HabVm.Steady (vm : HabVm) : Prop := vm.Referenced ∧ vm.CallsSound

theorem HabVm.Steady.step {vm vm' : HabVm} {act : VmAct} {env : Env}
    {out : List (HabPchan × HabMsg)} (h : vm.Steady) (hstep : vm.Step env act vm' out) :
    vm'.Steady :=
  ⟨h.1.step hstep, h.2.step h.1 hstep⟩

namespace Stack

variable {σ τ ε δ : Type*} (p q : HabPchan) (c : Carrier σ ε) (d : Carrier τ δ)

/-- Nothing has happened yet. -/
def start : Stack σ τ := ⟨.init, .init, c.start, d.start⟩

def step (s : Stack σ τ) : StackAct ε δ → Option (Stack σ τ)
  | .front act env e =>
      if act.onFront p then
        (s.front.step act env).bind fun next ↦
          (c.send s.toBack (next.2.map Prod.snd) e).map fun toBack ↦
            { s with front := next.1, toBack }
      else none
  | .back act env e =>
      if act.onBack then
        (s.back.step act env).bind fun next ↦
          (d.send s.toFront (next.2.map Prod.snd) e).map fun toFront ↦
            { s with back := next.1, toFront }
      else none
  | .toBack e env =>
      (c.goOn s.toBack e).map fun toBack ↦
        { s with toBack, back := c.deliver s.toBack toBack s.back q env }
  | .toFront e env =>
      (d.goOn s.toFront e).map fun toFront ↦
        { s with toFront, front := d.deliver s.toFront toFront s.front p env }

/-- What the VMs see of it. -/
def link (s : Stack σ τ) : Link := ⟨s.front, s.back, c.flying s.toBack, d.flying s.toFront⟩

/-- No transport is disturbed, nobody sends a profiling message, and what a call of
`hab_msg_recv` has found on its entry it still finds when it has read the message. -/
def Undisturbed (s : Stack σ τ) : StackAct ε δ → Prop
  | .front act env e =>
      (∀ e', e = some e' → c.Undisturbed s.toBack e') ∧
        ∀ next, s.front.step act env = some next → ∀ msg ∈ next.2.map Prod.snd, msg.Plain
  | .back act env e =>
      (∀ e', e = some e' → d.Undisturbed s.toFront e') ∧
        ∀ next, s.back.step act env = some next → ∀ msg ∈ next.2.map Prod.snd, msg.Plain
  | .toBack e env =>
      c.Undisturbed s.toBack e ∧ ∀ toBack, c.goOn s.toBack e = some toBack →
        ∀ r, c.newlyHandled s.toBack toBack = [r] → r.Agrees s.back q env
  | .toFront e env =>
      d.Undisturbed s.toFront e ∧ ∀ toFront, d.goOn s.toFront e = some toFront →
        ∀ r, d.newlyHandled s.toFront toFront = [r] → r.Agrees s.front p env

structure Inv (s : Stack σ τ) : Prop where
  front : s.front.Steady
  back : s.back.Steady
  toBack : c.Sound s.toBack
  toFront : d.Sound s.toFront

variable {p q c d} {s t : Stack σ τ} {act : StackAct ε δ}

theorem inv_start : Inv c d (start c d) :=
  ⟨⟨.init, .init⟩, ⟨.init, .init⟩, .start, .start⟩

theorem link_start : (start c d).link c d = Link.start := by
  rw [link, start, Carrier.flying_start, Carrier.flying_start]
  rfl

theorem Inv.step (h : Inv c d s) (hguard : Undisturbed p q c d s act)
    (hstep : step p q c d s act = some t) :
    Inv c d t ∧ Runs.Matched (Link.step p q) (fun act ↦ act.allocates = true)
      (s.link c d) (t.link c d) := by
  cases act with
  | front act env e =>
      obtain ⟨hact, hstep⟩ := Option.ite_none_right_eq_some.mp hstep
      obtain ⟨⟨vm, out⟩, hvm, hstep⟩ := Option.bind_eq_some_iff.mp hstep
      obtain ⟨toBack, hsend, rfl⟩ := Option.map_eq_some_iff.mp hstep
      have hfront := HabVm.step_cases hvm
      obtain ⟨hsound, hflying⟩ := h.toBack.send hguard.1 (fun msg ↦ hfront.sound_out h.front.2)
        (hguard.2 _ hvm) hsend
      refine ⟨⟨h.front.step hfront, h.back, hsound, h.toFront⟩, .single (b := .front act env) ?_ rfl⟩
      rw [Link.step, if_pos hact, link, hvm]
      simp only [Option.map_some, link, hflying]
  | back act env e =>
      obtain ⟨hact, hstep⟩ := Option.ite_none_right_eq_some.mp hstep
      obtain ⟨⟨vm, out⟩, hvm, hstep⟩ := Option.bind_eq_some_iff.mp hstep
      obtain ⟨toFront, hsend, rfl⟩ := Option.map_eq_some_iff.mp hstep
      have hback := HabVm.step_cases hvm
      obtain ⟨hsound, hflying⟩ := h.toFront.send hguard.1 (fun msg ↦ hback.sound_out h.back.2)
        (hguard.2 _ hvm) hsend
      refine ⟨⟨h.front, h.back.step hback, h.toBack, hsound⟩, .single (b := .back act env) ?_ rfl⟩
      rw [Link.step, if_pos hact, link, hvm]
      simp only [Option.map_some, link, hflying]
  | toBack e env =>
      obtain ⟨toBack, hgoOn, rfl⟩ := Option.map_eq_some_iff.mp hstep
      obtain ⟨hsound, hcases⟩ := h.toBack.goOn hguard.1 hgoOn (hguard.2 toBack hgoOn)
      rcases hcases with ⟨hflying, hsame⟩ | ⟨msg, hflying, halloc, hreceive⟩
      · rw [hsame]
        refine ⟨⟨h.front, h.back, hsound, h.toFront⟩, ?_⟩
        simp only [link, hflying]
        exact .refl _
      · rw [hreceive]
        refine ⟨⟨h.front, h.back.step (.receives q msg), hsound, h.toFront⟩,
          .single (b := .deliverBack env) ?_ halloc⟩
        simp only [Link.step, link, hflying]
  | toFront e env =>
      obtain ⟨toFront, hgoOn, rfl⟩ := Option.map_eq_some_iff.mp hstep
      obtain ⟨hsound, hcases⟩ := h.toFront.goOn hguard.1 hgoOn (hguard.2 toFront hgoOn)
      rcases hcases with ⟨hflying, hsame⟩ | ⟨msg, hflying, halloc, hreceive⟩
      · rw [hsame]
        refine ⟨⟨h.front, h.back, h.toBack, hsound⟩, ?_⟩
        simp only [link, hflying]
        exact .refl _
      · rw [hreceive]
        refine ⟨⟨h.front.step (.receives p msg), h.back, h.toBack, hsound⟩,
          .single (b := .deliverFront env) ?_ halloc⟩
        simp only [Link.step, link, hflying]

theorem inv_of_meets {acts : List (StackAct ε δ)}
    (hmeets : Runs.Meets (step p q c d) (Undisturbed p q c d) (start c d) acts)
    (hrun : Runs.exec (step p q c d) (start c d) acts = some s) : Inv c d s :=
  Runs.invariant_of_meets (fun _ _ _ h hguard hstep ↦ (h.step hguard hstep).1) inv_start hmeets hrun

/-- The VMs over their transports do nothing that they could not do over two lossless
channels. -/
theorem matched_link {acts : List (StackAct ε δ)}
    (hmeets : Runs.Meets (step p q c d) (Undisturbed p q c d) (start c d) acts)
    (hrun : Runs.exec (step p q c d) (start c d) acts = some s) :
    Runs.Matched (Link.step p q) (fun act ↦ act.allocates = true) Link.start (s.link c d) := by
  rw [← link_start (c := c) (d := d)]
  exact Runs.matched_of_meets (f := fun s ↦ s.link c d)
    (fun s act t h hguard hstep ↦ (h.step hguard hstep).1)
    (fun s act t h hguard hstep ↦ (h.step hguard hstep).2) inv_start hmeets hrun

theorem lossless_of_meets {acts : List (StackAct ε δ)}
    (hmeets : Runs.Meets (step p q c d) (Undisturbed p q c d) (start c d) acts)
    (hrun : Runs.exec (step p q c d) (start c d) acts = some s)
    (hcounter : s.front.openIdCounter < 2 ^ 32) : (s.link c d).Lossless := by
  obtain ⟨linkActs, hlink, halloc⟩ := matched_link hmeets hrun
  exact ((Link.Traffic.start p q).exec halloc hlink hcounter).lossless

end Stack

end Hab
