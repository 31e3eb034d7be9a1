import Hab.Library.Runs
import Hab.VmRequests

/-!
# Two VMs on one pchan

The front end, on which the pchan is `p`, opens vchans with `frontend_open`, and the back
end, on which it is `q`, with `backend_listen`.  What one sends reaches the other in its
order and without loss.
-/

namespace Hab

structure Link where
  front : HabVm
  back : HabVm
  /-- What is on its way to the back end, the oldest first. -/
  toBack : List HabMsg
  toFront : List HabMsg

inductive LinkAct where
  | front (act : VmAct) (env : Env)
  | back (act : VmAct) (env : Env)
  /-- A message reaches the back end. -/
  | deliverBack (env : Env)
  | deliverFront (env : Env)

/-- What is done on the front end. -/
def VmAct.onFront (p : HabPchan) : VmAct → Bool
  | .frontendOpen _ pchan _ _ => pchan = p
  | .send _ _ _ _ | .recv _ _ | .close _ _ | .stop _ _ | .advance _ => true
  | .backendListen _ | .closePchan _ | .receive _ _ => false

/-- What is done on the back end. -/
def VmAct.onBack : VmAct → Bool
  | .backendListen _ | .send _ _ _ _ | .recv _ _ | .close _ _ | .stop _ _ | .advance _ => true
  | .frontendOpen _ _ _ _ | .closePchan _ | .receive _ _ => false

namespace Link

def step (p q : HabPchan) (s : Link) : LinkAct → Option Link
  | .front act env =>
      if act.onFront p then
        (s.front.step act env).map fun next ↦
          { s with front := next.1, toBack := s.toBack ++ next.2.map Prod.snd }
      else none
  | .back act env =>
      if act.onBack then
        (s.back.step act env).map fun next ↦
          { s with back := next.1, toFront := s.toFront ++ next.2.map Prod.snd }
      else none
  | .deliverBack env =>
      match s.toBack with
      | [] => none
      | msg :: rest => some { s with back := s.back.receive q env msg, toBack := rest }
  | .deliverFront env =>
      match s.toFront with
      | [] => none
      | msg :: rest => some { s with front := s.front.receive p env msg, toFront := rest }

/-- Nothing has happened yet. -/
def start : Link := ⟨.init, .init, [], []⟩

variable {p q : HabPchan} {s t : Link}

/-- What a step does. -/
inductive Step (p q : HabPchan) (s : Link) : Link → Prop where
  | front (act : VmAct) (env : Env) (vm' : HabVm) (out : List (HabPchan × HabMsg))
      (hact : act.onFront p = true) (hstep : s.front.Step env act vm' out) :
      Step p q s ⟨vm', s.back, s.toBack ++ out.map Prod.snd, s.toFront⟩
  | back (act : VmAct) (env : Env) (vm' : HabVm) (out : List (HabPchan × HabMsg))
      (hact : act.onBack = true) (hstep : s.back.Step env act vm' out) :
      Step p q s ⟨s.front, vm', s.toBack, s.toFront ++ out.map Prod.snd⟩
  | deliverBack (env : Env) (msg : HabMsg) (rest : List HabMsg) (hmsgs : s.toBack = msg :: rest) :
      Step p q s ⟨s.front, s.back.receive q env msg, rest, s.toFront⟩
  | deliverFront (env : Env) (msg : HabMsg) (rest : List HabMsg)
      (hmsgs : s.toFront = msg :: rest) :
      Step p q s ⟨s.front.receive p env msg, s.back, s.toBack, rest⟩

theorem step_elim {motive : LinkAct → Link → Prop} {act : LinkAct} (hstep : s.step p q act = some t)
    (front : ∀ act env vm' out, act.onFront p = true → s.front.step act env = some (vm', out) →
      motive (.front act env) ⟨vm', s.back, s.toBack ++ out.map Prod.snd, s.toFront⟩)
    (back : ∀ act env vm' out, act.onBack = true → s.back.step act env = some (vm', out) →
      motive (.back act env) ⟨s.front, vm', s.toBack, s.toFront ++ out.map Prod.snd⟩)
    (deliverBack : ∀ env msg rest, s.toBack = msg :: rest →
      motive (.deliverBack env) ⟨s.front, s.back.receive q env msg, rest, s.toFront⟩)
    (deliverFront : ∀ env msg rest, s.toFront = msg :: rest →
      motive (.deliverFront env) ⟨s.front.receive p env msg, s.back, s.toBack, rest⟩) :
    motive act t := by
  cases act with
  | front act env =>
      simp only [Link.step, Option.ite_none_right_eq_some] at hstep
      obtain ⟨hact, hstep⟩ := hstep
      obtain ⟨⟨vm', out⟩, hvm, rfl⟩ := Option.map_eq_some_iff.mp hstep
      exact front act env vm' out hact hvm
  | back act env =>
      simp only [Link.step, Option.ite_none_right_eq_some] at hstep
      obtain ⟨hact, hstep⟩ := hstep
      obtain ⟨⟨vm', out⟩, hvm, rfl⟩ := Option.map_eq_some_iff.mp hstep
      exact back act env vm' out hact hvm
  | deliverBack env =>
      simp only [Link.step] at hstep
      split at hstep
      case h_1 => cases hstep
      case h_2 msg rest hmsgs =>
        cases hstep
        exact deliverBack env msg rest hmsgs
  | deliverFront env =>
      simp only [Link.step] at hstep
      split at hstep
      case h_1 => cases hstep
      case h_2 msg rest hmsgs =>
        cases hstep
        exact deliverFront env msg rest hmsgs

theorem step_cases {act : LinkAct} (hstep : s.step p q act = some t) : s.Step p q t := by
  refine step_elim (motive := fun _ t ↦ s.Step p q t) hstep ?_ ?_ ?_ ?_
  · exact fun act env vm' out hact hvm ↦ .front act env vm' out hact (HabVm.step_cases hvm)
  · exact fun act env vm' out hact hvm ↦ .back act env vm' out hact (HabVm.step_cases hvm)
  · exact fun env msg rest hmsgs ↦ .deliverBack env msg rest hmsgs
  · exact fun env msg rest hmsgs ↦ .deliverFront env msg rest hmsgs

end Link

/-- The call is one of a front end. -/
def Call.atFront : Call → Bool
  | .listen _ _ | .round _ _ => false
  | _ => true

/-- The call is one of a back end. -/
def Call.atBack : Call → Bool
  | .front _ _ => false
  | _ => true

namespace HabVm

variable {vm vm' : HabVm} {i v : ℕ} {env : Env} {call : Call} {act : VmAct}
  {out : List (HabPchan × HabMsg)} {p : HabPchan}

/-- Only calls of a front end are in progress. -/
def AtFront (vm : HabVm) : Prop :=
  ∀ i call, vm.calls.get i = some call → call.atFront = true

def AtBack (vm : HabVm) : Prop :=
  ∀ i call, vm.calls.get i = some call → call.atBack = true

theorem AtFront.step (h : vm.AtFront) (hact : act.onFront p = true ∨ ∃ msg, act = .receive p msg)
    (hstep : vm.Step env act vm' out) : vm'.AtFront := by
  apply hstep.forall_calls h
  · rintro _ _ (_ | _ | _ | _ | _ | _ | _ | _) hcall <;> first | rfl | exact hcall
  · rintro k hk
    cases hk <;> try rfl
    simp [VmAct.onFront] at hact

theorem AtBack.step (h : vm.AtBack) (hact : act.onBack = true ∨ ∃ msg, act = .receive p msg)
    (hstep : vm.Step env act vm' out) : vm'.AtBack := by
  apply hstep.forall_calls h
  · rintro _ _ (_ | _ | _ | _ | _ | _ | _ | _) hcall <;> first | rfl | exact hcall
  · rintro k hk
    cases hk <;> try rfl
    simp [VmAct.onBack] at hact

end HabVm

end Hab
