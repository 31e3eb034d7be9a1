import Mathlib.Data.List.Basic
import Mathlib.Tactic.Common

/-!
# Runs of a partial step function

A system is given by a step function that answers `none` when an action is
not enabled.  A run is a list of actions taken one after another.  A guard is
a condition on the state an action is taken in; the rules below turn a fact
about one step into a fact about every state a run reaches.
-/

namespace Runs

variable {σ α : Type*} (step : σ → α → Option σ)

/-- Take the listed actions one after another, stopping at the first that is
not enabled. -/
def exec : σ → List α → Option σ
  | s, [] => some s
  | s, a :: as =>
      match step s a with
      | none => none
      | some t => exec t as

/-- `t` is a state that some run from `s` ends in. -/
def Reachable (s t : σ) : Prop := ∃ as, exec step s as = some t

/-- Each action of the run meets the guard in the state it is taken in. -/
def Meets (guard : σ → α → Prop) : σ → List α → Prop
  | _, [] => True
  | s, a :: as =>
      guard s a ∧
        match step s a with
        | none => True
        | some t => Meets guard t as

instance Meets.decidable (guard : σ → α → Prop) [∀ s a, Decidable (guard s a)] :
    ∀ s as, Decidable (Meets step guard s as)
  | _, [] => isTrue trivial
  | s, a :: as =>
      match h : step s a with
      | none => decidable_of_iff (guard s a) (by simp [Meets, h])
      | some t =>
          have := Meets.decidable guard t as
          decidable_of_iff (guard s a ∧ Meets step guard t as) (by simp [Meets, h])

variable {step}

@[simp] theorem exec_nil (s : σ) : exec step s [] = some s := rfl

theorem exec_cons {s t : σ} {a : α} (h : step s a = some t) (as : List α) :
    exec step s (a :: as) = exec step t as := by
  simp [exec, h]

theorem exec_cons_eq_some {s u : σ} {a : α} {as : List α} :
    exec step s (a :: as) = some u ↔ ∃ t, step s a = some t ∧ exec step t as = some u := by
  cases h : step s a <;> simp [exec, h]

theorem exec_append {s t : σ} {as bs : List α} (h : exec step s as = some t) :
    exec step s (as ++ bs) = exec step t bs := by
  induction as generalizing s with
  | nil =>
      cases h
      rfl
  | cons a as ih =>
      obtain ⟨u, hu, hrest⟩ := exec_cons_eq_some.mp h
      rw [List.cons_append, exec_cons hu, ih hrest]

theorem meets_cons {guard : σ → α → Prop} {s t : σ} {a : α} {as : List α}
    (hstep : step s a = some t) :
    Meets step guard s (a :: as) ↔ guard s a ∧ Meets step guard t as := by
  simp [Meets, hstep]

theorem meets_append {guard : σ → α → Prop} {s t : σ} {as bs : List α}
    (hrun : exec step s as = some t) :
    Meets step guard s (as ++ bs) ↔ Meets step guard s as ∧ Meets step guard t bs := by
  induction as generalizing s with
  | nil =>
      cases hrun
      exact ⟨fun h ↦ ⟨trivial, h⟩, And.right⟩
  | cons a as ih =>
      obtain ⟨u, hu, hrest⟩ := exec_cons_eq_some.mp hrun
      rw [List.cons_append, meets_cons hu, meets_cons hu, ih hrest, and_assoc]

/-- What every guarded step keeps, every guarded run keeps. -/
theorem invariant_of_meets {guard : σ → α → Prop} {I : σ → Prop}
    (hkeep : ∀ s a t, I s → guard s a → step s a = some t → I t)
    {s t : σ} {as : List α} (hs : I s) (hmeets : Meets step guard s as)
    (hrun : exec step s as = some t) : I t := by
  induction as generalizing s with
  | nil =>
      cases hrun
      exact hs
  | cons a as ih =>
      obtain ⟨u, hu, hrest⟩ := exec_cons_eq_some.mp hrun
      obtain ⟨hguard, hmeets'⟩ := (meets_cons hu).mp hmeets
      exact ih (hkeep s a u hs hguard hu) hmeets' hrest

/-- If a property never comes back once it is lost, and every step against the guard
loses it, then a run that ends with it kept to the guard.  `J` is what is known of the
states that a run goes through. -/
theorem meets_of_exec_of_invariant {guard : σ → α → Prop} {I J : σ → Prop}
    (hkeep : ∀ s a t, J s → step s a = some t → J t)
    (hback : ∀ s a t, J s → step s a = some t → I t → guard s a ∧ I s)
    {s t : σ} {as : List α} (hs : J s) (hrun : exec step s as = some t) (ht : I t) :
    Meets step guard s as ∧ I s := by
  induction as generalizing s with
  | nil =>
      cases hrun
      exact ⟨trivial, ht⟩
  | cons a as ih =>
      obtain ⟨u, hu, hrest⟩ := exec_cons_eq_some.mp hrun
      obtain ⟨hmeets, hIu⟩ := ih (hkeep s a u hs hu) hrest
      obtain ⟨hguard, hIs⟩ := hback s a u hs hu hIu
      exact ⟨(meets_cons hu).mpr ⟨hguard, hmeets⟩, hIs⟩

theorem meets_of_exec {guard : σ → α → Prop} {I : σ → Prop}
    (hback : ∀ s a t, step s a = some t → I t → guard s a ∧ I s)
    {s t : σ} {as : List α} (hrun : exec step s as = some t) (ht : I t) :
    Meets step guard s as ∧ I s :=
  meets_of_exec_of_invariant (J := fun _ ↦ True) (fun _ _ _ hJ _ ↦ hJ)
    (fun s a t _ ↦ hback s a t) trivial hrun ht

/-- Actions that meet the guard wherever they are taken. -/
theorem meets_of_forall {guard : σ → α → Prop} {as : List α} (h : ∀ a ∈ as, ∀ s, guard s a)
    (s : σ) : Meets step guard s as := by
  induction as generalizing s with
  | nil => trivial
  | cons a as ih =>
      obtain ⟨ha, has⟩ := List.forall_mem_cons.mp h
      cases hstep : step s a with
      | none => simp [Meets, hstep, ha s]
      | some t => exact (meets_cons hstep).mpr ⟨ha s, ih has t⟩

theorem meets_true (s : σ) (as : List α) : Meets step (fun _ _ ↦ True) s as :=
  meets_of_forall (fun _ _ _ ↦ trivial) s

/-- What every step keeps, every run keeps. -/
theorem invariant_of_exec {I : σ → Prop}
    (hkeep : ∀ s a t, I s → step s a = some t → I t)
    {s t : σ} {as : List α} (hs : I s) (hrun : exec step s as = some t) : I t :=
  invariant_of_meets (fun s a t hs _ ↦ hkeep s a t hs) hs (meets_true s as) hrun

/-- If each step says of a property that it holds afterwards exactly if it held before and
the step kept to the guard, then so does each run.  `J` is what is known of the states that
a run goes through. -/
theorem iff_meets_of_exec {guard : σ → α → Prop} {I J : σ → Prop}
    (hkeep : ∀ s a t, J s → step s a = some t → J t)
    (hiff : ∀ s a t, J s → step s a = some t → (I t ↔ guard s a ∧ I s))
    {s t : σ} {as : List α} (hs : J s) (hI : I s) (hrun : exec step s as = some t) :
    I t ↔ Meets step guard s as := by
  constructor
  · intro ht
    exact (meets_of_exec_of_invariant hkeep (fun s a t hJ hst ↦ (hiff s a t hJ hst).mp)
      hs hrun ht).1
  · intro hmeets
    have hboth : J t ∧ I t := by
      refine invariant_of_meets (I := fun u ↦ J u ∧ I u) ?_ ⟨hs, hI⟩ hmeets hrun
      intro u a v hu hguard huv
      exact ⟨hkeep u a v hu.1 huv, (hiff u a v hu.1 huv).mpr ⟨hguard, hu.2⟩⟩
    exact hboth.2

/-- Where a step from a state with the property keeps it exactly if it is a guarded one, and
an action that is not enabled there is a guarded one, the states of a run all have the
property exactly if its steps are all guarded. -/
theorem forall_prefix_iff_meets {guard : σ → α → Prop} {I J : σ → Prop}
    (hstuck : ∀ s a, J s → I s → step s a = none → guard s a)
    (hkeep : ∀ s a t, J s → step s a = some t → J t)
    (hiff : ∀ s a t, J s → I s → step s a = some t → (I t ↔ guard s a))
    {s : σ} {as : List α} (hs : J s) (hI : I s) :
    (∀ bs, bs <+: as → ∀ t, exec step s bs = some t → I t) ↔ Meets step guard s as := by
  induction as generalizing s with
  | nil =>
      refine iff_of_true ?_ trivial
      intro bs hbs t ht
      rw [List.prefix_nil.mp hbs] at ht
      cases ht
      exact hI
  | cons a as ih =>
      cases hu : step s a with
      | none =>
          refine iff_of_true ?_ ?_
          · intro bs hbs t ht
            cases bs with
            | nil =>
                cases ht
                exact hI
            | cons b bs =>
                obtain ⟨rfl, -⟩ := List.cons_prefix_cons.mp hbs
                obtain ⟨v, hv, -⟩ := exec_cons_eq_some.mp ht
                rw [hu] at hv
                exact absurd hv.symm (Option.some_ne_none v)
          · rw [Meets, hu]
            exact ⟨hstuck s a hs hI hu, trivial⟩
      | some u =>
          rw [meets_cons hu]
          constructor
          · intro h
            have hIu : I u := by
              refine h [a] (List.cons_prefix_cons.mpr ⟨rfl, List.nil_prefix⟩) u ?_
              rw [exec_cons hu, exec_nil]
            refine ⟨(hiff s a u hs hI hu).mp hIu, (ih (hkeep s a u hs hu) hIu).mp ?_⟩
            intro bs hbs t ht
            refine h (a :: bs) (List.cons_prefix_cons.mpr ⟨rfl, hbs⟩) t ?_
            rw [exec_cons hu, ht]
          · rintro ⟨hguard, hmeets⟩ bs hbs t ht
            have hIu : I u := (hiff s a u hs hI hu).mpr hguard
            cases bs with
            | nil =>
                cases ht
                exact hI
            | cons b bs =>
                obtain ⟨rfl, htail⟩ := List.cons_prefix_cons.mp hbs
                rw [exec_cons hu] at ht
                exact (ih (hkeep s b u hs hu) hIu).mpr hmeets bs htail t ht

/-- An invariant under which no action is ever refused makes every run complete. -/
theorem exec_of_progress {I : σ → Prop}
    (hkeep : ∀ s a, I s → ∃ t, step s a = some t ∧ I t) {s : σ} (hs : I s) (as : List α) :
    ∃ t, exec step s as = some t ∧ I t := by
  induction as generalizing s with
  | nil => exact ⟨s, rfl, hs⟩
  | cons a as ih =>
      obtain ⟨t, ht, hIt⟩ := hkeep s a hs
      rw [exec_cons ht]
      exact ih hIt

/-! ## Calls that answer -/

section Answers

variable {β ν : Type*} (call : σ → α → β × σ)

/-- The answers to a list of calls, and the state they leave. -/
def answers : σ → List α → List β × σ
  | s, [] => ([], s)
  | s, a :: as =>
      let (b, t) := call s a
      let (bs, u) := answers t as
      (b :: bs, u)

/-- Calls that answer from a view of the state, and change it from that view,
cannot tell two states with the same view apart. -/
theorem answers_eq_of_view {call : σ → α → β × σ} {view : σ → ν}
    (hanswer : ∀ s t a, view s = view t → (call s a).1 = (call t a).1)
    (hview : ∀ s t a, view s = view t → view (call s a).2 = view (call t a).2)
    {s t : σ} (h : view s = view t) (as : List α) :
    (answers call s as).1 = (answers call t as).1 ∧
      view (answers call s as).2 = view (answers call t as).2 := by
  induction as generalizing s t with
  | nil => exact ⟨rfl, h⟩
  | cons a as ih =>
      obtain ⟨hrest, hend⟩ := ih (hview s t a h)
      refine ⟨?_, hend⟩
      simp only [answers]
      rw [hanswer s t a h, hrest]

end Answers

end Runs
