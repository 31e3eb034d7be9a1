import Hab.Library.Runs

/-!
# Simulations

A concrete system simulates an abstract one if each of its guarded steps is matched by a
run, of any length, of the abstract system between the abstractions of its two states.  The
other way, what a system can do is carried over by leading it, with guarded steps, through
one step after the other.
-/

namespace Runs

variable {σ τ α β : Type*} {concrete : σ → α → Option σ} {abstract : τ → β → Option τ}

/-- A run that is matched, by actions that all have a property. -/
def Matched (abstract : τ → β → Option τ) (P : β → Prop) (t u : τ) : Prop :=
  ∃ bs, exec abstract t bs = some u ∧ ∀ b ∈ bs, P b

variable {P : β → Prop} {t u v : τ}

namespace Matched

theorem refl (t : τ) : Matched abstract P t t := ⟨[], rfl, List.forall_mem_nil P⟩

theorem single {b : β} (hstep : abstract t b = some u) (hb : P b) : Matched abstract P t u :=
  ⟨[b], exec_cons hstep [], List.forall_mem_singleton.mpr hb⟩

theorem trans (h : Matched abstract P t u) (h' : Matched abstract P u v) :
    Matched abstract P t v := by
  obtain ⟨bs, hbs, hP⟩ := h
  obtain ⟨cs, hcs, hP'⟩ := h'
  refine ⟨bs ++ cs, (exec_append hbs).trans hcs, ?_⟩
  intro b hb
  rcases List.mem_append.mp hb with hb | hb
  · exact hP b hb
  · exact hP' b hb

end Matched

/-- A step lemma of a simulation gives the run lemma.  `I` is what is known of the states
that a guarded run goes through, and `f` the abstraction. -/
theorem matched_of_meets {guard : σ → α → Prop} {I : σ → Prop} {f : σ → τ}
    (hkeep : ∀ s a s', I s → guard s a → concrete s a = some s' → I s')
    (hmatch : ∀ s a s', I s → guard s a → concrete s a = some s' →
      Matched abstract P (f s) (f s'))
    {s s' : σ} {as : List α} (hs : I s) (hmeets : Meets concrete guard s as)
    (hrun : exec concrete s as = some s') : Matched abstract P (f s) (f s') := by
  have hinv : I s' ∧ Matched abstract P (f s) (f s') := by
    refine invariant_of_meets (I := fun u ↦ I u ∧ Matched abstract P (f s) (f u)) ?_
      ⟨hs, .refl _⟩ hmeets hrun
    rintro u a v ⟨hu, hmatched⟩ hguard huv
    exact ⟨hkeep u a v hu hguard huv, hmatched.trans (hmatch u a v hu hguard huv)⟩
  exact hinv.2

/-! ## Where guarded runs lead -/

section Leads

variable {step : σ → α → Option σ} {guard : σ → α → Prop} {s u v : σ}

/-- There is a guarded run. -/
def Leads (step : σ → α → Option σ) (guard : σ → α → Prop) (s t : σ) : Prop :=
  ∃ as, Meets step guard s as ∧ exec step s as = some t

namespace Leads

theorem refl (s : σ) : Leads step guard s s := ⟨[], trivial, rfl⟩

theorem single {a : α} (hguard : guard s a) (hstep : step s a = some u) : Leads step guard s u :=
  ⟨[a], (meets_cons hstep).mpr ⟨hguard, trivial⟩, exec_cons hstep []⟩

theorem trans (h : Leads step guard s u) (h' : Leads step guard u v) : Leads step guard s v := by
  obtain ⟨as, hmeets, hrun⟩ := h
  obtain ⟨bs, hmeets', hrun'⟩ := h'
  exact ⟨as ++ bs, (meets_append hrun).mpr ⟨hmeets, hmeets'⟩, (exec_append hrun).trans hrun'⟩

/-- What every guarded step keeps holds wherever they lead. -/
theorem invariant {I : σ → Prop} (h : Leads step guard s u)
    (hkeep : ∀ s a t, I s → guard s a → step s a = some t → I t) (hs : I s) : I u := by
  obtain ⟨as, hmeets, hrun⟩ := h
  exact invariant_of_meets hkeep hs hmeets hrun

/-- A run is followed by another system that can follow each guarded step. -/
theorem map {step' : τ → β → Option τ} {guard' : τ → β → Prop} (f : σ → τ)
    (hfollow : ∀ s a t, guard s a → step s a = some t → Leads step' guard' (f s) (f t))
    (h : Leads step guard s u) : Leads step' guard' (f s) (f u) := by
  obtain ⟨as, hmeets, hrun⟩ := h
  induction as generalizing s with
  | nil =>
      cases hrun
      exact refl _
  | cons a as ih =>
      obtain ⟨v, hstep, hrest⟩ := exec_cons_eq_some.mp hrun
      obtain ⟨hguard, hmeets⟩ := (meets_cons hstep).mp hmeets
      exact (hfollow s a v hguard hstep).trans (ih hmeets hrest)

end Leads

end Leads

end Runs
