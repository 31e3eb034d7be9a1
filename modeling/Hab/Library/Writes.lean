import Mathlib.Logic.Function.Basic
import Mathlib.Tactic.Common

/-!
# A table after a list of entries

Each entry puts its value into the cell of its key.  A cell shows the value of the entry
that came to it last, and what was there before if none did.
-/

namespace Writes

variable {α ι β : Type*} {key : α → ι} {entries later : List α} {a : α} {i : ι}

/-! ## The last entry of a cell -/

/-- An entry that no later one is made over. -/
def Last (key : α → ι) (entries : List α) (a : α) : Prop :=
  ∃ before later, entries = before ++ a :: later ∧ ∀ c ∈ later, key c ≠ key a

theorem Last.mem (h : Last key entries a) : a ∈ entries := by
  obtain ⟨before, later, rfl, -⟩ := h
  exact List.mem_append_right _ List.mem_cons_self

theorem not_last_nil : ¬ Last key [] a := fun h ↦ List.not_mem_nil h.mem

theorem last_cons {c : α} :
    Last key (c :: entries) a ↔
      Last key entries a ∨ c = a ∧ ∀ next ∈ entries, key next ≠ key a := by
  constructor
  · rintro ⟨before, later, heq, hno⟩
    cases before with
    | nil =>
        cases heq
        exact .inr ⟨rfl, hno⟩
    | cons first before =>
        cases heq
        exact .inl ⟨before, later, rfl, hno⟩
  · rintro (⟨before, later, rfl, hno⟩ | ⟨rfl, hno⟩)
    · exact ⟨c :: before, later, rfl, hno⟩
    · exact ⟨[], entries, rfl, hno⟩

theorem last_append :
    Last key (entries ++ later) a ↔
      Last key later a ∨ Last key entries a ∧ ∀ next ∈ later, key next ≠ key a := by
  induction entries with
  | nil => simp [not_last_nil]
  | cons c entries ih =>
      rw [List.cons_append, last_cons, ih, last_cons, List.forall_mem_append]
      tauto

/-- Of entries made in blocks: the last one of its block, and no later block has one. -/
theorem last_flatMap {γ : Type*} {block : γ → List α} {blocks : List γ} :
    Last key (blocks.flatMap block) a ↔
      ∃ before g later, blocks = before ++ g :: later ∧ Last key (block g) a ∧
        ∀ next ∈ later, ∀ c ∈ block next, key c ≠ key a := by
  induction blocks with
  | nil => simp [not_last_nil]
  | cons g blocks ih =>
      rw [List.flatMap_cons, last_append, ih, List.forall_mem_flatMap]
      constructor
      · rintro (⟨before, h, later, rfl, hlast, hno⟩ | ⟨hlast, hno⟩)
        · exact ⟨g :: before, h, later, rfl, hlast, hno⟩
        · exact ⟨[], g, blocks, rfl, hlast, hno⟩
      · rintro ⟨before, h, later, heq, hlast, hno⟩
        cases before with
        | nil =>
            cases heq
            exact .inr ⟨hlast, hno⟩
        | cons first before =>
            cases heq
            exact .inl ⟨before, h, later, rfl, hlast, hno⟩

/-- A cell with an entry has a last one. -/
theorem exists_last (h : ∃ a ∈ entries, key a = i) : ∃ a, key a = i ∧ Last key entries a := by
  induction entries with
  | nil =>
      obtain ⟨a, ha, -⟩ := h
      cases ha
  | cons a entries ih =>
      by_cases hlater : ∃ c ∈ entries, key c = i
      · obtain ⟨c, hc, hlast⟩ := ih hlater
        exact ⟨c, hc, last_cons.mpr (.inl hlast)⟩
      · have hno : ∀ c ∈ entries, key c ≠ i := fun c hc heq ↦ hlater ⟨c, hc, heq⟩
        obtain ⟨c, hc, rfl⟩ := h
        obtain rfl : c = a := (List.mem_cons.mp hc).resolve_right fun hmem ↦ hno c hmem rfl
        exact ⟨c, rfl, last_cons.mpr (.inr ⟨rfl, hno⟩)⟩

/-- Where the key tells the entries apart, each is a last one. -/
theorem last_iff_mem (hkey : ∀ a ∈ entries, ∀ c ∈ entries, key a = key c → a = c) :
    Last key entries a ↔ a ∈ entries := by
  refine ⟨Last.mem, fun hmem ↦ ?_⟩
  obtain ⟨c, hc, hlast⟩ := exists_last ⟨a, hmem, rfl⟩
  exact hkey c hlast.mem a hmem hc ▸ hlast

/-! ## The table -/

variable [DecidableEq ι]

/-- The table after the entries, the first one first. -/
def apply (key : α → ι) (value : α → β) : List α → (ι → β) → ι → β
  | [], table => table
  | a :: entries, table => apply key value entries (Function.update table (key a) (value a))

variable {value : α → β} {table : ι → β} {b : β}

@[simp] theorem apply_nil (table : ι → β) : apply key value [] table = table := rfl

theorem apply_append (entries later : List α) (table : ι → β) :
    apply key value (entries ++ later) table =
      apply key value later (apply key value entries table) := by
  induction entries generalizing table with
  | nil => rfl
  | cons a entries ih => rw [List.cons_append, apply, ih, apply]

theorem apply_of_forall_ne (h : ∀ a ∈ entries, key a ≠ i) :
    apply key value entries table i = table i := by
  induction entries generalizing table with
  | nil => rfl
  | cons a entries ih =>
      obtain ⟨ha, hrest⟩ := List.forall_mem_cons.mp h
      rw [apply, ih hrest, Function.update_of_ne ha.symm]

/-- The last entry for a cell decides. -/
theorem Last.apply_key (h : Last key entries a) :
    apply key value entries table (key a) = value a := by
  obtain ⟨before, later, rfl, hno⟩ := h
  rw [apply_append, apply, apply_of_forall_ne hno, Function.update_self]

/-- A cell that has changed has an entry. -/
theorem exists_of_apply_ne (h : apply key value entries table i ≠ table i) :
    ∃ a ∈ entries, key a = i := by
  by_contra hnone
  exact h (apply_of_forall_ne fun a ha heq ↦ hnone ⟨a, ha, heq⟩)

/-- Where all entries for a cell agree, their order does not matter. -/
theorem apply_eq_of_forall (h : ∃ a ∈ entries, key a = i)
    (hall : ∀ a ∈ entries, key a = i → value a = b) : apply key value entries table i = b := by
  obtain ⟨a, rfl, hlast⟩ := exists_last h
  rw [hlast.apply_key]
  exact hall a hlast.mem rfl

end Writes
