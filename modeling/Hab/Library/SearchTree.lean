import Mathlib.Data.Tree.Basic
import Mathlib.Data.List.Perm.Basic
import Mathlib.Order.Lattice
import Mathlib.Tactic.Common

/-!
# Binary search trees

Entries with a key of a linear order sit in a tree whose in-order sequence ascends.  A
search and the search for the place of a new entry go down the tree by comparisons of keys.
Whatever keeps the in-order sequence, such as a rotation, changes nothing that a search
finds.
-/

namespace SearchTree

open BinaryTree

variable {α κ : Type*}

def inorder : BinaryTree α → List α
  | nil => []
  | node x left right => inorder left ++ x :: inorder right

variable [LinearOrder κ] (key : α → κ)

/-- The keys ascend in the in-order sequence. -/
def Ordered (t : BinaryTree α) : Prop := (inorder t).Pairwise fun x y ↦ key x < key y

def find (k : κ) : BinaryTree α → Option α
  | nil => none
  | node x left right =>
      if k < key x then find k left
      else if key x < k then find k right
      else some x

/-- Link an entry as a leaf, or return the entry that has its key. -/
def link (x : α) : BinaryTree α → Except α (BinaryTree α)
  | nil => .ok (node x nil nil)
  | node y left right =>
      if key x < key y then (link x left).map fun left ↦ node y left right
      else if key y < key x then (link x right).map fun right ↦ node y left right
      else .error y

variable {key} {x y : α} {k : κ} {t u left right : BinaryTree α}

theorem mem_inorder_node :
    y ∈ inorder (node x left right) ↔ y ∈ inorder left ∨ y = x ∨ y ∈ inorder right := by
  rw [inorder, List.mem_append, List.mem_cons]

theorem ordered_node :
    Ordered key (node x left right) ↔
      Ordered key left ∧ Ordered key right ∧ (∀ y ∈ inorder left, key y < key x) ∧
        ∀ y ∈ inorder right, key x < key y := by
  rw [Ordered, inorder, List.pairwise_append, List.pairwise_cons]
  constructor
  · rintro ⟨hleft, ⟨hbelow, hright⟩, hcross⟩
    exact ⟨hleft, hright, fun y hy ↦ hcross y hy x List.mem_cons_self, hbelow⟩
  · rintro ⟨hleft, hright, habove, hbelow⟩
    refine ⟨hleft, ⟨hbelow, hright⟩, ?_⟩
    intro y hy z hz
    rcases List.mem_cons.mp hz with rfl | hz
    · exact habove y hy
    · exact (habove y hy).trans (hbelow z hz)

theorem Ordered.eq_of_key_eq (h : Ordered key t) (hx : x ∈ inorder t) (hy : y ∈ inorder t)
    (hkey : key x = key y) : x = y := by
  by_contra hne
  have hlt := List.Pairwise.forall_of_forall_of_flip (R := fun x y ↦ x ≠ y → key x ≠ key y)
    (fun x _ hself ↦ absurd rfl hself) (h.imp fun hlt _ ↦ hlt.ne) (h.imp fun hlt _ ↦ hlt.ne')
  exact hlt hx hy hne hkey

/-! ## Searching -/

theorem find_eq_some_iff (h : Ordered key t) :
    find key k t = some x ↔ x ∈ inorder t ∧ key x = k := by
  induction t with
  | nil => simp [find, inorder]
  | node y left right ihleft ihright =>
      obtain ⟨hleft, hright, habove, hbelow⟩ := ordered_node.mp h
      rw [find, mem_inorder_node]
      split_ifs with hlt hgt
      · rw [ihleft hleft]
        constructor
        · exact fun hx ↦ ⟨Or.inl hx.1, hx.2⟩
        · rintro ⟨hx | rfl | hx, hkey⟩
          · exact ⟨hx, hkey⟩
          · exact absurd hkey hlt.ne'
          · exact absurd hkey (hlt.trans (hbelow x hx)).ne'
      · rw [ihright hright]
        constructor
        · exact fun hx ↦ ⟨Or.inr (Or.inr hx.1), hx.2⟩
        · rintro ⟨hx | rfl | hx, hkey⟩
          · exact absurd hkey ((habove x hx).trans hgt).ne
          · exact absurd hkey hgt.ne
          · exact ⟨hx, hkey⟩
      · have hroot : key y = k := le_antisymm (not_lt.mp hlt) (not_lt.mp hgt)
        rw [Option.some.injEq]
        constructor
        · rintro rfl
          exact ⟨Or.inr (Or.inl rfl), hroot⟩
        · rintro ⟨hx, hkey⟩
          exact (h.eq_of_key_eq (mem_inorder_node.mpr hx)
            (mem_inorder_node.mpr (Or.inr (Or.inl rfl)))
            (hkey.trans hroot.symm)).symm

theorem find_eq_none_iff (h : Ordered key t) :
    find key k t = none ↔ ∀ x ∈ inorder t, key x ≠ k := by
  rw [Option.eq_none_iff_forall_ne_some]
  constructor
  · intro hnone x hx hkey
    exact hnone x ((find_eq_some_iff h).mpr ⟨hx, hkey⟩)
  · intro hall x hx
    obtain ⟨hmem, hkey⟩ := (find_eq_some_iff h).mp hx
    exact hall x hmem hkey

/-! ## Linking -/

/-- Both descents go the same way. -/
theorem link_of_find_eq_some (h : find key (key x) t = some y) : link key x t = .error y := by
  induction t with
  | nil => exact absurd h (by simp [find])
  | node z left right ihleft ihright =>
      rw [find] at h
      rw [link]
      split_ifs at h ⊢ with hlt hgt
      · rw [ihleft h]
        rfl
      · rw [ihright h]
        rfl
      · cases h
        rfl

theorem link_of_find_eq_none (h : find key (key x) t = none) :
    ∃ u, link key x t = .ok u ∧ (inorder u).Perm (x :: inorder t) ∧
      (Ordered key t → Ordered key u) := by
  induction t with
  | nil => exact ⟨node x nil nil, rfl, List.Perm.refl _, fun _ ↦ List.pairwise_singleton _ _⟩
  | node z left right ihleft ihright =>
      rw [find] at h
      rw [link]
      split_ifs at h ⊢ with hlt hgt
      · obtain ⟨u, hlink, hperm, hordered⟩ := ihleft h
        refine ⟨node z u right, by rw [hlink]; rfl, hperm.append_right _, ?_⟩
        intro hnode
        obtain ⟨hleft, hright, habove, hbelow⟩ := ordered_node.mp hnode
        refine ordered_node.mpr ⟨hordered hleft, hright, ?_, hbelow⟩
        intro y hy
        rcases List.mem_cons.mp (hperm.mem_iff.mp hy) with rfl | hy
        · exact hlt
        · exact habove y hy
      · obtain ⟨u, hlink, hperm, hordered⟩ := ihright h
        refine ⟨node z left u, by rw [hlink]; rfl, ?_, ?_⟩
        · have hgrown : (inorder left ++ z :: inorder u).Perm
              (inorder left ++ z :: x :: inorder right) := (hperm.cons z).append_left _
          have hfront : (inorder left ++ z :: x :: inorder right).Perm
              (x :: (inorder left ++ z :: inorder right)) :=
            ((List.Perm.swap x z _).append_left _).trans List.perm_middle
          exact hgrown.trans hfront
        · intro hnode
          obtain ⟨hleft, hright, habove, hbelow⟩ := ordered_node.mp hnode
          refine ordered_node.mpr ⟨hleft, hordered hright, habove, ?_⟩
          intro y hy
          rcases List.mem_cons.mp (hperm.mem_iff.mp hy) with rfl | hy
          · exact hgt
          · exact hbelow y hy

/-! ## Keeping the sequence -/

theorem Ordered.of_inorder_eq (h : Ordered key t) (heq : inorder u = inorder t) :
    Ordered key u := by
  rw [Ordered, heq]
  exact h

theorem Ordered.erase [DecidableEq α] (h : Ordered key t) (heq : inorder u = (inorder t).erase x) :
    Ordered key u := by
  rw [Ordered, heq]
  exact h.sublist List.erase_sublist

/-! ## Removing without a rotation -/

/-- All of the second tree behind the first. -/
def join : BinaryTree α → BinaryTree α → BinaryTree α
  | nil, u => u
  | node x left right, u => node x left (join right u)

theorem inorder_join (t u : BinaryTree α) : inorder (join t u) = inorder t ++ inorder u := by
  induction t with
  | nil => rfl
  | node x left right _ ihright =>
      rw [join, inorder, inorder, ihright, List.append_assoc, List.cons_append]

def remove [DecidableEq α] (x : α) : BinaryTree α → BinaryTree α
  | nil => nil
  | node y left right =>
      if x ∈ inorder left then node y (remove x left) right
      else if y = x then join left right
      else node y left (remove x right)

theorem inorder_remove [DecidableEq α] (x : α) (t : BinaryTree α) :
    inorder (remove x t) = (inorder t).erase x := by
  induction t with
  | nil => rfl
  | node y left right ihleft ihright =>
      rw [remove, inorder, List.erase_append]
      split_ifs with hleft hroot
      · rw [inorder, ihleft]
      · rw [inorder_join, hroot, List.erase_cons_head]
      · rw [inorder, ihright, List.erase_cons_tail (by simpa using hroot)]

end SearchTree
