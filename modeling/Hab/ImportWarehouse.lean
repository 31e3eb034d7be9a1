import Mathlib.Data.Prod.Lex
import Hab.Library.Runs
import Hab.Library.SearchTree

/-!
# The import warehouse of a context (`hab_linux.c`)

The descriptors that a context was sent and may import are kept in a red-black tree, by
their export id and the pchan they came on.  The code descends by itself; the rotations,
`rb_insert_color` and `rb_erase`, are those of the kernel.
-/

namespace Hab

namespace ImportWhse

open BinaryTree SearchTree

/-- `struct export_desc_super`, as far as the tree looks at it. -/
structure ExpDescSuper where
  addr : UInt64
  exportId : UInt32
  /-- The address of the pchan. -/
  pchan : UInt64
deriving DecidableEq

def habRbExpFind (key : ExpDescSuper) : BinaryTree ExpDescSuper → Option ExpDescSuper
  | nil => none
  | node expSuper left right =>
      if key.exportId < expSuper.exportId then habRbExpFind key left
      else if key.exportId > expSuper.exportId then habRbExpFind key right
      else if key.pchan < expSuper.pchan then habRbExpFind key left
      else if key.pchan > expSuper.pchan then habRbExpFind key right
      else some expSuper

/-- The loop of `hab_rb_exp_insert` and `rb_link_node`: the tree with the new leaf, or the
node that stops the loop. -/
def linkNode (expSuper : ExpDescSuper) :
    BinaryTree ExpDescSuper → Except ExpDescSuper (BinaryTree ExpDescSuper)
  | nil => .ok (node expSuper nil nil)
  | node this left right =>
      if expSuper.exportId < this.exportId then
        (linkNode expSuper left).map fun left ↦ node this left right
      else if expSuper.exportId > this.exportId then
        (linkNode expSuper right).map fun right ↦ node this left right
      else if expSuper.pchan < this.pchan then
        (linkNode expSuper left).map fun left ↦ node this left right
      else if expSuper.pchan > this.pchan then
        (linkNode expSuper right).map fun right ↦ node this left right
      else .error this

/-- A function that changes the shape of a tree around a node. -/
abbrev Rebalance := ExpDescSuper → BinaryTree ExpDescSuper → BinaryTree ExpDescSuper

/-- `hab_rb_exp_insert`: what it returns, and the tree. -/
def habRbExpInsert (rbInsertColor : Rebalance) (expSuper : ExpDescSuper)
    (root : BinaryTree ExpDescSuper) : Option ExpDescSuper × BinaryTree ExpDescSuper :=
  match linkNode expSuper root with
  | .error this => (some this, root)
  | .ok root => (none, rbInsertColor expSuper root)

/-- The keys are compared one after the other. -/
def KeyLt (a b : ExpDescSuper) : Prop :=
  a.exportId < b.exportId ∨ a.exportId = b.exportId ∧ a.pchan < b.pchan

def sameKey (a b : ExpDescSuper) : Bool := a.exportId = b.exportId && a.pchan = b.pchan

/-! ## The two descents are those of a search tree -/

/-- The key in a linear order. -/
def lexKey (expSuper : ExpDescSuper) : ℕ ×ₗ ℕ :=
  toLex (expSuper.exportId.toNat, expSuper.pchan.toNat)

variable {a b : ExpDescSuper}

theorem lexKey_lt_iff : lexKey a < lexKey b ↔ KeyLt a b := by
  rw [lexKey, lexKey, Prod.Lex.toLex_lt_toLex, KeyLt, UInt32.lt_iff_toNat_lt,
    UInt64.lt_iff_toNat_lt, UInt32.toNat_inj]

theorem lexKey_eq_iff : lexKey a = lexKey b ↔ sameKey a b = true := by
  rw [lexKey, lexKey, toLex_inj, Prod.mk.injEq, UInt32.toNat_inj, UInt64.toNat_inj, sameKey,
    Bool.and_eq_true, decide_eq_true_iff, decide_eq_true_iff]

/-- The comparisons of the code decide as one comparison of keys does. -/
theorem compare_eq {γ : Type*} (a b : ExpDescSuper) (left right here : γ) :
    (if a.exportId < b.exportId then left
      else if a.exportId > b.exportId then right
      else if a.pchan < b.pchan then left
      else if a.pchan > b.pchan then right
      else here) =
    if lexKey a < lexKey b then left else if lexKey b < lexKey a then right else here := by
  simp only [lexKey_lt_iff, KeyLt, gt_iff_lt, UInt32.lt_iff_toNat_lt, UInt64.lt_iff_toNat_lt,
    ← UInt32.toNat_inj]
  split_ifs <;> first | rfl | omega

theorem habRbExpFind_eq (key : ExpDescSuper) (root : BinaryTree ExpDescSuper) :
    habRbExpFind key root = find lexKey (lexKey key) root := by
  induction root with
  | nil => rfl
  | node expSuper left right ihleft ihright =>
      rw [habRbExpFind, compare_eq, ihleft, ihright, find]

theorem linkNode_eq (expSuper : ExpDescSuper) (root : BinaryTree ExpDescSuper) :
    linkNode expSuper root = link lexKey expSuper root := by
  induction root with
  | nil => rfl
  | node this left right ihleft ihright =>
      rw [linkNode, compare_eq, ihleft, ihright, link]

/-! ## Runs -/

/-- The tree, and the descriptors that were inserted and not removed. -/
structure Warehouse where
  root : BinaryTree ExpDescSuper
  held : List ExpDescSuper

inductive Call where
  | insert (expSuper : ExpDescSuper)
  | remove (expSuper : ExpDescSuper)

/-- One call; only descriptors that are in the warehouse are removed. -/
def step (rbInsertColor rbErase : Rebalance) (s : Warehouse) : Call → Option Warehouse
  | .insert expSuper =>
      some {
        root := (habRbExpInsert rbInsertColor expSuper s.root).2
        held := if s.held.any (sameKey expSuper) then s.held else expSuper :: s.held }
  | .remove expSuper =>
      if expSuper ∈ s.held then
        some { root := rbErase expSuper s.root, held := s.held.erase expSuper }
      else none

def start : Warehouse := ⟨nil, []⟩

structure Inv (s : Warehouse) : Prop where
  ordered : Ordered lexKey s.root
  held : (inorder s.root).Perm s.held

theorem Inv.start : Inv start := ⟨List.Pairwise.nil, List.Perm.refl _⟩

variable {rbInsertColor rbErase : Rebalance} {s : Warehouse} {expSuper : ExpDescSuper}

theorem Inv.find_eq_some_iff (h : Inv s) (key : ExpDescSuper) :
    habRbExpFind key s.root = some expSuper ↔
      expSuper ∈ s.held ∧ sameKey key expSuper = true := by
  rw [habRbExpFind_eq, SearchTree.find_eq_some_iff h.ordered, h.held.mem_iff, ← lexKey_eq_iff]
  exact and_congr_right fun _ ↦ eq_comm

theorem Inv.find_eq_none_iff (h : Inv s) (key : ExpDescSuper) :
    habRbExpFind key s.root = none ↔ s.held.any (sameKey key) = false := by
  rw [habRbExpFind_eq, SearchTree.find_eq_none_iff h.ordered, List.any_eq_false]
  constructor
  · intro hall x hx hsame
    exact hall x (h.held.mem_iff.mpr hx) (lexKey_eq_iff.mpr hsame).symm
  · intro hall x hx hkey
    exact hall x (h.held.mem_iff.mp hx) (lexKey_eq_iff.mp hkey.symm)

theorem insert_of_find_eq_some {key this : ExpDescSuper} {root : BinaryTree ExpDescSuper}
    (h : habRbExpFind key root = some this) :
    habRbExpInsert rbInsertColor key root = (some this, root) := by
  rw [habRbExpFind_eq] at h
  rw [habRbExpInsert, linkNode_eq, link_of_find_eq_some h]

/-- `rb_insert_color` keeps the in-order sequence of the tree it is called on. -/
def KeepsSequence (rbInsertColor : Rebalance) : Prop :=
  ∀ expSuper root, expSuper ∈ inorder root → inorder (rbInsertColor expSuper root) = inorder root

/-- `rb_erase` takes the node it is called with out of the in-order sequence. -/
def ErasesNode (rbErase : Rebalance) : Prop :=
  ∀ expSuper root, expSuper ∈ inorder root →
    inorder (rbErase expSuper root) = (inorder root).erase expSuper

theorem Inv.insert_of_find_eq_none (h : Inv s) (hcolor : KeepsSequence rbInsertColor)
    (hnone : habRbExpFind expSuper s.root = none) :
    (habRbExpInsert rbInsertColor expSuper s.root).1 = none ∧
      Inv ⟨(habRbExpInsert rbInsertColor expSuper s.root).2, expSuper :: s.held⟩ := by
  rw [habRbExpFind_eq] at hnone
  obtain ⟨linked, hlink, hperm, hordered⟩ := link_of_find_eq_none hnone
  have hmem : expSuper ∈ inorder linked := hperm.mem_iff.mpr List.mem_cons_self
  have hsequence := hcolor expSuper linked hmem
  have hinsert : habRbExpInsert rbInsertColor expSuper s.root =
      (none, rbInsertColor expSuper linked) := by
    rw [habRbExpInsert, linkNode_eq, hlink]
  rw [hinsert]
  refine ⟨rfl, (hordered h.ordered).of_inorder_eq hsequence, ?_⟩
  rw [hsequence]
  exact hperm.trans (h.held.cons _)

theorem Inv.remove (h : Inv s) (herase : ErasesNode rbErase) (hmem : expSuper ∈ s.held) :
    Inv ⟨rbErase expSuper s.root, s.held.erase expSuper⟩ := by
  have hsequence := herase expSuper s.root (h.held.mem_iff.mpr hmem)
  refine ⟨h.ordered.erase hsequence, ?_⟩
  rw [hsequence]
  exact h.held.erase expSuper

theorem Inv.step {t : Warehouse} {call : Call} (hcolor : KeepsSequence rbInsertColor)
    (herase : ErasesNode rbErase) (h : Inv s)
    (hstep : ImportWhse.step rbInsertColor rbErase s call = some t) : Inv t := by
  cases call with
  | insert expSuper =>
      cases hstep
      cases hfind : habRbExpFind expSuper s.root with
      | none =>
          rw [(h.find_eq_none_iff expSuper).mp hfind]
          exact (h.insert_of_find_eq_none hcolor hfind).2
      | some this =>
          have hany : s.held.any (sameKey expSuper) = true := by
            rw [← Bool.not_eq_false, ← h.find_eq_none_iff, hfind]
            exact Option.some_ne_none this
          rw [hany, insert_of_find_eq_some hfind]
          exact h
  | remove expSuper =>
      rw [ImportWhse.step] at hstep
      split_ifs at hstep with hmem
      cases hstep
      exact h.remove herase hmem

/-- The search in the tree is a search in the list of what is held. -/
theorem Inv.find_eq (h : Inv s) (key : ExpDescSuper) :
    habRbExpFind key s.root = s.held.find? (sameKey key) := by
  cases hfind : habRbExpFind key s.root with
  | none =>
      have hnone := (h.find_eq_none_iff key).mp hfind
      rw [List.any_eq_false] at hnone
      exact (List.find?_eq_none.mpr hnone).symm
  | some this =>
      obtain ⟨hmem, hsame⟩ := (h.find_eq_some_iff key).mp hfind
      have hsome : (s.held.find? (sameKey key)).isSome := List.find?_isSome.mpr ⟨this, hmem, hsame⟩
      obtain ⟨other, hother⟩ := Option.isSome_iff_exists.mp hsome
      have hfound := (h.find_eq_some_iff key).mpr
        ⟨List.mem_of_find?_eq_some hother, List.find?_some hother⟩
      rw [hother, ← hfound, hfind]

/-- After any calls the keys ascend in the tree, a search finds what was inserted under a
key and not removed, an insertion under a key that is in use returns the node that is there
and leaves the tree as it is, and an insertion under any other key returns no node. -/
theorem warehouse_isMap {calls : List Call} (hcolor : KeepsSequence rbInsertColor)
    (herase : ErasesNode rbErase)
    (h : Runs.exec (step rbInsertColor rbErase) start calls = some s) :
    (inorder s.root).Pairwise KeyLt ∧
      (∀ key, habRbExpFind key s.root = s.held.find? (sameKey key)) ∧
      (∀ expSuper this, this ∈ s.held → sameKey expSuper this = true →
        habRbExpInsert rbInsertColor expSuper s.root = (some this, s.root)) ∧
      ∀ expSuper, s.held.any (sameKey expSuper) = false →
        (habRbExpInsert rbInsertColor expSuper s.root).1 = none := by
  have hinv : Inv s :=
    Runs.invariant_of_exec (fun _ _ _ hI hstep ↦ hI.step hcolor herase hstep) Inv.start h
  refine ⟨hinv.ordered.imp fun hlt ↦ lexKey_lt_iff.mp hlt, hinv.find_eq, ?_, ?_⟩
  · intro expSuper this hmem hsame
    exact insert_of_find_eq_some ((hinv.find_eq_some_iff expSuper).mpr ⟨hmem, hsame⟩)
  · intro expSuper hnone
    have hfind := (hinv.find_eq_none_iff expSuper).mpr hnone
    exact (hinv.insert_of_find_eq_none hcolor hfind).1

/-- Two pchans send a descriptor with the same export id, and one of them is removed. -/
theorem warehouse_isMap_two :
    ∃ s, Runs.exec (step (fun _ root ↦ root) SearchTree.remove) start
        [.insert ⟨0x10, 7, 0x200⟩, .insert ⟨0x20, 7, 0x100⟩, .remove ⟨0x20, 7, 0x100⟩] = some s ∧
      (inorder s.root).Pairwise KeyLt ∧
      habRbExpFind ⟨0, 7, 0x200⟩ s.root = some ⟨0x10, 7, 0x200⟩ := by
  have hcolor : KeepsSequence fun _ root ↦ root := fun _ _ _ ↦ rfl
  have herase : ErasesNode SearchTree.remove := fun expSuper root _ ↦ inorder_remove expSuper root
  refine ⟨_, rfl, ?_⟩
  have hrun : Runs.exec (step (fun _ root ↦ root) SearchTree.remove) start
      [.insert ⟨0x10, 7, 0x200⟩, .insert ⟨0x20, 7, 0x100⟩, .remove ⟨0x20, 7, 0x100⟩] =
    some _ := rfl
  obtain ⟨hpairwise, hfind, -, -⟩ := warehouse_isMap hcolor herase hrun
  exact ⟨hpairwise, (hfind _).trans rfl⟩

end ImportWhse

end Hab
