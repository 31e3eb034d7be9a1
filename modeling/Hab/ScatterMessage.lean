import Mathlib.Algebra.Order.BigOperators.Group.List
import Hab.Frame
import Hab.Library.Slab

/-!
# The buffers of a scatter message (`hab_msg.c`)

A message for which there is no single block is received into one buffer a page.  How many
buffers there are follows from the size that the header announces; how many of them are
freed later follows from what the reads returned.
-/

namespace Hab

namespace Scatter

open Slab

/-- `struct hab_message` of a received message: its block, and the buffers whose addresses
are in `data` where it is a scatter message. -/
structure Message where
  block : ℕ
  scatter : Bool
  sizebytes : ℕ
  scatterBuf : List ℕ
deriving DecidableEq

/-- What one call of `hab_scatter_msg_alloc` meets. -/
structure Env where
  /-- `kzalloc` for the message has memory. -/
  message : Bool
  /-- `kzalloc` for the buffer with this index has. -/
  page : ℕ → Bool
  /-- What the `physical_channel_read` into this buffer returns. -/
  read : ℕ → ℕ

/-- The loop over whole pages, with `n` of them left from the `i`-th on: whether it has
failed, and the buffers it has got. -/
def allocLoop (page : ℕ → Bool) : ℕ → ℕ → Heap → Bool × List ℕ × Heap
  | 0, _, heap => (false, [], heap)
  | n + 1, i, heap =>
      match heap.alloc (page i) with
      | (none, heap) => (true, [], heap)
      | (some buf, heap) =>
          let (failed, bufs, heap) := allocLoop page n (i + 1) heap
          (failed, buf :: bufs, heap)

/-- The buffers for all pages, the last one as large as what is left. -/
def allocBufs (page : ℕ → Bool) (sizebytes : ℕ) (heap : Heap) : Bool × List ℕ × Heap :=
  let (failed, bufs, heap) := allocLoop page (sizebytes / pageSize) 0 heap
  if !failed && sizebytes % pageSize ≠ 0 then
    match heap.alloc (page (sizebytes / pageSize)) with
    | (none, heap) => (true, bufs, heap)
    | (some buf, heap) => (false, bufs ++ [buf], heap)
  else (failed, bufs, heap)

/-- What the reads into the buffers return together. -/
def readBufs (read : ℕ → ℕ) (sizebytes : ℕ) : ℕ :=
  ((List.range (sizebytes / pageSize)).map read).sum +
    if sizebytes % pageSize ≠ 0 then read (sizebytes / pageSize) else 0

def habScatterMsgAlloc (env : Env) (sizebytes : ℕ) (heap : Heap) : Option Message × Heap :=
  if sizebytes ≤ pageSize then (none, heap)
  else
    match heap.alloc env.message with
    | (none, heap) => (none, heap)
    | (some block, heap) =>
        let (failed, bufs, heap) := allocBufs env.page sizebytes heap
        if !failed then
          (some {
            block := block
            scatter := true
            sizebytes := readBufs env.read sizebytes
            scatterBuf := bufs }, heap)
        else (none, (bufs.foldl Heap.free heap).free block)

/-- The pages that so many bytes take. -/
def pageNum (sizebytes : ℕ) : ℕ :=
  sizebytes / pageSize + if sizebytes % pageSize ≠ 0 then 1 else 0

/-- The loop of `hab_msg_free`, with `n` of the addresses left from the `i`-th on.  There is
no result if it reads behind the addresses. -/
def freeLoop (bufs : List ℕ) : ℕ → ℕ → Heap → Option Heap
  | 0, _, heap => some heap
  | n + 1, i, heap => do
      let buf ← bufs[i]?
      freeLoop bufs n (i + 1) (heap.free buf)

def habMsgFree (message : Message) (heap : Heap) : Option Heap :=
  if message.scatter then do
    let heap ← freeLoop message.scatterBuf (pageNum message.sizebytes) 0 heap
    some (heap.free message.block)
  else some (heap.free message.block)

/-! ## Allocating -/

variable {before heap : Heap} {held : List ℕ}

theorem allocLoop_spec (page : ℕ → Bool) {n i : ℕ} (h : Holds before heap held) :
    Holds before (allocLoop page n i heap).2.2 (held ++ (allocLoop page n i heap).2.1) ∧
      ((allocLoop page n i heap).1 = false ↔ ∀ k < n, page (i + k) = true) ∧
      ((allocLoop page n i heap).1 = false → (allocLoop page n i heap).2.1.length = n) := by
  induction n generalizing i heap held with
  | zero => simpa [allocLoop] using h
  | succ n ih =>
      cases hpage : page i with
      | false =>
          simp only [allocLoop, hpage, Heap.alloc, Bool.false_eq_true, if_false, List.append_nil]
          refine ⟨h, ?_, ?_⟩
          · simp only [Bool.true_eq_false, false_iff, not_forall]
            refine ⟨0, Nat.succ_pos n, ?_⟩
            rw [Nat.add_zero, hpage]
            decide
          · intro hfailed
            exact absurd hfailed (by decide)
      | true =>
          obtain ⟨hheld, hfailed, hlength⟩ := ih (i := i + 1) h.alloc
          simp only [allocLoop, hpage, Heap.alloc, if_true]
          rw [List.append_assoc] at hheld
          refine ⟨hheld, ?_, ?_⟩
          · rw [hfailed]
            constructor
            · intro hall k hk
              cases k with
              | zero => exact hpage
              | succ k =>
                  rw [Nat.add_comm k 1, ← Nat.add_assoc]
                  exact hall k (by omega)
            · intro hall k hk
              rw [Nat.add_assoc, Nat.add_comm 1 k]
              exact hall (k + 1) (by omega)
          · intro hok
            rw [List.length_cons, hlength hok]

theorem allocBufs_spec (page : ℕ → Bool) (sizebytes : ℕ) (h : Holds before heap held) :
    Holds before (allocBufs page sizebytes heap).2.2
        (held ++ (allocBufs page sizebytes heap).2.1) ∧
      ((allocBufs page sizebytes heap).1 = false ↔ ∀ k < pageNum sizebytes, page k = true) ∧
      ((allocBufs page sizebytes heap).1 = false →
        (allocBufs page sizebytes heap).2.1.length = pageNum sizebytes) := by
  obtain ⟨hheld, hfailed, hlength⟩ :=
    allocLoop_spec page (n := sizebytes / pageSize) (i := 0) h
  simp only [Nat.zero_add] at hfailed
  unfold allocBufs
  generalize allocLoop page (sizebytes / pageSize) 0 heap = loop at hheld hfailed hlength
  obtain ⟨failed, bufs, after⟩ := loop
  simp only at hheld hfailed hlength
  by_cases hrest : sizebytes % pageSize ≠ 0
  · have hnum : pageNum sizebytes = sizebytes / pageSize + 1 := by rw [pageNum, if_pos hrest]
    rw [hnum]
    cases failed with
    | true =>
        have hsome := hfailed.not.mp (by decide)
        simp only [Bool.not_true, Bool.false_and, Bool.false_eq_true, if_false]
        refine ⟨hheld, ?_, fun hok ↦ absurd hok (by decide)⟩
        simp only [Bool.true_eq_false, false_iff]
        intro hall
        exact hsome fun k hk ↦ hall k (by omega)
    | false =>
        have hall := hfailed.mp rfl
        simp only [Bool.not_false, Bool.true_and, decide_eq_true hrest, if_true]
        cases hpage : page (sizebytes / pageSize) with
        | false =>
            simp only [Heap.alloc, Bool.false_eq_true, if_false]
            refine ⟨hheld, ?_, fun hok ↦ absurd hok (by decide)⟩
            simp only [Bool.true_eq_false, false_iff]
            intro hpages
            exact absurd (hpages (sizebytes / pageSize) (by omega)) (by rw [hpage]; decide)
        | true =>
            simp only [Heap.alloc, if_true]
            rw [← List.append_assoc]
            refine ⟨hheld.alloc, ?_, ?_⟩
            · simp only [true_iff]
              intro k hk
              rcases Nat.lt_succ_iff_lt_or_eq.mp hk with hlt | heq
              · exact hall k hlt
              · rw [heq, hpage]
            · intro _
              rw [List.length_append, hlength rfl, List.length_singleton]
  · have hnum : pageNum sizebytes = sizebytes / pageSize := by
      rw [pageNum, if_neg hrest, Nat.add_zero]
    rw [hnum]
    simp only [decide_eq_false hrest, Bool.and_false, Bool.false_eq_true, if_false]
    exact ⟨hheld, hfailed, hlength⟩

/-! ## Reading -/

/-- No read returns more than it was asked for. -/
def ReadsWithin (read : ℕ → ℕ) (sizebytes : ℕ) : Prop :=
  (∀ k < sizebytes / pageSize, read k ≤ pageSize) ∧
    (sizebytes % pageSize ≠ 0 → read (sizebytes / pageSize) ≤ sizebytes % pageSize)

theorem readBufs_le {read : ℕ → ℕ} {sizebytes : ℕ} (h : ReadsWithin read sizebytes) :
    readBufs read sizebytes ≤ sizebytes := by
  have hwhole : ((List.range (sizebytes / pageSize)).map read).sum ≤
      sizebytes / pageSize * pageSize := by
    have hle := List.sum_le_card_nsmul ((List.range (sizebytes / pageSize)).map read) pageSize
      (by
        intro n hn
        obtain ⟨k, hk, rfl⟩ := List.mem_map.mp hn
        exact h.1 k (List.mem_range.mp hk))
    rwa [List.length_map, List.length_range, nsmul_eq_mul] at hle
  have hdiv := Nat.div_add_mod' sizebytes pageSize
  rw [readBufs]
  split_ifs with hrest
  · have hlast := h.2 hrest
    omega
  · omega

theorem pageNum_eq (sizebytes : ℕ) :
    pageNum sizebytes = (sizebytes + (pageSize - 1)) / pageSize := by
  unfold pageNum
  by_cases hrest : sizebytes % pageSize ≠ 0
  · rw [if_pos hrest]
    simp only [pageSize] at hrest ⊢
    omega
  · rw [if_neg hrest]
    simp only [pageSize] at hrest ⊢
    omega

theorem pageNum_mono {a b : ℕ} (h : a ≤ b) : pageNum a ≤ pageNum b := by
  rw [pageNum_eq, pageNum_eq]
  exact Nat.div_le_div_right (Nat.add_le_add_right h _)

/-! ## Freeing -/

theorem freeLoop_eq (heap : Heap) {bufs : List ℕ} {n i : ℕ} (h : i + n ≤ bufs.length) :
    freeLoop bufs n i heap = some (((bufs.drop i).take n).foldl Heap.free heap) := by
  induction n generalizing i heap with
  | zero => simp [freeLoop]
  | succ n ih =>
      have hi : i < bufs.length := by omega
      rw [freeLoop, List.getElem?_eq_getElem hi, List.drop_eq_getElem_cons hi, List.take_succ_cons,
        List.foldl_cons]
      exact ih (heap.free bufs[i]) (by omega)

/-- The buffers behind the first pages stay. -/
theorem habMsgFree_holds (message : Message) (hscatter : message.scatter = true)
    (hnum : pageNum message.sizebytes ≤ message.scatterBuf.length)
    (h : Holds before heap (message.block :: message.scatterBuf)) :
    ∃ after, habMsgFree message heap = some after ∧
      Holds before after (message.scatterBuf.drop (pageNum message.sizebytes)) := by
  have hbound : 0 + pageNum message.sizebytes ≤ message.scatterBuf.length := by omega
  have hloop := freeLoop_eq heap hbound
  rw [List.drop_zero] at hloop
  refine ⟨((message.scatterBuf.take (pageNum message.sizebytes)).foldl Heap.free heap).free
    message.block, ?_, ?_⟩
  · rw [habMsgFree, if_pos hscatter, hloop]
    rfl
  · have hsplit : (message.scatterBuf.take (pageNum message.sizebytes) ++
        message.block :: message.scatterBuf.drop (pageNum message.sizebytes)).Perm
        (message.block :: message.scatterBuf) := by
      refine List.perm_middle.trans ?_
      rw [List.take_append_drop]
    apply Holds.free
    apply Holds.freeAll
    exact h.perm hsplit.symm

/-! ## A message from its allocation to its end -/

/-- `hab_scatter_msg_alloc` frees what it allocated, or returns a message with which
`hab_msg_free` does, each buffer once and nothing else. -/
def FreesExactly (env : Env) (sizebytes : ℕ) (heap : Heap) : Prop :=
  match habScatterMsgAlloc env sizebytes heap with
  | (none, after) => FreedExactly heap after
  | (some message, after) =>
      ∃ freed, habMsgFree message after = some freed ∧ FreedExactly heap freed

theorem freesExactly_of_noMessage {env : Env} {sizebytes : ℕ} (hlarge : pageSize < sizebytes)
    (hmessage : env.message = false) : FreesExactly env sizebytes heap := by
  rw [FreesExactly, habScatterMsgAlloc, if_neg (by omega), hmessage]
  exact Holds.refl heap

theorem freesExactly_of_failed {env : Env} {sizebytes : ℕ} (hlarge : pageSize < sizebytes)
    (hmessage : env.message = true) (hpage : ¬ ∀ k < pageNum sizebytes, env.page k = true) :
    FreesExactly env sizebytes heap := by
  obtain ⟨hheld, hfailed, -⟩ := allocBufs_spec env.page sizebytes (Holds.refl heap).alloc
  have htrue := (Bool.not_eq_false _).mp (hfailed.not.mpr hpage)
  rw [FreesExactly, habScatterMsgAlloc, if_neg (by omega), hmessage]
  simp only [Heap.alloc, if_true, htrue, Bool.not_true, Bool.false_eq_true, if_false]
  apply Holds.free
  apply Holds.freeAll
  exact hheld.perm List.perm_append_comm

/-- With all buffers there, what is freed depends on what was read. -/
theorem freesExactly_iff_of_allocated {env : Env} {sizebytes : ℕ} (hlarge : pageSize < sizebytes)
    (hread : ReadsWithin env.read sizebytes) (hmessage : env.message = true)
    (hpage : ∀ k < pageNum sizebytes, env.page k = true) :
    FreesExactly env sizebytes heap ↔
      pageNum (readBufs env.read sizebytes) = pageNum sizebytes := by
  obtain ⟨hheld, hfailed, hlength⟩ := allocBufs_spec env.page sizebytes (Holds.refl heap).alloc
  have hfalse := hfailed.mpr hpage
  have hbufs := hlength hfalse
  have hle := pageNum_mono (readBufs_le hread)
  rw [FreesExactly, habScatterMsgAlloc, if_neg (by omega), hmessage]
  simp only [Heap.alloc, if_true, hfalse, Bool.not_false]
  obtain ⟨after, hfree, hleft⟩ := habMsgFree_holds
    ⟨heap.next, true, readBufs env.read sizebytes, _⟩ rfl (by rw [hbufs]; exact hle) hheld
  constructor
  · rintro ⟨freed, hfreed, hexact⟩
    cases hfree.symm.trans hfreed
    have hnil := hleft.freedExactly_iff.mp hexact
    rw [List.drop_eq_nil_iff, hbufs] at hnil
    exact Nat.le_antisymm hle hnil
  · intro heq
    refine ⟨after, hfree, hleft.freedExactly_iff.mpr ?_⟩
    rw [List.drop_eq_nil_iff, hbufs, heq]

/-- The buffers behind the pages that were filled are lost, and only they: a message is
freed exactly if an allocation has failed, or if what was read takes as many pages as what
was announced. -/
theorem freesExactly_iff (env : Env) (heap : Heap) {sizebytes : ℕ} (hlarge : pageSize < sizebytes)
    (hread : ReadsWithin env.read sizebytes) :
    FreesExactly env sizebytes heap ↔
      env.message = false ∨ (∃ k < pageNum sizebytes, env.page k = false) ∨
        pageNum (readBufs env.read sizebytes) = pageNum sizebytes := by
  cases hmessage : env.message with
  | false => simp [freesExactly_of_noMessage hlarge hmessage]
  | true =>
      by_cases hpage : ∀ k < pageNum sizebytes, env.page k = true
      · rw [freesExactly_iff_of_allocated hlarge hread hmessage hpage]
        constructor
        · exact fun h ↦ Or.inr (Or.inr h)
        · rintro (hfalse | ⟨k, hk, hfalse⟩ | h)
          · exact absurd hfalse (by decide)
          · exact absurd (hpage k hk) (by rw [hfalse]; decide)
          · exact h
      · have hfails : FreesExactly env sizebytes heap :=
          freesExactly_of_failed hlarge hmessage hpage
        refine iff_of_true hfails (Or.inr (Or.inl ?_))
        obtain ⟨k, hk, hfalse⟩ : ∃ k, ∃ _ : k < pageNum sizebytes, ¬ env.page k = true := by
          simpa only [not_forall] using hpage
        exact ⟨k, hk, (Bool.not_eq_true _).mp hfalse⟩

theorem freesExactly_iff_twoPages :
    FreesExactly ⟨true, fun _ ↦ true, fun _ ↦ 4096⟩ 8192 ⟨0, []⟩ ↔
      (true = false ∨ (∃ k < pageNum 8192, true = false) ∨
        pageNum (readBufs (fun _ ↦ 4096) 8192) = pageNum 8192) :=
  freesExactly_iff ⟨true, fun _ ↦ true, fun _ ↦ 4096⟩ ⟨0, []⟩ (by decide)
    ⟨fun _ _ ↦ Nat.le_refl _, fun h ↦ absurd rfl h⟩

/-- The peer announces two pages and sends one byte. -/
theorem not_forall_freesExactly :
    ¬ ∀ (env : Env) (sizebytes : ℕ) (heap : Heap), pageSize < sizebytes →
      sizebytes ≤ habHeaderSizeMax → ReadsWithin env.read sizebytes →
        FreesExactly env sizebytes heap := by
  intro h
  obtain ⟨freed, hfreed, hexact⟩ := h ⟨true, fun _ ↦ true, fun i ↦ if i = 0 then 1 else 0⟩ 8192
    ⟨0, []⟩ (by decide) (by decide) ⟨by decide, fun h ↦ absurd rfl h⟩
  cases hfreed
  exact absurd hexact.2.length_eq (by decide)

end Scatter

end Hab
