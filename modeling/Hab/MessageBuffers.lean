import Hab.Frame

/-!
# Received messages in one block or in pages (`hab_msg.c`, `hab_linux.c`, `khab.c`)

`hab_msg_alloc` reads a message into one block behind `struct hab_message`, or, where
there is no block of that size, into pages whose addresses it keeps in that place.
A result `none` stands for an access outside the buffers of the message.
-/

namespace Hab

open Memory

/-- A block that `kzalloc` returned, with what was read into it. -/
structure Block where
  addr : UInt64
  bytes : List UInt8

/-- Read `n` bytes from an address on, all of them in one block. -/
def loadFrom (heap : List Block) (addr n : ℕ) : Option (List UInt8) :=
  heap.findSome? fun b ↦
    if b.addr.toNat ≤ addr then load b.bytes (addr - b.addr.toNat) n else none

/-- `struct hab_message`; `data` holds the payload, or the addresses of its pages. -/
structure HabMessage where
  sizebytes : ℕ
  scatter : Bool
  data : List UInt8

/-- How the calls of `kzalloc` turn out. -/
structure MsgAllocs where
  /-- The block for `struct hab_message` and the payload. -/
  plain : Bool
  /-- The block for `struct hab_message` and the addresses. -/
  table : Bool
  /-- The pages, in the order they are asked for. -/
  page : ℕ → Option UInt64

/-- The clocks that `hab_msg_recv` reads. -/
structure RxClock where
  sec : UInt64
  usec : UInt64
  ticks : UInt64

/-- `sizeof(void *)`. -/
def pointerSize : ℕ := 8

/-- The loop that asks for the pages, with `n` of them left from the `i`-th on. -/
def allocPages (page : ℕ → Option UInt64) : ℕ → ℕ → Option (List UInt64)
  | 0, _ => some []
  | n + 1, i => do
      let addr ← page i
      let rest ← allocPages page n (i + 1)
      some (addr :: rest)

/-- `physical_channel_read` into one page after the other. -/
def readPages : List UInt64 → List UInt8 → List Block
  | [], _ => []
  | addr :: rest, payload => ⟨addr, payload.take pageSize⟩ :: readPages rest (payload.drop pageSize)

/-- `hab_scatter_msg_alloc`, with the payload in the channel: the message and its
pages. -/
def habScatterMsgAlloc (env : MsgAllocs) (payload : List UInt8) :
    Option (HabMessage × List Block) :=
  if payload.length ≤ pageSize then none
  else if env.table = false then none
  else do
    let pageNum := payload.length / pageSize
    let totalNum := if payload.length % pageSize = 0 then pageNum else pageNum + 1
    let addrs ← allocPages env.page totalNum 0
    some
      (⟨payload.length, true, Bytes.layout (addrs.map fun addr ↦ (pointerSize, addr.toNat))⟩,
        readPages addrs payload)

def habMsgAlloc (env : MsgAllocs) (payload : List UInt8) : Option (HabMessage × List Block) :=
  if habHeaderSizeMax < payload.length then none
  else if env.plain = false then habScatterMsgAlloc env payload
  else some (⟨payload.length, false, payload⟩, [])

/-- `pstat->rx_sec` and `pstat->rx_usec` are set. -/
def HabMessage.stampProfile (m : HabMessage) (clock : RxClock) : Option HabMessage := do
  let data ← store m.data 16 (Bytes.encode 8 clock.sec.toNat)
  let data ← store data 24 (Bytes.encode 8 clock.usec.toNat)
  some { m with data := data }

/-- `((unsigned long long *)message->data)[0]` is set. -/
def HabMessage.stampSche (m : HabMessage) (clock : RxClock) : Option HabMessage := do
  let data ← store m.data 0 (Bytes.encode 8 clock.ticks.toNat)
  some { m with data := data }

/-- The message that `hab_msg_recv` queues to the vchan, if any. -/
def queuedMessage (type : HabPayloadType) (clock : RxClock) (env : MsgAllocs)
    (payload : List UInt8) : Option (Option (HabMessage × List Block)) :=
  match type with
  | .msg | .scheResultReq | .scheResultRsp => some (habMsgAlloc env payload)
  | .profile =>
      if payload.length < xingVmStatSize then some none
      else
        match habMsgAlloc env payload with
        | none => some none
        | some (m, heap) => (m.stampProfile clock).map fun m ↦ some (m, heap)
  | .scheMsg | .scheMsgAck =>
      if payload.length < 8 then some none
      else
        match habMsgAlloc env payload with
        | none => some none
        | some (m, heap) => (m.stampSche clock).map fun m ↦ some (m, heap)
  | _ => some none

/-! ## Copying out -/

/-- `n` bytes from `scatter_buf[i]`. -/
def HabMessage.loadPage (m : HabMessage) (heap : List Block) (i n : ℕ) : Option (List UInt8) := do
  let addr ← Bytes.word m.data (pointerSize * i) pointerSize
  loadFrom heap addr n

/-- The loop of `habmm_socket_recv` over whole pages, with `n` of them left from the
`i`-th on. -/
def HabMessage.copyPages (m : HabMessage) (heap : List Block) :
    ℕ → ℕ → List UInt8 → Option (List UInt8)
  | 0, _, dst => some dst
  | n + 1, i, dst => do
      let page ← m.loadPage heap i pageSize
      let dst ← store dst (i * pageSize) page
      m.copyPages heap n (i + 1) dst

/-- How `habmm_socket_recv` copies a message out. -/
def HabMessage.socketRecv (m : HabMessage) (heap : List Block) (dst : List UInt8) :
    Option (List UInt8) :=
  if m.scatter then do
    let dst ← m.copyPages heap (m.sizebytes / pageSize) 0 dst
    if m.sizebytes % pageSize = 0 then some dst
    else do
      let page ← m.loadPage heap (m.sizebytes / pageSize) (m.sizebytes % pageSize)
      store dst (m.sizebytes / pageSize * pageSize) page
  else do
    let src ← load m.data 0 m.sizebytes
    store dst 0 src

/-- `copy_to_user` to a buffer that is writable up to `limit`: whether it fails, and
the buffer afterwards. -/
def copyToUser (limit : ℕ) (dest : List UInt8) (off : ℕ) (src : List UInt8) :
    Option (Bool × List UInt8) := do
  let dest ← store dest off (src.take (limit - off))
  some (decide (limit < off + src.length), dest)

/-- The loop of `hab_copy_data` over whole pages, which ends at the first failure. -/
def HabMessage.copyUserPages (m : HabMessage) (heap : List Block) (limit : ℕ) :
    ℕ → ℕ → List UInt8 → Option (Bool × List UInt8)
  | 0, _, dest => some (false, dest)
  | n + 1, i, dest => do
      let page ← m.loadPage heap i pageSize
      let (fault, dest) ← copyToUser limit dest (i * pageSize) page
      if fault then some (true, dest) else m.copyUserPages heap limit n (i + 1) dest

/-- What `hab_copy_data` leaves: whether it returns `-EFAULT`, `recv_param->sizebytes`
and the user's buffer. -/
structure CopiedData where
  efault : Bool
  sizebytes : ℕ
  dest : List UInt8

def HabMessage.habCopyData (m : HabMessage) (heap : List Block) (limit : ℕ)
    (dest : List UInt8) : Option CopiedData := do
  let (fault, dest) ←
    if m.scatter then do
      let (fault, dest) ← m.copyUserPages heap limit (m.sizebytes / pageSize) 0 dest
      if fault ∨ m.sizebytes % pageSize = 0 then some (fault, dest)
      else do
        let page ← m.loadPage heap (m.sizebytes / pageSize) (m.sizebytes % pageSize)
        copyToUser limit dest (m.sizebytes / pageSize * pageSize) page
    else do
      let src ← load m.data 0 m.sizebytes
      copyToUser limit dest 0 src
  some ⟨fault, if fault then 0 else m.sizebytes, dest⟩

/-! ## Pages that were not written to -/

/-- The bytes of the payload that lie in its `i`-th page. -/
def blockSize (len i : ℕ) : ℕ := min pageSize (len - i * pageSize)

theorem blockSize_pos {len i : ℕ} (h : i * pageSize < len) : 0 < blockSize len i := by
  have hpage : 0 < pageSize := by decide
  rw [blockSize]
  omega

/-- Blocks in use do not overlap. -/
def MsgAllocs.Apart (env : MsgAllocs) (len : ℕ) : Prop :=
  ∀ i j a b, i < j → j * pageSize < len → env.page i = some a → env.page j = some b →
    a.toNat + blockSize len i ≤ b.toNat ∨ b.toNat + blockSize len j ≤ a.toNat

theorem allocPages_eq_some {page : ℕ → Option UInt64} {n i : ℕ} {addrs : List UInt64}
    (h : allocPages page n i = some addrs) :
    addrs.length = n ∧ ∀ k < n, addrs[k]? = page (i + k) := by
  induction n generalizing i addrs with
  | zero =>
      cases h
      exact ⟨rfl, fun k hk ↦ absurd hk (Nat.not_lt_zero k)⟩
  | succ n ih =>
      obtain ⟨addr, haddr, h⟩ := Option.bind_eq_some_iff.mp h
      obtain ⟨rest, hrest, h⟩ := Option.bind_eq_some_iff.mp h
      cases h
      obtain ⟨hlen, hget⟩ := ih hrest
      refine ⟨by rw [List.length_cons, hlen], fun k hk ↦ ?_⟩
      cases k with
      | zero => exact haddr.symm
      | succ k =>
          rw [List.getElem?_cons_succ, hget k (by omega), Nat.add_assoc, Nat.add_comm 1]

theorem getElem?_readPages (addrs : List UInt64) (payload : List UInt8) (i : ℕ) :
    (readPages addrs payload)[i]? =
      addrs[i]?.map fun addr ↦ ⟨addr, (payload.drop (i * pageSize)).take pageSize⟩ := by
  induction addrs generalizing payload i with
  | nil => rfl
  | cons addr rest ih =>
      cases i with
      | zero => rw [Nat.zero_mul]; rfl
      | succ i =>
          rw [readPages, List.getElem?_cons_succ, ih, List.getElem?_cons_succ, List.drop_drop,
            Nat.succ_mul, Nat.add_comm]

/-- An address in the block at `i`, and in none before it, is read from there. -/
theorem loadFrom_eq {heap : List Block} {i : ℕ} {b : Block} (hi : heap[i]? = some b)
    (hpos : 0 < b.bytes.length)
    (hapart : ∀ j < i, ∀ b', heap[j]? = some b' →
      b'.addr.toNat + b'.bytes.length ≤ b.addr.toNat ∨
        b.addr.toNat + b.bytes.length ≤ b'.addr.toNat) :
    loadFrom heap b.addr.toNat b.bytes.length = some b.bytes := by
  induction heap generalizing i with
  | nil => cases hi
  | cons b' heap ih =>
      cases i with
      | zero =>
          cases hi
          have hload : load b.bytes 0 b.bytes.length = some b.bytes := by
            rw [load_eq_some (by omega), List.drop_zero, List.take_length]
          rw [loadFrom, List.findSome?_cons, if_pos (Nat.le_refl _), Nat.sub_self, hload]
      | succ i =>
          have hhead := hapart 0 (Nat.succ_pos i) b' rfl
          have hrest := ih hi fun j hj b'' hb'' ↦ hapart (j + 1) (by omega) b'' hb''
          have hnone : (if b'.addr.toNat ≤ b.addr.toNat then
              load b'.bytes (b.addr.toNat - b'.addr.toNat) b.bytes.length else none) = none := by
            split
            · exact if_neg (by omega)
            · rfl
          rw [loadFrom, List.findSome?_cons, hnone]
          exact hrest

theorem size_pointers (addrs : List UInt64) :
    Bytes.size (addrs.map fun addr ↦ (pointerSize, addr.toNat)) = pointerSize * addrs.length := by
  induction addrs with
  | nil => rfl
  | cons addr rest ih =>
      rw [List.map_cons, Bytes.size_cons, ih, List.length_cons, Nat.mul_succ, Nat.add_comm]

/-- The address of a page is found in the block behind the message. -/
theorem word_pointers {addrs : List UInt64} {i : ℕ} {addr : UInt64} (h : addrs[i]? = some addr) :
    Bytes.word (Bytes.layout (addrs.map fun addr ↦ (pointerSize, addr.toNat)))
      (pointerSize * i) pointerSize = some addr.toNat := by
  have hfield : (addrs.map fun addr ↦ (pointerSize, addr.toNat))[i]? =
      some (pointerSize, addr.toNat) := by
    rw [List.getElem?_map, h]
    rfl
  obtain ⟨hi, -⟩ := List.getElem?_eq_some_iff.mp h
  have hword := Bytes.word_layout hfield []
  rw [List.append_nil, ← List.map_take, size_pointers, List.length_take,
    Nat.min_eq_left (Nat.le_of_lt hi)] at hword
  rw [hword, Nat.mod_eq_of_lt]
  exact addr.toNat_lt

/-- A message in pages that still has its addresses. -/
structure Scattered (m : HabMessage) (heap : List Block) (payload : List UInt8) : Prop where
  scatter : m.scatter = true
  sizebytes : m.sizebytes = payload.length
  page : ∀ i, i * pageSize < payload.length →
    m.loadPage heap i (blockSize payload.length i) =
      some ((payload.drop (i * pageSize)).take pageSize)

theorem habScatterMsgAlloc_eq_some {env : MsgAllocs} {payload : List UInt8} {m : HabMessage}
    {heap : List Block} (h : habScatterMsgAlloc env payload = some (m, heap)) :
    pageSize < payload.length ∧ ∃ addrs : List UInt64,
      m = ⟨payload.length, true, Bytes.layout (addrs.map fun addr ↦ (pointerSize, addr.toNat))⟩ ∧
      heap = readPages addrs payload ∧
      payload.length ≤ addrs.length * pageSize ∧
      addrs.length ≤ payload.length / pageSize + 1 ∧
      ∀ k < addrs.length, addrs[k]? = env.page k := by
  unfold habScatterMsgAlloc at h
  split at h
  · cases h
  · rename_i hbig
    split at h
    · cases h
    · obtain ⟨addrs, haddrs, h⟩ := Option.bind_eq_some_iff.mp h
      cases h
      obtain ⟨hlen, hget⟩ := allocPages_eq_some haddrs
      have hdiv := Nat.div_add_mod payload.length pageSize
      have hmod := Nat.mod_lt payload.length (show 0 < pageSize by decide)
      refine ⟨Nat.not_le.mp hbig, addrs, rfl, rfl, ?_, ?_, ?_⟩
      · rw [hlen, Nat.mul_comm]
        split
        · omega
        · rw [Nat.mul_add]
          omega
      · rw [hlen]
        split
        · omega
        · omega
      · intro k hk
        rw [hget k (hlen ▸ hk), Nat.zero_add]

theorem length_page (payload : List UInt8) (i : ℕ) :
    ((payload.drop (i * pageSize)).take pageSize).length = blockSize payload.length i := by
  rw [List.length_take, List.length_drop, blockSize]

theorem scattered_of_habScatterMsgAlloc {env : MsgAllocs} {payload : List UInt8} {m : HabMessage}
    {heap : List Block} (hapart : env.Apart payload.length)
    (h : habScatterMsgAlloc env payload = some (m, heap)) : Scattered m heap payload := by
  obtain ⟨-, addrs, rfl, rfl, hcover, -, hget⟩ := habScatterMsgAlloc_eq_some h
  refine ⟨rfl, rfl, fun i hi ↦ ?_⟩
  have hin : i < addrs.length := by
    by_contra hout
    have := Nat.mul_le_mul_right pageSize (Nat.not_lt.mp hout)
    omega
  obtain ⟨addr, haddr⟩ : ∃ addr, addrs[i]? = some addr := ⟨_, List.getElem?_eq_getElem hin⟩
  have hblock : (readPages addrs payload)[i]? =
      some ⟨addr, (payload.drop (i * pageSize)).take pageSize⟩ := by
    rw [getElem?_readPages, haddr]
    rfl
  have hlen := length_page payload i
  have hload := loadFrom_eq hblock (show 0 < _ by rw [hlen]; exact blockSize_pos hi) (by
    intro j hj b' hb'
    rw [getElem?_readPages] at hb'
    obtain ⟨addr', haddr', rfl⟩ := Option.map_eq_some_iff.mp hb'
    show addr'.toNat + _ ≤ addr.toNat ∨ addr.toNat + _ ≤ addr'.toNat
    rw [length_page, length_page]
    exact hapart j i addr' addr hj hi (by rw [← hget j (by omega), haddr'])
      (by rw [← hget i hin, haddr]))
  rw [hlen] at hload
  rw [HabMessage.loadPage, word_pointers haddr]
  exact hload

/-! ## Both copies of an untouched message -/

section Copies

variable {m : HabMessage} {heap : List Block} {payload dst : List UInt8}

theorem blockSize_of_whole {len i : ℕ} (h : (i + 1) * pageSize ≤ len) :
    blockSize len i = pageSize := by
  rw [Nat.succ_mul] at h
  rw [blockSize]
  omega

theorem blockSize_of_rest (len : ℕ) : blockSize len (len / pageSize) = len % pageSize := by
  have hdiv := Nat.div_add_mod len pageSize
  have hmod := Nat.mod_lt len (show 0 < pageSize by decide)
  rw [blockSize, Nat.mul_comm (len / pageSize)]
  omega

theorem Scattered.loadPage (h : Scattered m heap payload) {i : ℕ}
    (hi : (i + 1) * pageSize ≤ payload.length) :
    m.loadPage heap i pageSize = some ((payload.drop (i * pageSize)).take pageSize) := by
  have hpage : 0 < pageSize := by decide
  have hload := h.page i (by rw [Nat.succ_mul] at hi; omega)
  rwa [blockSize_of_whole hi] at hload

/-- What is left behind the whole pages. -/
theorem Scattered.loadRest (h : Scattered m heap payload)
    (hrest : payload.length % pageSize ≠ 0) :
    m.loadPage heap (payload.length / pageSize) (payload.length % pageSize) =
      some ((payload.drop (payload.length / pageSize * pageSize)).take
        (payload.length % pageSize)) := by
  have hdiv := Nat.div_add_mod payload.length pageSize
  have hmod := Nat.mod_lt payload.length (show 0 < pageSize by decide)
  rw [Nat.mul_comm] at hdiv
  have hload := h.page (payload.length / pageSize) (by omega)
  rw [blockSize_of_rest] at hload
  rw [hload, List.take_of_length_le (by rw [List.length_drop]; omega),
    List.take_of_length_le (by rw [List.length_drop]; omega)]

theorem Scattered.copyPages (h : Scattered m heap payload) (hdst : payload.length ≤ dst.length)
    {n i : ℕ} (hn : (i + n) * pageSize ≤ payload.length) :
    m.copyPages heap n i (filledTo dst payload (i * pageSize)) =
      some (filledTo dst payload ((i + n) * pageSize)) := by
  induction n generalizing i with
  | zero => rfl
  | succ n ih =>
      have hi : (i + 1) * pageSize ≤ payload.length :=
        Nat.le_trans (Nat.mul_le_mul_right _ (by omega)) hn
      have hstore := store_filledTo (k := i * pageSize) (j := pageSize)
        (by rwa [Nat.succ_mul] at hi) hdst
      rw [← Nat.succ_mul] at hstore
      have hshift : i + 1 + n = i + (n + 1) := by omega
      have hrest := ih (show (i + 1 + n) * pageSize ≤ payload.length by rw [hshift]; exact hn)
      rw [hshift] at hrest
      rw [HabMessage.copyPages, h.loadPage hi, Option.bind_eq_bind, Option.bind_some, hstore]
      exact hrest

/-- `habmm_socket_recv` delivers the payload from its pages. -/
theorem Scattered.socketRecv (h : Scattered m heap payload) (hdst : payload.length ≤ dst.length) :
    m.socketRecv heap dst = some (filledTo dst payload payload.length) := by
  have hdiv := Nat.div_add_mod payload.length pageSize
  rw [Nat.mul_comm] at hdiv
  have hcopy := h.copyPages hdst (n := payload.length / pageSize) (i := 0)
    (by rw [Nat.zero_add]; omega)
  rw [Nat.zero_mul, filledTo_zero, Nat.zero_add] at hcopy
  rw [HabMessage.socketRecv, if_pos h.scatter, h.sizebytes, hcopy, Option.bind_eq_bind,
    Option.bind_some]
  by_cases hrest : payload.length % pageSize = 0
  · have hwhole : payload.length / pageSize * pageSize = payload.length := by omega
    rw [if_pos hrest, hwhole]
  · have hstore := store_filledTo (k := payload.length / pageSize * pageSize)
      (j := payload.length % pageSize) (by omega) hdst
    rw [hdiv] at hstore
    rw [if_neg hrest, h.loadRest hrest, Option.bind_some, hstore]

/-- `copy_to_user` of the next bytes of the payload. -/
theorem copyToUser_filledTo (hdst : payload.length ≤ dst.length) (limit k j : ℕ)
    (hj : k + j ≤ payload.length) (hk : k ≤ limit) :
    copyToUser limit (filledTo dst payload k) k ((payload.drop k).take j) =
      some (decide (limit < k + j), filledTo dst payload (min limit (k + j))) := by
  have hlen : ((payload.drop k).take j).length = j := by
    rw [List.length_take, List.length_drop]
    omega
  have hstore := store_filledTo (k := k) (j := min (limit - k) j) (by omega) hdst
  rw [copyToUser, hlen, List.take_take, hstore, Option.bind_eq_bind, Option.bind_some,
    show k + min (limit - k) j = min limit (k + j) by omega]

theorem Scattered.copyUserPages (h : Scattered m heap payload)
    (hdst : payload.length ≤ dst.length) {limit n i : ℕ} (hi : i * pageSize ≤ limit)
    (hn : (i + n) * pageSize ≤ payload.length) :
    m.copyUserPages heap limit n i (filledTo dst payload (i * pageSize)) =
      some (decide (limit < (i + n) * pageSize),
        filledTo dst payload (min limit ((i + n) * pageSize))) := by
  induction n generalizing i with
  | zero =>
      rw [HabMessage.copyUserPages, Nat.add_zero, Nat.min_eq_right hi,
        decide_eq_false (Nat.not_lt.mpr hi)]
  | succ n ih =>
      have hpages : (i + 1) * pageSize ≤ (i + (n + 1)) * pageSize :=
        Nat.mul_le_mul_right _ (by omega)
      have hcopy := copyToUser_filledTo hdst limit (i * pageSize) pageSize
        (by rw [← Nat.succ_mul]; exact Nat.le_trans hpages hn) hi
      rw [← Nat.succ_mul] at hcopy
      rw [HabMessage.copyUserPages, h.loadPage (Nat.le_trans hpages hn), Option.bind_eq_bind,
        Option.bind_some, hcopy, Option.bind_eq_bind, Option.bind_some]
      by_cases hfault : limit < (i + 1) * pageSize
      · rw [decide_eq_true hfault, decide_eq_true (Nat.lt_of_lt_of_le hfault hpages),
          Nat.min_eq_left (Nat.le_of_lt hfault), Nat.min_eq_left (by omega)]
        rfl
      · rw [decide_eq_false hfault, Nat.min_eq_right (Nat.not_lt.mp hfault)]
        have hshift : i + 1 + n = i + (n + 1) := by omega
        have hnext := ih (i := i + 1) (Nat.not_lt.mp hfault) (by rw [hshift]; exact hn)
        rw [hshift] at hnext
        exact hnext

/-- `hab_copy_data` delivers the payload from its pages, up to where the user's buffer
is writable. -/
theorem Scattered.habCopyData (h : Scattered m heap payload)
    (hdst : payload.length ≤ dst.length) (limit : ℕ) :
    m.habCopyData heap limit dst =
      some ⟨decide (limit < payload.length),
        if limit < payload.length then 0 else payload.length,
        filledTo dst payload (min limit payload.length)⟩ := by
  have hdiv := Nat.div_add_mod payload.length pageSize
  rw [Nat.mul_comm] at hdiv
  have hcopy := h.copyUserPages hdst (n := payload.length / pageSize) (i := 0)
    (show 0 * pageSize ≤ limit by omega) (by rw [Nat.zero_add]; omega)
  rw [Nat.zero_mul, filledTo_zero, Nat.zero_add] at hcopy
  rw [HabMessage.habCopyData, if_pos h.scatter, h.sizebytes, hcopy]
  simp only [Option.bind_eq_bind, Option.bind_some, decide_eq_true_eq]
  by_cases hrest : payload.length % pageSize = 0
  · have hwhole : payload.length / pageSize * pageSize = payload.length := by omega
    rw [if_pos (Or.inr hrest), hwhole]
  · by_cases hfault : limit < payload.length / pageSize * pageSize
    · have hlimit : limit < payload.length := by omega
      rw [if_pos (Or.inl hfault), if_pos hfault, if_pos hlimit, decide_eq_true hfault,
        decide_eq_true hlimit, Nat.min_eq_left (Nat.le_of_lt hfault),
        Nat.min_eq_left (Nat.le_of_lt hlimit)]
    · have hlast := copyToUser_filledTo hdst limit (payload.length / pageSize * pageSize)
        (payload.length % pageSize) (by omega) (Nat.not_lt.mp hfault)
      rw [hdiv] at hlast
      rw [if_neg (not_or.mpr ⟨hfault, hrest⟩), h.loadRest hrest, Option.bind_some,
        Nat.min_eq_right (Nat.not_lt.mp hfault), hlast]
      simp

end Copies

end Hab
