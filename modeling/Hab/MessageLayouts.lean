import Hab.MessageBuffers

/-!
# When the two layouts of a message cannot be told apart

The three handlers of `hab_msg_recv` that put a time stamp into a message write to
`message->data` without a look at `message->scatter`; there lie the addresses of
the pages.
-/

namespace Hab

open Memory

/-- `kzalloc` finds a block for the whole message. -/
def plainAllocs : MsgAllocs := ⟨true, true, fun _ ↦ none⟩

/-- The handler writes a time stamp into the message. -/
def HabPayloadType.isStamped : HabPayloadType → Bool
  | .profile | .scheMsg | .scheMsgAck => true
  | _ => false

/-- Whatever is queued from one block and from pages is delivered alike, and without
an access outside the message's buffers. -/
def Indistinguishable (type : HabPayloadType) (clock : RxClock) (payload : List UInt8) : Prop :=
  ∃ plain, queuedMessage type clock plainAllocs payload = some plain ∧
    ∀ env : MsgAllocs, env.plain = false → env.Apart payload.length →
      ∃ paged, queuedMessage type clock env payload = some paged ∧
        ∀ m heap m' heap', plain = some (m, heap) → paged = some (m', heap') →
          ∀ dst, payload.length ≤ dst.length →
            (∃ out, m.socketRecv heap dst = some out ∧ m'.socketRecv heap' dst = some out) ∧
              ∀ limit, ∃ out, m.habCopyData heap limit dst = some out ∧
                m'.habCopyData heap' limit dst = some out

/-! ## One block -/

section Plain

variable {payload dst : List UInt8}

theorem socketRecv_plain (heap : List Block) (hdst : payload.length ≤ dst.length) :
    (HabMessage.mk payload.length false payload).socketRecv heap dst =
      some (filledTo dst payload payload.length) := by
  have hload : load payload 0 payload.length = some payload := by
    rw [load_eq_some (by omega), List.drop_zero, List.take_length]
  have hstore := store_filledTo (k := 0) (j := payload.length) (by omega) hdst
  rw [filledTo_zero, List.drop_zero, List.take_length, Nat.zero_add] at hstore
  rw [HabMessage.socketRecv, if_neg Bool.false_ne_true, hload, Option.bind_eq_bind,
    Option.bind_some, hstore]

theorem habCopyData_plain (heap : List Block) (hdst : payload.length ≤ dst.length) (limit : ℕ) :
    (HabMessage.mk payload.length false payload).habCopyData heap limit dst =
      some ⟨decide (limit < payload.length),
        if limit < payload.length then 0 else payload.length,
        filledTo dst payload (min limit payload.length)⟩ := by
  have hload : load payload 0 payload.length = some payload := by
    rw [load_eq_some (by omega), List.drop_zero, List.take_length]
  have hcopy := copyToUser_filledTo hdst limit 0 payload.length (by omega) (Nat.zero_le _)
  rw [filledTo_zero, List.drop_zero, List.take_length, Nat.zero_add] at hcopy
  rw [HabMessage.habCopyData, if_neg Bool.false_ne_true]
  simp only [hload, hcopy, Option.bind_eq_bind, Option.bind_some, decide_eq_true_eq]

end Plain

theorem habMsgAlloc_plain {payload : List UInt8} (hmax : payload.length ≤ habHeaderSizeMax) :
    habMsgAlloc plainAllocs payload = some (⟨payload.length, false, payload⟩, []) := by
  rw [habMsgAlloc, if_neg (Nat.not_lt.mpr hmax)]
  rfl

theorem habMsgAlloc_paged {env : MsgAllocs} (henv : env.plain = false) {payload : List UInt8}
    (hmax : payload.length ≤ habHeaderSizeMax) :
    habMsgAlloc env payload = habScatterMsgAlloc env payload := by
  rw [habMsgAlloc, if_neg (Nat.not_lt.mpr hmax), if_pos henv]

/-- A message that fits a page is never scattered. -/
theorem habScatterMsgAlloc_small (env : MsgAllocs) {payload : List UInt8}
    (h : payload.length ≤ pageSize) : habScatterMsgAlloc env payload = none := if_pos h

/-! ## Messages without a stamp -/

theorem indistinguishable_of_alloc {type : HabPayloadType} {clock : RxClock}
    {payload : List UInt8} (hmax : payload.length ≤ habHeaderSizeMax)
    (hqueue : ∀ env, queuedMessage type clock env payload = some (habMsgAlloc env payload)) :
    Indistinguishable type clock payload := by
  refine ⟨_, hqueue plainAllocs, fun env henv hapart ↦ ⟨_, hqueue env, ?_⟩⟩
  rw [habMsgAlloc_plain hmax, habMsgAlloc_paged henv hmax]
  intro m heap m' heap' hplain hpaged dst hdst
  cases hplain
  have hscattered := scattered_of_habScatterMsgAlloc hapart hpaged
  exact ⟨⟨_, socketRecv_plain [] hdst, hscattered.socketRecv hdst⟩,
    fun limit ↦ ⟨_, habCopyData_plain [] hdst limit, hscattered.habCopyData hdst limit⟩⟩

theorem indistinguishable_of_not_queued {type : HabPayloadType} {clock : RxClock}
    {payload : List UInt8} (plain : Option (HabMessage × List Block))
    (hplain : queuedMessage type clock plainAllocs payload = some plain)
    (hqueue : ∀ env : MsgAllocs, env.plain = false →
      queuedMessage type clock env payload = some none) :
    Indistinguishable type clock payload :=
  ⟨plain, hplain, fun env henv _ ↦ ⟨none, hqueue env henv, fun _ _ _ _ _ hpaged ↦
    (Option.some_ne_none _ hpaged.symm).elim⟩⟩

theorem indistinguishable_of_not_stamped {type : HabPayloadType} (clock : RxClock)
    {payload : List UInt8} (hmax : payload.length ≤ habHeaderSizeMax)
    (htype : type.isStamped = false) : Indistinguishable type clock payload := by
  cases type with
  | msg | scheResultReq | scheResultRsp => exact indistinguishable_of_alloc hmax fun _ ↦ rfl
  | profile | scheMsg | scheMsgAck => cases htype
  | _ => exact indistinguishable_of_not_queued none rfl fun _ _ ↦ rfl

/-! ## Stamps -/

/-- The message with the stamp that the handler of the type writes, behind the check
of its size. -/
def HabMessage.stamp (m : HabMessage) (type : HabPayloadType) (clock : RxClock) :
    Option HabMessage :=
  if type = .profile then m.stampProfile clock else m.stampSche clock

/-- What the handler of a stamped type demands of the size. -/
def stampedSize (type : HabPayloadType) : ℕ := if type = .profile then xingVmStatSize else 8

theorem queuedMessage_stamped {type : HabPayloadType} (htype : type.isStamped = true)
    (clock : RxClock) (env : MsgAllocs) (payload : List UInt8) :
    queuedMessage type clock env payload =
      if payload.length < stampedSize type then some none
      else
        (habMsgAlloc env payload).elim (some none) fun q ↦
          (q.1.stamp type clock).map fun m ↦ some (m, q.2) := by
  cases type with
  | profile | scheMsg | scheMsgAck =>
      simp only [queuedMessage, stampedSize, HabMessage.stamp, reduceCtorEq, if_true, if_false]
      cases habMsgAlloc env payload <;> rfl
  | _ => cases htype

theorem exists_store (mem : List UInt8) (off w n : ℕ) (h : off + w ≤ mem.length) :
    ∃ mem', store mem off (Bytes.encode w n) = some mem' :=
  ⟨_, store_eq_some mem off (Bytes.encode w n) (by rw [Bytes.length_encode]; exact h)⟩

/-- A stamp that the block behind the message has room for. -/
theorem exists_stamp (m : HabMessage) (type : HabPayloadType) (clock : RxClock)
    (h : stampedSize type ≤ m.data.length) : ∃ m', m.stamp type clock = some m' := by
  unfold HabMessage.stamp
  unfold stampedSize at h
  by_cases htype : type = .profile
  · rw [if_pos htype, xingVmStatSize] at h
    obtain ⟨data, hdata⟩ := exists_store m.data 16 8 clock.sec.toNat (by omega)
    have hlen := length_of_store hdata
    obtain ⟨data', hdata'⟩ := exists_store data 24 8 clock.usec.toNat (by omega)
    exact ⟨{ m with data := data' }, by
      rw [if_pos htype, HabMessage.stampProfile, hdata, Option.bind_eq_bind, Option.bind_some,
        hdata', Option.bind_some]⟩
  · rw [if_neg htype] at h
    obtain ⟨data, hdata⟩ := exists_store m.data 0 8 clock.ticks.toNat (by omega)
    exact ⟨{ m with data := data }, by
      rw [if_neg htype, HabMessage.stampSche, hdata, Option.bind_eq_bind, Option.bind_some]⟩

theorem indistinguishable_of_small {type : HabPayloadType} (htype : type.isStamped = true)
    (clock : RxClock) {payload : List UInt8} (hmax : payload.length ≤ habHeaderSizeMax)
    (hsmall : payload.length ≤ pageSize) : Indistinguishable type clock payload := by
  have hqueue (env : MsgAllocs) (henv : env.plain = false) :
      queuedMessage type clock env payload = some none := by
    rw [queuedMessage_stamped htype, habMsgAlloc_paged henv hmax,
      habScatterMsgAlloc_small env hsmall]
    exact ite_self _
  by_cases hsize : payload.length < stampedSize type
  · refine indistinguishable_of_not_queued none ?_ hqueue
    rw [queuedMessage_stamped htype, if_pos hsize]
  · obtain ⟨m, hm⟩ := exists_stamp ⟨payload.length, false, payload⟩ type clock (Nat.not_lt.mp hsize)
    refine indistinguishable_of_not_queued (some (m, [])) ?_ hqueue
    rw [queuedMessage_stamped htype, if_neg hsize, habMsgAlloc_plain hmax, Option.elim_some, hm]
    rfl

/-! ## A stamp in the place of an address -/

/-- Pages that do not reach the address `v`. -/
def farPage (v : UInt64) (i : ℕ) : UInt64 :=
  if v.toNat < 2 ^ 63 then UInt64.ofNat (2 ^ 63 + i * pageSize)
  else UInt64.ofNat ((i + 1) * pageSize)

/-- Only pages are to be had, none of them at the address `v`. -/
def farAllocs (v : UInt64) : MsgAllocs := ⟨false, true, fun i ↦ some (farPage v i)⟩

theorem toNat_farPage (v : UInt64) {i : ℕ} (hi : i < 2 ^ 20) :
    (farPage v i).toNat =
      if v.toNat < 2 ^ 63 then 2 ^ 63 + i * pageSize else (i + 1) * pageSize := by
  unfold farPage pageSize
  split
  · rw [UInt64.toNat_ofNat']
    omega
  · rw [UInt64.toNat_ofNat']
    omega

theorem apart_farAllocs (v : UInt64) {len : ℕ} (hlen : len ≤ habHeaderSizeMax) :
    (farAllocs v).Apart len := by
  rintro i j _ _ hij hj ⟨⟩ ⟨⟩
  have hpage : pageSize = 4096 := rfl
  rw [habHeaderSizeMax] at hlen
  rw [hpage] at hj
  have hsize : blockSize len i ≤ pageSize := Nat.min_le_left _ _
  left
  rw [toNat_farPage v (by omega), toNat_farPage v (by omega)]
  rw [hpage] at hsize ⊢
  split
  · omega
  · omega

theorem loadFrom_far {v : UInt64} {addrs : List UInt64} {payload : List UInt8} {n : ℕ}
    (hn : 0 < n) (haddrs : ∀ addr ∈ addrs, ∃ i < 2 ^ 20, addr = farPage v i) :
    loadFrom (readPages addrs payload) v.toNat n = none := by
  induction addrs generalizing payload with
  | nil => rfl
  | cons addr rest ih =>
      obtain ⟨⟨i, hi, rfl⟩, hrest⟩ := List.forall_mem_cons.mp haddrs
      have haddr := toNat_farPage v hi
      have hlen : (payload.take pageSize).length ≤ pageSize := by
        rw [List.length_take]
        exact Nat.min_le_left _ _
      have hnone : (if (farPage v i).toNat ≤ v.toNat then
          load (payload.take pageSize) (v.toNat - (farPage v i).toNat) n else none) = none := by
        by_cases hlow : v.toNat < 2 ^ 63
        · rw [if_pos hlow] at haddr
          exact if_neg (by omega)
        · rw [if_neg hlow] at haddr
          rw [pageSize] at haddr hlen
          split
          · exact if_neg (by rw [pageSize]; omega)
          · rfl
      rw [readPages, loadFrom, List.findSome?_cons, hnone]
      exact ih hrest

/-- A page that cannot be read stops the copy. -/
theorem copyPages_eq_none {m : HabMessage} {heap : List Block} {k n i : ℕ} (dst : List UInt8)
    (hk : i ≤ k) (hlt : k < i + n) (hpage : m.loadPage heap k pageSize = none) :
    m.copyPages heap n i dst = none := by
  induction n generalizing i dst with
  | zero => omega
  | succ n ih =>
      rw [HabMessage.copyPages, Option.bind_eq_bind, Option.bind_eq_none_iff]
      intro page hload
      rw [Option.bind_eq_none_iff]
      intro dst' _
      by_cases heq : i = k
      · rw [heq, hpage] at hload
        cases hload
      · exact ih dst' (by omega) (by omega)

/-- The place of the address that a stamp overwrites first. -/
def stampedPage (type : HabPayloadType) : ℕ := if type = .profile then 2 else 0

/-- The clock value that lands there. -/
def stampedWord (type : HabPayloadType) (clock : RxClock) : UInt64 :=
  if type = .profile then clock.sec else clock.ticks

/-- What a stamp leaves of the addresses. -/
theorem stamp_eq_some {m m' : HabMessage} {type : HabPayloadType} {clock : RxClock}
    (h : m.stamp type clock = some m') :
    m'.scatter = m.scatter ∧ m'.sizebytes = m.sizebytes ∧ stampedSize type ≤ m.data.length ∧
      Bytes.word m'.data (pointerSize * stampedPage type) pointerSize =
        some (stampedWord type clock).toNat := by
  unfold HabMessage.stamp at h
  unfold stampedSize stampedPage stampedWord pointerSize
  by_cases htype : type = .profile
  · rw [if_pos htype] at h ⊢
    obtain ⟨data, hdata, h⟩ := Option.bind_eq_some_iff.mp h
    obtain ⟨data', hdata', h⟩ := Option.bind_eq_some_iff.mp h
    cases h
    have hlen := length_of_store hdata
    have hroom := le_of_store hdata'
    rw [Bytes.length_encode, hlen] at hroom
    have hsec : load data' 16 8 = some (Bytes.encode 8 clock.sec.toNat) := by
      rw [load_of_store_before hdata' (by omega)]
      exact load_of_store hdata
    refine ⟨rfl, rfl, hroom, ?_⟩
    rw [if_pos htype, if_pos htype, Bytes.word]
    show Option.map Bytes.decode (load data' 16 8) = _
    rw [hsec, Option.map_some, Bytes.decode_encode_of_lt clock.sec.toNat_lt]
  · rw [if_neg htype] at h ⊢
    obtain ⟨data, hdata, h⟩ := Option.bind_eq_some_iff.mp h
    cases h
    have hroom := le_of_store hdata
    rw [Bytes.length_encode] at hroom
    have hticks : load data 0 8 = some (Bytes.encode 8 clock.ticks.toNat) := load_of_store hdata
    refine ⟨rfl, rfl, by omega, ?_⟩
    rw [if_neg htype, if_neg htype, Bytes.word]
    show Option.map Bytes.decode (load data 0 8) = _
    rw [hticks, Option.map_some, Bytes.decode_encode_of_lt clock.ticks.toNat_lt]

theorem allocPages_some (page : ℕ → UInt64) (n i : ℕ) :
    ∃ addrs, allocPages (fun i ↦ some (page i)) n i = some addrs := by
  induction n generalizing i with
  | zero => exact ⟨[], rfl⟩
  | succ n ih =>
      obtain ⟨addrs, haddrs⟩ := ih (i + 1)
      exact ⟨page i :: addrs, by
        rw [allocPages, Option.bind_eq_bind, Option.bind_some, haddrs]
        rfl⟩

theorem exists_habScatterMsgAlloc (v : UInt64) {payload : List UInt8}
    (hbig : pageSize < payload.length) :
    ∃ m heap, habScatterMsgAlloc (farAllocs v) payload = some (m, heap) := by
  obtain ⟨addrs, haddrs⟩ := allocPages_some (farPage v)
    (if payload.length % pageSize = 0 then payload.length / pageSize
      else payload.length / pageSize + 1) 0
  refine ⟨⟨payload.length, true,
    Bytes.layout (addrs.map fun addr ↦ (pointerSize, addr.toNat))⟩, readPages addrs payload, ?_⟩
  rw [habScatterMsgAlloc, if_neg (Nat.not_le.mpr hbig)]
  refine (if_neg (show ¬ (true = false) by decide)).trans ?_
  show (allocPages (fun i ↦ some (farPage v i)) _ 0).bind _ = _
  rw [haddrs]
  rfl

/-- A stamped message of more than a page is lost to its reader where no page lies at
the address that the stamp makes. -/
theorem not_indistinguishable_of_stamped {type : HabPayloadType} (htype : type.isStamped = true)
    (clock : RxClock) {payload : List UInt8} (hmax : payload.length ≤ habHeaderSizeMax)
    (hbig : pageSize < payload.length) : ¬ Indistinguishable type clock payload := by
  rintro ⟨plain, hplain, hpaged⟩
  obtain ⟨paged, hqueue, hsame⟩ := hpaged (farAllocs (stampedWord type clock)) rfl
    (apart_farAllocs _ hmax)
  have hsize : ¬ payload.length < stampedSize type := by
    unfold stampedSize
    rw [pageSize] at hbig
    split
    · rw [xingVmStatSize]
      omega
    · omega
  obtain ⟨mp, hmp⟩ := exists_stamp ⟨payload.length, false, payload⟩ type clock
    (Nat.not_lt.mp hsize)
  rw [queuedMessage_stamped htype, if_neg hsize, habMsgAlloc_plain hmax, Option.elim_some, hmp,
    Option.map_some] at hplain
  obtain ⟨m, heap, halloc⟩ := exists_habScatterMsgAlloc (stampedWord type clock) hbig
  rw [queuedMessage_stamped htype, if_neg hsize, habMsgAlloc_paged rfl hmax, halloc,
    Option.elim_some] at hqueue
  obtain ⟨stamped, hstamped, hq⟩ := Option.map_eq_some_iff.mp hqueue
  obtain ⟨-, addrs, rfl, rfl, -, hlen, hget⟩ := habScatterMsgAlloc_eq_some halloc
  obtain ⟨hscatter, hbytes, hroom, hword⟩ := stamp_eq_some hstamped
  obtain ⟨⟨out, -, hout⟩, -⟩ := hsame mp [] stamped _ (Option.some.inj hplain).symm hq.symm
    payload (Nat.le_refl _)
  have hpages : addrs.length < 2 ^ 20 := by
    rw [habHeaderSizeMax] at hmax
    rw [pageSize] at hlen
    omega
  have hfar : ∀ addr ∈ addrs, ∃ i < 2 ^ 20, addr = farPage (stampedWord type clock) i := by
    intro addr haddr
    obtain ⟨i, hi, rfl⟩ := List.mem_iff_getElem.mp haddr
    have hpage := hget i hi
    rw [List.getElem?_eq_getElem hi] at hpage
    exact ⟨i, by omega, Option.some.inj hpage⟩
  have hnone : stamped.loadPage (readPages addrs payload) (stampedPage type) pageSize = none := by
    rw [HabMessage.loadPage, hword]
    exact loadFrom_far (by decide) hfar
  have hwhole : stampedPage type < payload.length / pageSize := by
    rw [Bytes.length_layout, size_pointers] at hroom
    unfold stampedSize pointerSize at hroom
    unfold stampedPage
    rw [pageSize] at hbig hlen ⊢
    split
    · rename_i hprofile
      rw [if_pos hprofile, xingVmStatSize] at hroom
      omega
    · omega
  have hbytes' : stamped.sizebytes = payload.length := hbytes
  rw [HabMessage.socketRecv, if_pos hscatter, hbytes',
    copyPages_eq_none payload (Nat.zero_le _) (by omega) hnone] at hout
  cases hout

/-- The two layouts of a message cannot be told apart exactly if its handler writes no
time stamp, or it fits a page. -/
theorem indistinguishable_iff (type : HabPayloadType) (clock : RxClock) (payload : List UInt8)
    (hmax : payload.length ≤ habHeaderSizeMax) :
    Indistinguishable type clock payload ↔
      type.isStamped = false ∨ payload.length ≤ pageSize := by
  cases htype : type.isStamped with
  | false =>
      exact iff_of_true (indistinguishable_of_not_stamped clock hmax htype) (Or.inl rfl)
  | true =>
      rw [or_iff_right (by decide)]
      constructor
      · intro h
        by_contra hbig
        exact not_indistinguishable_of_stamped htype clock hmax (Nat.not_le.mp hbig) h
      · exact indistinguishable_of_small htype clock hmax

/-- A MSG of a page and a byte. -/
theorem indistinguishable_iff_scattered :
    Indistinguishable .msg ⟨0, 0, 0⟩ (List.replicate 4097 7) := by
  have hlen : (List.replicate 4097 (7 : UInt8)).length = 4097 := List.length_replicate
  refine (indistinguishable_iff .msg ⟨0, 0, 0⟩ (List.replicate 4097 7) ?_).mpr (Or.inl rfl)
  rw [hlen]
  decide

/-- A SCHE_MSG of a page and a byte. -/
theorem not_forall_indistinguishable :
    ¬ ∀ (type : HabPayloadType) (clock : RxClock) (payload : List UInt8),
      payload.length ≤ habHeaderSizeMax → Indistinguishable type clock payload := by
  intro h
  have hlen : (List.replicate 4097 (0 : UInt8)).length = 4097 := List.length_replicate
  refine not_indistinguishable_of_stamped rfl ⟨0, 0, 5⟩ ?_ ?_
    (h .scheMsg ⟨0, 0, 5⟩ (List.replicate 4097 0) ?_)
  · rw [hlen]
    decide
  · rw [hlen]
    decide
  · rw [hlen]
    decide

end Hab
