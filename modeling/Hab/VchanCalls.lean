import Mathlib.Logic.Function.Basic
import Hab.Frame

/-!
# The vchan reference of each call (`hab.c`, `hab_mimex.c`, `hab_vchan.c`, `hab_msg.c`)

Eight entry points look a vchan up with a reference and have to give it back.  The
functions here keep every path of them that is told apart by what the call does with the
reference; what the callees answer, and what other threads do to the vchan meanwhile, is
passed in.
-/

namespace Hab

/-- The fields of `struct virtual_channel` that the lookups read. -/
structure RefVchan where
  addr : ℕ
  /-- The context whose `vchannels` it is on. -/
  ctx : Option ℕ
  pchan : Option ℕ
  id : UInt32
  sessionId : UInt32
  otherendId : UInt32
  otherendClosed : Bool
  closed : Bool
deriving DecidableEq

/-- The vchans that are allocated, and their reference counts. -/
structure RefState where
  vchans : List RefVchan
  refcount : ℕ → ℕ
  /-- How often `hab_vchan_free` has run on a vchan. -/
  freed : ℕ → ℕ

namespace RefState

/-- `kref_get`. -/
def get (s : RefState) (v : RefVchan) : RefState :=
  { s with refcount := Function.update s.refcount v.addr (s.refcount v.addr + 1) }

def habVchanPut (s : RefState) (v : RefVchan) : RefState :=
  { s with
    refcount := Function.update s.refcount v.addr (s.refcount v.addr - 1)
    freed :=
      if s.refcount v.addr = 1 then Function.update s.freed v.addr (s.freed v.addr + 1)
      else s.freed }

/-- The vchan with a vcid on a context's list. -/
def onCtx (s : RefState) (ctx : ℕ) (vcid : UInt32) : Option RefVchan :=
  s.vchans.find? fun v ↦ v.ctx = some ctx ∧ v.id = vcid

def habGetVchanFromvcid (s : RefState) (ctx : ℕ) (vcid : UInt32) (ignoreRemote : Bool) :
    Option RefVchan × RefState :=
  match s.onCtx ctx vcid with
  | none => (none, s)
  | some v =>
      if (!ignoreRemote && v.otherendClosed) || v.closed || s.refcount v.addr = 0 then (none, s)
      else (some v, s.get v)

/-- `hab_vchan_get`, for the vchan that `vchan_idr` has for the id in a header. -/
def habVchanGet (s : RefState) (pchan : ℕ) (vchanId sessionId : UInt32) :
    Option RefVchan × RefState :=
  match s.vchans.find? fun v ↦ v.pchan = some pchan ∧ v.id &&& habVcidIdMask = vchanId with
  | none => (none, s)
  | some v =>
      if v.sessionId ≠ sessionId ∨ v.otherendId = 0 ∨ v.otherendClosed ∨ v.closed ∨
          s.refcount v.addr = 0 then (none, s)
      else (some v, s.get v)

def habVchanStop (s : RefState) (v : RefVchan) : RefState :=
  { s with
    vchans := s.vchans.map fun w ↦
      if w.addr = v.addr then { w with otherendClosed := true } else w }

/-- The section of `ctx_lock` in `hab_vchan_close`. -/
def unlist (s : RefState) (v : RefVchan) : RefState :=
  { s with
    vchans := s.vchans.map fun w ↦
      if w.addr = v.addr then { w with ctx := none, closed := true } else w }

/-- `hab_vchan_close`, where it finds the vchan. -/
def habVchanClose (s : RefState) (ctx : ℕ) (vcid : UInt32) : RefState :=
  match s.onCtx ctx vcid with
  | none => s
  | some v => ((s.unlist v).habVchanStop v).habVchanPut v

end RefState

/-! ## Sending -/

/-- One round of the loop of `hab_vchan_send`: what `physical_channel_send` returns, and
`vchan->otherend_closed` after it. -/
structure SendRound where
  ret : Option Errno
  otherendClosed : Bool

/-- The loop of `hab_vchan_send`; it has not ended if every round asks for another. -/
def sendLoop (nonblocking : Bool) : List SendRound → Option (Option Errno)
  | [] => none
  | round :: rounds =>
      if round.otherendClosed || nonblocking || round.ret ≠ some .eagain then some round.ret
      else sendLoop nonblocking rounds

def habmmSocketSendFlagsNonBlocking : UInt32 := 0x00000001

def habmmSocketSendFlagsXingVmStat : UInt32 := 0x00000002

def habmmSocketXvmScheTest : UInt32 := 0x00000004

def habmmSocketXvmScheTestAck : UInt32 := 0x00000008

def habmmSocketXvmScheResultReq : UInt32 := 0x00000010

def habmmSocketXvmScheResultRsp : UInt32 := 0x00000020

/-- The payload type that the flags of `hab_vchan_send` ask for; there is none if the
message is too small for it. -/
def sendType (flags : UInt32) (sizebytes : ℕ) : Option HabPayloadType :=
  if flags &&& habmmSocketSendFlagsXingVmStat ≠ 0 then
    if sizebytes < xingVmStatSize then none else some .profile
  else if flags &&& habmmSocketXvmScheTest ≠ 0 then some .scheMsg
  else if flags &&& habmmSocketXvmScheTestAck ≠ 0 then some .scheMsgAck
  else if flags &&& habmmSocketXvmScheResultReq ≠ 0 then
    if sizebytes < 8 then none else some .scheResultReq
  else if flags &&& habmmSocketXvmScheResultRsp ≠ 0 then
    if sizebytes < 3 * 8 then none else some .scheResultRsp
  else some .msg

/-- `hab_vchan_send`: what it returns, if it does.  `closing` says whether the other end
closes right after the lookup. -/
def habVchanSend (s : RefState) (ctx : ℕ) (vcid : UInt32) (sizebytes : ℕ) (flags : UInt32)
    (closing : Bool) (rounds : List SendRound) : Option (Option Errno) × RefState :=
  if habHeaderSizeMax < sizebytes then (some (some .einval), s)
  else
    match s.habGetVchanFromvcid ctx vcid false with
    | (none, s) => (some (some .enodev), s)
    | (some v, s) =>
        if closing then (some (some .enodev), s.habVchanPut v)
        else
          match sendType flags sizebytes with
          -- returns without going through `err`
          | none => (some (some .einval), s)
          | some _ =>
              match sendLoop (flags &&& habmmSocketSendFlagsNonBlocking ≠ 0) rounds with
              | none => (none, s)
              | some ret => (some ret, s.habVchanPut v)

/-! ## Receiving -/

/-- A message that `hab_msg_recv` handles, and what its handler returns. -/
structure RecvMsg where
  pchan : ℕ
  type : Option HabPayloadType
  vchanId : UInt32
  sessionId : UInt32
  sizebytes : ℕ
  /-- The other end closes right after the lookup. -/
  closing : Bool
  ret : Option Errno

def habMsgRecv (s : RefState) (m : RecvMsg) : Option Errno × RefState :=
  if m.type.any HabPayloadType.isOpen then
    if m.sizebytes ≠ openSendDataSize then (some .enodev, s) else (m.ret, s)
  else
    match s.habVchanGet m.pchan m.vchanId m.sessionId with
    | (none, s) => (if m.type = some .unimport then none else some .einval, s)
    | (some v, s) =>
        if m.closing then (some .enodev, s.habVchanPut v)
        else
          let s := if m.type = some .close then s.habVchanStop v else s
          (m.ret, s.habVchanPut v)

/-- `hab_vchan_recv`.  A call that must not block handles the messages that wait on the
pchan first. -/
def habVchanRecv (s : RefState) (ctx : ℕ) (vcid : UInt32) (nonblocking : Bool)
    (waiting : List RecvMsg) (dequeue : Option Errno) : Option Errno × RefState :=
  match s.habGetVchanFromvcid ctx vcid true with
  | (none, s) => (some .enodev, s)
  | (some v, s) =>
      let s := if nonblocking then waiting.foldl (fun s m ↦ (habMsgRecv s m).2) s else s
      (dequeue, s.habVchanPut v)

def habVchanQuery (s : RefState) (ctx : ℕ) (vcid : UInt32) : Option Errno × RefState :=
  match s.habGetVchanFromvcid ctx vcid true with
  | (none, s) => (some .einval, s)
  | (some v, s) =>
      if v.otherendClosed then (some .enodev, s.habVchanPut v) else (none, s.habVchanPut v)

/-! ## Memory -/

/-- `hab_mem_export`: `valid` if the parameters are, `grant` and `exported` what
`habmem_hyp_grant` and `habmem_export_vchan` return. -/
def habMemExportRefs (s : RefState) (ctx : ℕ) (vcid : UInt32) (valid : Bool)
    (grant exported : Option Errno) : Option Errno × RefState :=
  if !valid then (some .einval, s)
  else
    match s.habGetVchanFromvcid ctx vcid false with
    | (none, s) => (some .enodev, s)
    | (some v, s) =>
        if v.pchan = none then (some .enodev, s.habVchanPut v)
        else
          match grant with
          | some error => (some error, s.habVchanPut v)
          | none => (exported, s.habVchanPut v)

/-- `hab_mem_unexport`: `taken` is the error of the section of `expid_lock`, and
`revoked` that of `habmem_hyp_revoke`. -/
def habMemUnexportRefs (s : RefState) (ctx : ℕ) (vcid : UInt32)
    (taken revoked : Option Errno) : Option Errno × RefState :=
  match s.habGetVchanFromvcid ctx vcid true with
  | (none, s) => (some .enodev, s)
  | (some v, s) =>
      if v.pchan = none then (some .enodev, s.habVchanPut v)
      else
        match taken with
        | some error => (some error, s.habVchanPut v)
        | none => (revoked, s.habVchanPut v)

/-- `hab_mem_import`: `asked` is the error of the exchange with the exporter, `found` that
of the section of `imp_lock`, and `mapped` that of the size check and the mapping. -/
def habMemImportRefs (s : RefState) (ctx : ℕ) (vcid : UInt32) (aligned : Bool)
    (asked found mapped : Option Errno) : Option Errno × RefState :=
  if !aligned then (some .einval, s)
  else
    match s.habGetVchanFromvcid ctx vcid false with
    | (none, s) => (some .enodev, s)
    | (some v, s) =>
        if v.pchan = none then (some .enodev, s.habVchanPut v)
        else
          match asked, found with
          | some error, _ => (some error, s.habVchanPut v)
          | none, some error => (some error, s.habVchanPut v)
          | none, none => (mapped, s.habVchanPut v)

/-- `hab_mem_unimport`: `found` if the section of `imp_lock` finds an imported
descriptor, and `unmapped` what `habmm_imp_hyp_unmap` returns. -/
def habMemUnimportRefs (s : RefState) (ctx : ℕ) (vcid : UInt32) (found : Bool)
    (unmapped : Option Errno) : Option Errno × RefState :=
  match s.habGetVchanFromvcid ctx vcid true with
  | (none, s) => (some .enodev, s)
  | (some v, s) =>
      if v.pchan = none then (some .enodev, s.habVchanPut v)
      else if !found then (some .einval, s.habVchanPut v)
      else (unmapped, s.habVchanPut v)

/-! ## Any call -/

inductive RefCall where
  | send (ctx : ℕ) (vcid : UInt32) (sizebytes : ℕ) (flags : UInt32) (closing : Bool)
      (rounds : List SendRound)
  | recv (ctx : ℕ) (vcid : UInt32) (nonblocking : Bool) (waiting : List RecvMsg)
      (dequeue : Option Errno)
  | query (ctx : ℕ) (vcid : UInt32)
  | memExport (ctx : ℕ) (vcid : UInt32) (valid : Bool) (grant exported : Option Errno)
  | memUnexport (ctx : ℕ) (vcid : UInt32) (taken revoked : Option Errno)
  | memImport (ctx : ℕ) (vcid : UInt32) (aligned : Bool) (asked found mapped : Option Errno)
  | memUnimport (ctx : ℕ) (vcid : UInt32) (found : Bool) (unmapped : Option Errno)
  | msgRecv (m : RecvMsg)

namespace RefCall

/-- What a call returns, if it does, and the vchans after it. -/
def run (s : RefState) : RefCall → Option (Option Errno) × RefState
  | send ctx vcid sizebytes flags closing rounds =>
      habVchanSend s ctx vcid sizebytes flags closing rounds
  | recv ctx vcid nonblocking waiting dequeue =>
      (habVchanRecv s ctx vcid nonblocking waiting dequeue).map some id
  | query ctx vcid => (habVchanQuery s ctx vcid).map some id
  | memExport ctx vcid valid grant exported =>
      (habMemExportRefs s ctx vcid valid grant exported).map some id
  | memUnexport ctx vcid taken revoked => (habMemUnexportRefs s ctx vcid taken revoked).map some id
  | memImport ctx vcid aligned asked found mapped =>
      (habMemImportRefs s ctx vcid aligned asked found mapped).map some id
  | memUnimport ctx vcid found unmapped =>
      (habMemUnimportRefs s ctx vcid found unmapped).map some id
  | msgRecv m => (habMsgRecv s m).map some id

/-- A send over an open vchan whose message is too small for what its flags say. -/
def Leaks (s : RefState) : RefCall → Prop
  | send ctx vcid sizebytes flags closing _ =>
      sizebytes ≤ habHeaderSizeMax ∧ (s.habGetVchanFromvcid ctx vcid false).1.isSome ∧
        closing = false ∧ sendType flags sizebytes = none
  | _ => False

end RefCall

/-! ## Every path but one gives the reference back -/

namespace RefState

variable {s : RefState} {v : RefVchan}

/-- The lookup takes a reference if it finds a vchan, and only one that is alive. -/
theorem habGetVchanFromvcid_cases (s : RefState) (ctx : ℕ) (vcid : UInt32) (ignoreRemote : Bool) :
    s.habGetVchanFromvcid ctx vcid ignoreRemote = (none, s) ∨
      ∃ v, s.refcount v.addr ≠ 0 ∧
        s.habGetVchanFromvcid ctx vcid ignoreRemote = (some v, s.get v) := by
  unfold habGetVchanFromvcid
  split
  · exact Or.inl rfl
  · rename_i v _
    split
    · exact Or.inl rfl
    · rename_i hopen
      simp only [Bool.or_eq_true, decide_eq_true_eq, not_or] at hopen
      exact Or.inr ⟨v, hopen.2, rfl⟩

theorem habVchanGet_cases (s : RefState) (pchan : ℕ) (vchanId sessionId : UInt32) :
    s.habVchanGet pchan vchanId sessionId = (none, s) ∨
      ∃ v, s.refcount v.addr ≠ 0 ∧
        s.habVchanGet pchan vchanId sessionId = (some v, s.get v) := by
  unfold habVchanGet
  split
  · exact Or.inl rfl
  · rename_i v _
    split
    · exact Or.inl rfl
    · rename_i hopen
      simp only [not_or] at hopen
      exact Or.inr ⟨v, hopen.2.2.2.2, rfl⟩

theorem refcount_put_of_get {t : RefState} (h : t.refcount = (s.get v).refcount) :
    (t.habVchanPut v).refcount = s.refcount := by
  funext a
  simp only [habVchanPut, h, get, Function.update_self]
  by_cases ha : a = v.addr
  · subst ha
    simp
  · simp [ha]

theorem refcount_get_ne (s : RefState) (v : RefVchan) : (s.get v).refcount ≠ s.refcount := by
  intro h
  have hv := congrFun h v.addr
  simp [get] at hv

/-- The last reference is the one that the list of the context stands for. -/
theorem freed_habVchanClose {ctx : ℕ} {vcid : UInt32} (hfound : s.onCtx ctx vcid = some v)
    (hone : s.refcount v.addr = 1) :
    (s.habVchanClose ctx vcid).freed v.addr = s.freed v.addr + 1 := by
  simp [habVchanClose, hfound, habVchanPut, habVchanStop, unlist, hone]

end RefState

open RefState

variable {s : RefState}

/-- Handling a message keeps every reference count. -/
theorem refcount_habMsgRecv (s : RefState) (m : RecvMsg) :
    (habMsgRecv s m).2.refcount = s.refcount := by
  unfold habMsgRecv
  split
  · split <;> rfl
  · rcases s.habVchanGet_cases m.pchan m.vchanId m.sessionId with hnone | ⟨v, -, hsome⟩
    · rw [hnone]
    · rw [hsome]
      simp only
      split
      · exact refcount_put_of_get rfl
      · split <;> exact refcount_put_of_get rfl

theorem refcount_foldl_habMsgRecv (waiting : List RecvMsg) (s : RefState) :
    (waiting.foldl (fun s m ↦ (habMsgRecv s m).2) s).refcount = s.refcount := by
  induction waiting generalizing s with
  | nil => rfl
  | cons m waiting ih => rw [List.foldl_cons, ih, refcount_habMsgRecv]

theorem refcount_habVchanRecv (ctx : ℕ) (vcid : UInt32) (nonblocking : Bool)
    (waiting : List RecvMsg) (dequeue : Option Errno) :
    (habVchanRecv s ctx vcid nonblocking waiting dequeue).2.refcount = s.refcount := by
  unfold habVchanRecv
  rcases s.habGetVchanFromvcid_cases ctx vcid true with hnone | ⟨v, -, hsome⟩
  · rw [hnone]
  · rw [hsome]
    refine refcount_put_of_get ?_
    split
    · exact refcount_foldl_habMsgRecv waiting _
    · rfl

theorem refcount_habVchanQuery (ctx : ℕ) (vcid : UInt32) :
    (habVchanQuery s ctx vcid).2.refcount = s.refcount := by
  unfold habVchanQuery
  rcases s.habGetVchanFromvcid_cases ctx vcid true with hnone | ⟨v, -, hsome⟩
  · rw [hnone]
  · rw [hsome]
    simp only
    split <;> exact refcount_put_of_get rfl

theorem refcount_habMemExport (ctx : ℕ) (vcid : UInt32) (valid : Bool)
    (grant exported : Option Errno) :
    (habMemExportRefs s ctx vcid valid grant exported).2.refcount = s.refcount := by
  unfold habMemExportRefs
  split
  · rfl
  · rcases s.habGetVchanFromvcid_cases ctx vcid false with hnone | ⟨v, -, hsome⟩
    · rw [hnone]
    · rw [hsome]
      simp only
      split
      · exact refcount_put_of_get rfl
      · cases grant <;> exact refcount_put_of_get rfl

theorem refcount_habMemUnexport (ctx : ℕ) (vcid : UInt32) (taken revoked : Option Errno) :
    (habMemUnexportRefs s ctx vcid taken revoked).2.refcount = s.refcount := by
  unfold habMemUnexportRefs
  rcases s.habGetVchanFromvcid_cases ctx vcid true with hnone | ⟨v, -, hsome⟩
  · rw [hnone]
  · rw [hsome]
    simp only
    split
    · exact refcount_put_of_get rfl
    · cases taken <;> exact refcount_put_of_get rfl

theorem refcount_habMemImport (ctx : ℕ) (vcid : UInt32) (aligned : Bool)
    (asked found mapped : Option Errno) :
    (habMemImportRefs s ctx vcid aligned asked found mapped).2.refcount = s.refcount := by
  unfold habMemImportRefs
  split
  · rfl
  · rcases s.habGetVchanFromvcid_cases ctx vcid false with hnone | ⟨v, -, hsome⟩
    · rw [hnone]
    · rw [hsome]
      simp only
      split
      · exact refcount_put_of_get rfl
      · cases asked <;> cases found <;> exact refcount_put_of_get rfl

theorem refcount_habMemUnimport (ctx : ℕ) (vcid : UInt32) (found : Bool)
    (unmapped : Option Errno) :
    (habMemUnimportRefs s ctx vcid found unmapped).2.refcount = s.refcount := by
  unfold habMemUnimportRefs
  rcases s.habGetVchanFromvcid_cases ctx vcid true with hnone | ⟨v, -, hsome⟩
  · rw [hnone]
  · rw [hsome]
    simp only
    split
    · exact refcount_put_of_get rfl
    · split <;> exact refcount_put_of_get rfl

/-- What `hab_vchan_send` leaves of the reference counts. -/
theorem refcount_habVchanSend {ctx : ℕ} {vcid : UInt32} {sizebytes : ℕ} {flags : UInt32}
    {closing : Bool} {rounds : List SendRound} {ret : Option Errno} {s' : RefState}
    (hleak : ¬ (RefCall.send ctx vcid sizebytes flags closing rounds).Leaks s)
    (hrun : habVchanSend s ctx vcid sizebytes flags closing rounds = (some ret, s')) :
    s'.refcount = s.refcount := by
  unfold habVchanSend at hrun
  split at hrun
  · cases hrun
    rfl
  · rename_i hsize
    rcases s.habGetVchanFromvcid_cases ctx vcid false with hnone | ⟨v, -, hsome⟩
    · rw [hnone] at hrun
      cases hrun
      rfl
    · rw [hsome] at hrun
      simp only at hrun
      split at hrun
      · cases hrun
        exact refcount_put_of_get rfl
      · rename_i hclosing
        split at hrun
        · rename_i htype
          refine absurd ⟨Nat.le_of_not_lt hsize, ?_, ?_, htype⟩ hleak
          · rw [hsome]
            rfl
          · exact Bool.eq_false_iff.mpr hclosing
        · split at hrun
          · cases hrun
          · cases hrun
            exact refcount_put_of_get rfl

/-- The one path that keeps its reference. -/
theorem habVchanSend_leaks {ctx : ℕ} {vcid : UInt32} {sizebytes : ℕ} {flags : UInt32}
    {closing : Bool} {rounds : List SendRound}
    (h : (RefCall.send ctx vcid sizebytes flags closing rounds).Leaks s) :
    ∃ v, habVchanSend s ctx vcid sizebytes flags closing rounds =
      (some (some .einval), s.get v) := by
  obtain ⟨hsize, hfound, hclosing, htype⟩ := h
  rcases s.habGetVchanFromvcid_cases ctx vcid false with hnone | ⟨v, -, hsome⟩
  · rw [hnone] at hfound
    cases hfound
  · refine ⟨v, ?_⟩
    rw [habVchanSend, if_neg (Nat.not_lt.mpr hsize), hsome, hclosing, htype]
    rfl

/-- A call that returns leaves every reference count as it was, and a later close frees
the vchan, exactly if it is not a send of a message too small for its flags. -/
theorem refcount_eq_iff (s : RefState) (call : RefCall) :
    (∀ ret s', call.run s = (some ret, s') →
      s'.refcount = s.refcount ∧
        ∀ ctx vcid v, s'.onCtx ctx vcid = some v → s.refcount v.addr = 1 →
          (s'.habVchanClose ctx vcid).freed v.addr = s'.freed v.addr + 1) ↔
      ¬ call.Leaks s := by
  constructor
  · intro h hleak
    cases call with
    | send ctx vcid sizebytes flags closing rounds =>
        obtain ⟨v, hrun⟩ := habVchanSend_leaks hleak
        exact s.refcount_get_ne v (h _ _ hrun).1
    | _ => exact hleak
  · intro hleak ret s' hrun
    have hrefcount : s'.refcount = s.refcount := by
      cases call with
      | send ctx vcid sizebytes flags closing rounds => exact refcount_habVchanSend hleak hrun
      | recv ctx vcid nonblocking waiting dequeue =>
          cases hrun
          exact refcount_habVchanRecv ctx vcid nonblocking waiting dequeue
      | query ctx vcid =>
          cases hrun
          exact refcount_habVchanQuery ctx vcid
      | memExport ctx vcid valid grant exported =>
          cases hrun
          exact refcount_habMemExport ctx vcid valid grant exported
      | memUnexport ctx vcid taken revoked =>
          cases hrun
          exact refcount_habMemUnexport ctx vcid taken revoked
      | memImport ctx vcid aligned asked found mapped =>
          cases hrun
          exact refcount_habMemImport ctx vcid aligned asked found mapped
      | memUnimport ctx vcid found unmapped =>
          cases hrun
          exact refcount_habMemUnimport ctx vcid found unmapped
      | msgRecv m =>
          cases hrun
          exact refcount_habMsgRecv s m
    refine ⟨hrefcount, fun ctx vcid v hfound hone ↦ freed_habVchanClose hfound ?_⟩
    rw [hrefcount]
    exact hone

/-- A send of an empty message with the flag of the profiling message leaks its vchan. -/
theorem not_forall_refcount_eq :
    ¬ ∀ (s : RefState) (call : RefCall) (ret : Option Errno) (s' : RefState),
      call.run s = (some ret, s') → s'.refcount = s.refcount := by
  intro h
  have hsame := h ⟨[⟨0, some 0, some 0, 1, 1, 1, false, false⟩], fun _ ↦ 1, fun _ ↦ 0⟩
    (.send 0 1 0 habmmSocketSendFlagsXingVmStat false []) _ _ rfl
  exact absurd (congrFun hsame 0) (by decide)

end Hab
