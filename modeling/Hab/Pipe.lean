import Hab.Library.Memory

/-!
# The shared ring (`hab_pipe.c`)

Each direction of a pipe is a ring in memory shared with the other VM.  The
writer and the reader keep their ring index in a local endpoint; the counts of
bytes written and read lie in the shared header.  A result `none` stands for
a copy that leaves the ring or the caller's buffer.
-/

namespace Hab

open Memory

structure HabSharedBuf where
  rdCount : UInt32
  wrCount : UInt32
  size : UInt32
  data : List UInt8
deriving DecidableEq

/-- `tx_info` of an endpoint. -/
structure TxInfo where
  wrCount : UInt32
  index : UInt32
deriving DecidableEq

/-- `rx_info` of an endpoint. -/
structure RxInfo where
  index : UInt32
deriving DecidableEq

structure HabPipeEndpoint where
  txInfo : TxInfo
  rxInfo : RxInfo
deriving DecidableEq

/-- The endpoint after `memset(ep, 0, sizeof(*ep))`. -/
def HabPipeEndpoint.zero : HabPipeEndpoint := ⟨⟨0, 0⟩, ⟨0⟩⟩

/-- `struct hab_pipe`, with the two rings that `hab_pipe_init` lays out in
`buf_base`. -/
structure HabPipe where
  top : HabPipeEndpoint
  bottom : HabPipeEndpoint
  bufA : HabSharedBuf
  bufB : HabSharedBuf
deriving DecidableEq

/-- The ring memory behind both headers has the given size. -/
def HabPipe.Spans (pipe : HabPipe) (sharedBufSize : UInt32) : Prop :=
  pipe.bufA.data.length = sharedBufSize.toNat ∧ pipe.bufB.data.length = sharedBufSize.toNat

/-- The endpoint `hab_pipe_init` returns. -/
def HabPipe.ep (pipe : HabPipe) (top : Bool) : HabPipeEndpoint :=
  if top then pipe.top else pipe.bottom

/-- What `*tx_buf_p` points to after `hab_pipe_init`. -/
def HabPipe.txBuf (pipe : HabPipe) (top : Bool) : HabSharedBuf :=
  if top then pipe.bufA else pipe.bufB

/-- What `*rx_buf_p` points to after `hab_pipe_init`. -/
def HabPipe.rxBuf (pipe : HabPipe) (top : Bool) : HabSharedBuf :=
  if top then pipe.bufB else pipe.bufA

/-- The header of a ring after the bottom side has cleared it; the bytes of
the ring keep what was there. -/
def HabSharedBuf.reset (buf : HabSharedBuf) (sharedBufSize : UInt32) : HabSharedBuf :=
  { buf with rdCount := 0, wrCount := 0, size := sharedBufSize }

/-- `hab_pipe_init`: the bottom side owns the shared headers. -/
def habPipeInit (pipe : HabPipe) (sharedBufSize : UInt32) (top : Bool) : HabPipe :=
  if top then { pipe with top := .zero }
  else
    { pipe with
      bottom := .zero
      bufA := pipe.bufA.reset sharedBufSize
      bufB := pipe.bufB.reset sharedBufSize }

/-- One of the two copies of `hab_pipe_write`, with the step of the index that
follows it. -/
def copyIn (data : List UInt8) (bufSize index : UInt32) (p : List UInt8) (off count : UInt32) :
    Option (List UInt8 × UInt32) :=
  if count > 0 then do
    let src ← load p off.toNat count.toNat
    let data ← store data index.toNat src
    let index := index + count
    pure (data, if index ≥ bufSize then 0 else index)
  else some (data, index)

/-- `hab_pipe_write`: the number of bytes accepted, the endpoint and the ring
afterwards. -/
def habPipeWrite (ep : HabPipeEndpoint) (shBuf : HabSharedBuf) (bufSize : UInt32)
    (p : Option (List UInt8)) (numBytes : UInt32) :
    Option (UInt32 × HabPipeEndpoint × HabSharedBuf) :=
  let index := ep.txInfo.index
  let wrCount := ep.txInfo.wrCount
  let rdCount := shBuf.rdCount
  if bufSize < wrCount - rdCount then some (0, ep, shBuf)
  else
    let space := bufSize - (wrCount - rdCount)
    match p with
    | none => some (0, ep, shBuf)
    | some p =>
      if numBytes > space ∨ numBytes = 0 then some (0, ep, shBuf)
      else if bufSize < index ∨ bufSize < numBytes then some (0, ep, shBuf)
      else do
        let count1 := if numBytes ≤ bufSize - index then numBytes else bufSize - index
        let count2 := numBytes - count1
        let (data, index) ← copyIn shBuf.data bufSize index p 0 count1
        -- handle buffer wrapping
        let (data, index) ← copyIn data bufSize index p count1 count2
        pure (numBytes, { ep with txInfo := ⟨wrCount + count1 + count2, index⟩ },
          { shBuf with data := data })

/-- `hab_pipe_write_commit` publishes the local write count. -/
def habPipeWriteCommit (ep : HabPipeEndpoint) (shBuf : HabSharedBuf) : HabSharedBuf :=
  { shBuf with wrCount := ep.txInfo.wrCount }

/-- One of the copies of `hab_pipe_read` from the ring to the caller's buffer. -/
def copyOut (data : List UInt8) (index count : UInt32) (p : List UInt8) (off : UInt32) :
    Option (List UInt8) :=
  if count > 0 then do
    let src ← load data index.toNat count.toNat
    store p off.toNat src
  else some p

/-- `sizeof(struct hab_header)`. -/
def sizeofHabHeader : UInt32 := 20

def habHeadSignature : UInt32 := 0xBEE1BEE1

/-- `head->signature`: the little-endian word at offset 12 of the header. -/
def headSignature (p : List UInt8) : Option UInt32 := do
  let bytes ← load p 12 4
  pure (bytes.foldr (fun b acc ↦ acc * 256 + b.toUInt32) 0)

/-- The two copies of a header retry: the same bytes of the ring again. -/
def recopyHeader (data p : List UInt8) (indexSaved index count1 count2 : UInt32) :
    Option (List UInt8) := do
  let first ← load data indexSaved.toNat count1.toNat
  let p ← store p 0 first
  copyOut data (index - count2) count2 p count1

/-- The `retry:` loop of `hab_pipe_read`, with `left` retries still allowed:
the caller's buffer, `retry_cnt` and the static `signature_mismatch`. -/
def retryHeader (recopy : List UInt8 → Option (List UInt8)) (signatureMismatch : UInt8) :
    ℕ → List UInt8 → Option (List UInt8 × ℕ × UInt8)
  | 0, p => do
      if (← headSignature p) ≠ habHeadSignature then pure (p, 1002, 1) else pure (p, 1001, 0)
  | left + 1, p => do
      if (← headSignature p) ≠ habHeadSignature then
        let p ← recopy p
        if signatureMismatch = 0 then retryHeader recopy signatureMismatch left p
        else pure (p, 1001 - left, 1)
      else pure (p, 1000 - left, 0)

/-- What a call of `hab_pipe_read` leaves behind. -/
structure PipeRead where
  ret : UInt32
  ep : HabPipeEndpoint
  shBuf : HabSharedBuf
  p : List UInt8
  signatureMismatch : UInt8
deriving DecidableEq

/-- `hab_pipe_read`.  The last argument is the function's static variable,
which every call on every pipe shares. -/
def habPipeRead (ep : HabPipeEndpoint) (shBuf : HabSharedBuf) (bufSize : UInt32)
    (p : Option (List UInt8)) (size clear : UInt32) (signatureMismatch : UInt8) :
    Option PipeRead :=
  let indexSaved := ep.rxInfo.index
  let avail := shBuf.wrCount - shBuf.rdCount
  match p with
  | none => some ⟨0, ep, shBuf, [], signatureMismatch⟩
  | some p =>
    if avail = 0 ∨ size = 0 ∨ indexSaved > bufSize then
      some ⟨0, ep, shBuf, p, signatureMismatch⟩
    else do
      let toRead := if avail < size then avail else size
      let count1 := if toRead ≤ bufSize - indexSaved then toRead else bufSize - indexSaved
      let count2 := toRead - count1
      let p ← copyOut shBuf.data indexSaved count1 p 0
      let index :=
        if count1 > 0 then
          if indexSaved + count1 ≥ bufSize then 0 else indexSaved + count1
        else indexSaved
      -- handle buffer wrapping
      let p ← copyOut shBuf.data index count2 p count1
      let index := index + count2
      if count1 + count2 = 0 then
        pure ⟨toRead, { ep with rxInfo := ⟨index⟩ }, shBuf, p, signatureMismatch⟩
      else do
        let (p, retryCnt, signatureMismatch) ←
          if clear ≠ 0 ∧ size = sizeofHabHeader then
            retryHeader (recopyHeader shBuf.data · indexSaved index count1 count2)
              signatureMismatch 1001 p
          else pure (p, 0, signatureMismatch)
        if signatureMismatch ≠ 0 then
          -- skip one byte and leave the rest of the header in the ring
          let index := if indexSaved + 1 ≥ shBuf.size then 0 else indexSaved + 1
          pure ⟨if retryCnt < 1000 then 0xFFFFFFFE else 0xFFFFFFFF,
            { ep with rxInfo := ⟨index⟩ }, { shBuf with rdCount := shBuf.rdCount + 1 }, p,
            signatureMismatch⟩
        else
          pure ⟨toRead, { ep with rxInfo := ⟨index⟩ },
            { shBuf with rdCount := shBuf.rdCount + (count1 + count2) }, p, signatureMismatch⟩

end Hab
