import Hab.Compress

/-!
# What a failed `hab_mem_export` leaves

`hab_mem_export` takes a reference to a dma-buf, makes a descriptor with an id, fills it
and hands it to `habmem_export_vchan`, which tells the peer (by the legacy protocol
only) and links it.  The functions here are the four nested ones with every exit, on the
export side of a VM together with the references to its dma-bufs.
-/

namespace Hab

/-- The number that stands for the error in a return value. -/
def Errno.ret : Errno → ℤ
  | .eio => -5
  | .enomem => -12
  | .eagain => -11
  | .eintr => -4
  | .enxio => -6
  | .einval => -22
  | .eproto => -71
  | .enodev => -19
  | .etimedout => -110
  | .ebusy => -16
  | .eoverflow => -75

/-- `HABMM_EXP_MEM_TYPE_DMA`, `HABMM_EXPIMP_FLAGS_FD` and `HABMM_EXPIMP_FLAGS_DMABUF`. -/
def expMemTypeDma : UInt32 := 0x1

def expimpFlagsFd : UInt32 := 0x10000

def expimpFlagsDmabuf : UInt32 := 0x20000

/-- `struct hab_export`; the vchan is the one that `vcid` names. -/
structure HabExport where
  buffer : UInt64
  vchan : ℕ
  sizebytes : UInt32
  flags : UInt32

namespace HabExport

/-- The first check of `hab_mem_export`. -/
def valid (param : HabExport) : Bool :=
  param.sizebytes ≠ 0 && param.sizebytes % UInt32.ofNat pageSize = 0 &&
    (param.buffer ≠ 0 || expimpFlagsFd &&& param.flags ≠ 0)

/-- `param->sizebytes/PAGE_SIZE`, as an `int`. -/
def pageCount (param : HabExport) : Int32 := (param.sizebytes / UInt32.ofNat pageSize).toInt32

end HabExport

/-- A dma-buf with its address and, for an address in a mapping of it, the offset. -/
structure GrantedBuf where
  addr : ℕ
  buf : DmaBuf
  offset : UInt64

/-- How the calls inside `hab_mem_export` turn out. -/
structure ExportEnv where
  /-- The page array and `struct pages_list` that a kernel address needs. -/
  pagesAlloc : Bool
  /-- The dma-buf that is looked up or made; its reference is the caller's. -/
  dmabuf : Option GrantedBuf
  vzalloc : Bool
  /-- What `idr_alloc_cyclic` returns: an id, or an error below zero. -/
  idrAlloc : Int32
  platformData : Bool
  /-- `dma_buf_attach` and `dma_buf_map_attachment`. -/
  mapped : Bool
  physicalChannelSend : ℤ
  ackWait : ℤ
  /-- What lies where `habmem_export_vchan` has its `ret`. -/
  uninit : ℤ

/-- The export side of a VM, with the references to dma-bufs. -/
structure ExportHost (π : Type*) where
  vm : ExportVm π
  dmaRefs : ℕ → ℤ

namespace ExportHost

variable {π : Type*}

def dmaBufGet (s : ExportHost π) (b : ℕ) : ExportHost π :=
  { s with dmaRefs := Function.update s.dmaRefs b (s.dmaRefs b + 1) }

def dmaBufPut (s : ExportHost π) (b : ℕ) : ExportHost π :=
  { s with dmaRefs := Function.update s.dmaRefs b (s.dmaRefs b - 1) }

variable [DecidableEq π]

/-- `habmem_add_export`: a descriptor that got no id is in no `expid_idr`, and goes on with
the error as its id. -/
def habmemAddExport (s : ExportHost π) (vchan : ExportVchan π) (idrAlloc : Int32)
    (payloadCount : UInt32) : ExportHost π :=
  let added := s.vm.habmemAddExport vchan idrAlloc.toUInt32 payloadCount
  { s with vm := if 0 < idrAlloc then added else { added with expidIdr := s.vm.expidIdr } }

/-- The labels `err_alloc` and `err_add_exp` of `habmem_add_export_compress`.  The lock is
taken through `export->pchan`, which the legacy protocol has not set. -/
def unwindExport (s : ExportHost π) (vchan : ExportVchan π) (e : ℕ) (b : ℕ) (ret : ℤ) :
    Option (ℤ × UInt32 × UInt32 × ExportHost π) :=
  if s.vm.memProto vchan.pchan then
    some (ret, 0, 0, dmaBufPut { s with vm := (s.vm.idrRemove vchan.pchan e).destroy e } b)
  else none

/-- `habmem_add_export_compress`: what it returns, `*payload_size`, `*export_id` and the
state.  There is no result where the kernel would stop. -/
def habmemAddExportCompress (s : ExportHost π) (vchan : ExportVchan π) (offset : UInt64)
    (pageCount : Int32) (b : GrantedBuf) (env : ExportEnv) :
    Option (ℤ × UInt32 × UInt32 × ExportHost π) :=
  if !env.vzalloc then some (Errno.enomem.ret, 0, 0, s.dmaBufPut b.addr)
  else
    let e := s.vm.nextDesc
    let added := s.habmemAddExport vchan env.idrAlloc pageCount.toUInt32
    if !env.platformData then none -- `export` is still NULL at `err_alloc`
    else
      match b.buf, habmemCompressPfns b.buf offset pageCount env.mapped with
      | _, some pfns => some (0, pfns.dataSize, env.idrAlloc.toUInt32, added)
      | .foreign _, none => added.unwindExport vchan e b.addr (-9) -- `-EBADF`
      | .own _, none => none -- beyond the end of the page array

def habmemHypGrant (s : ExportHost π) (vchan : ExportVchan π) (pageCount : Int32)
    (flags : UInt32) (env : ExportEnv) : Option (ℤ × UInt32 × UInt32 × ExportHost π) :=
  if expimpFlagsDmabuf &&& flags = 0 ∧ expimpFlagsFd &&& flags = 0 ∧ env.pagesAlloc = false then
    some (Errno.enomem.ret, 0, 0, s)
  else
    match env.dmabuf with
    | none => some (Errno.einval.ret, 0, 0, s)
    | some b => (s.dmaBufGet b.addr).habmemAddExportCompress vchan 0 pageCount b env

def habmemHypGrantUser (s : ExportHost π) (vchan : ExportVchan π) (pageCount : Int32)
    (flags : UInt32) (env : ExportEnv) : Option (ℤ × UInt32 × UInt32 × ExportHost π) :=
  match env.dmabuf with
  | none => some (Errno.einval.ret, 0, 0, s)
  | some b =>
      let offset := if expMemTypeDma &&& flags ≠ 0 then b.offset else 0
      (s.dmaBufGet b.addr).habmemAddExportCompress vchan offset pageCount b env

/-- `sizeof(*export) + payload_size` is more than a message holds. -/
def tooLarge (payloadSize : UInt32) : Bool :=
  habHeaderSizeMax < (UInt32.ofNat exportDescSize + payloadSize).toNat

/-- `habmem_export_vchan`.  By the new protocol nothing is sent and nothing is put into
`ret` before it is returned. -/
def habmemExportVchan (s : ExportHost π) (c : ℕ) (vchan : ExportVchan π) (payloadSize id : UInt32)
    (env : ExportEnv) : ℤ × ExportHost π :=
  if tooLarge payloadSize then (Errno.einval.ret, s)
  else
    match s.vm.expidIdr vchan.pchan id with
    | none => (Errno.einval.ret, s)
    | some e =>
        if s.vm.memProto vchan.pchan then
          (env.uninit, { s with vm := (s.vm.linkExport c e).publishExport e })
        else if env.physicalChannelSend ≠ 0 then (env.physicalChannelSend, s)
        else if env.ackWait ≠ 0 then (env.ackWait, s)
        else (0, { s with vm := ((s.vm.setLocal vchan c e).linkExport c e).publishExport e })

/-- What `hab_mem_export` does with the outcome of the grant. -/
def afterGrant (c : ℕ) (vchan : ExportVchan π) (env : ExportEnv)
    (grant : Option (ℤ × UInt32 × UInt32 × ExportHost π)) : Option (ℤ × UInt32 × ExportHost π) :=
  match grant with
  | none => none
  | some (ret, payloadSize, id, t) =>
      if ret < 0 then some (ret, 0, t)
      else
        let (ret, u) := t.habmemExportVchan c vchan payloadSize id env
        some (ret, id, u)

/-- `hab_mem_export`: what it returns, `param->exportid` and the state; the context and
the parameters may be missing. -/
def habMemExport (s : ExportHost π) (ctx : Option ℕ) (param : Option HabExport) (kernel : Bool)
    (env : ExportEnv) : Option (ℤ × UInt32 × ExportHost π) :=
  match ctx, param.filter HabExport.valid with
  | some c, some param =>
      match s.vm.getVchan c param.vchan with
      | none => some (Errno.enodev.ret, 0, s)
      | some vchan =>
          afterGrant c vchan env
            (if kernel then s.habmemHypGrant vchan param.pageCount param.flags env
              else s.habmemHypGrantUser vchan param.pageCount param.flags env)
  | _, _ => some (Errno.einval.ret, 0, s)

/-! ## All or nothing -/

/-- The new descriptor is the last of the context's exports, and exported. -/
def Linked (s t : ExportHost π) (ctx : Option ℕ) : Prop :=
  ∃ c, ctx = some c ∧ (t.vm.ctx c).expWhse = (s.vm.ctx c).expWhse ++ [s.vm.nextDesc] ∧
    (t.vm.desc s.vm.nextDesc).expState = .success

/-- The tables of ids, the contexts and the references to dma-bufs are as before. -/
structure Unchanged (s t : ExportHost π) : Prop where
  expidIdr : t.vm.expidIdr = s.vm.expidIdr
  ctx : t.vm.ctx = s.vm.ctx
  dmaRefs : t.dmaRefs = s.dmaRefs

/-- The call returns, with 0 exactly if the new descriptor is linked, and otherwise with
nothing changed. -/
def AllOrNothing (s : ExportHost π) (ctx : Option ℕ)
    (result : Option (ℤ × UInt32 × ExportHost π)) : Prop :=
  ∃ ret id t, result = some (ret, id, t) ∧ (ret = 0 ↔ Linked s t ctx) ∧
    (ret ≠ 0 → Unchanged s t)

/-- The dma-buf that the grant goes on with, and the offset in it. -/
def granted (flags : UInt32) (kernel : Bool) (env : ExportEnv) : Option (GrantedBuf × UInt64) :=
  if kernel then
    if expimpFlagsDmabuf &&& flags = 0 ∧ expimpFlagsFd &&& flags = 0 ∧ env.pagesAlloc = false then
      none
    else env.dmabuf.map fun b ↦ (b, 0)
  else env.dmabuf.map fun b ↦ (b, if expMemTypeDma &&& flags ≠ 0 then b.offset else 0)

/-- The condition behind `habmem_hyp_grant`: the descriptor fits a message and has an id,
and the peer takes it or, by the new protocol, `ret` happens to hold 0. -/
def Finishes (env : ExportEnv) (newProto : Bool) (payloadSize : UInt32) : Prop :=
  tooLarge payloadSize = false ∧ 0 < env.idrAlloc ∧
    if newProto then env.uninit = 0 else env.physicalChannelSend = 0 ∧ env.ackWait = 0

/-- The condition from the allocation of the descriptor on.  Where the table of regions
cannot be made, only the new protocol gets away. -/
def CleanFrom (env : ExportEnv) (newProto : Bool) (b : GrantedBuf) (offset : UInt64)
    (pageCount : Int32) : Prop :=
  match env.platformData, b.buf, habmemCompressPfns b.buf offset pageCount env.mapped with
  | true, _, some pfns => Finishes env newProto pfns.dataSize
  | true, .foreign _, none => newProto = true
  | _, _, _ => False

/-- The condition on a call: one that is refused before it has a descriptor meets it. -/
def Clean (s : ExportHost π) (ctx : Option ℕ) (param : Option HabExport) (kernel : Bool)
    (env : ExportEnv) : Prop :=
  ∀ c p vchan b offset, ctx = some c → param = some p → p.valid = true →
    s.vm.getVchan c p.vchan = some vchan → granted p.flags kernel env = some (b, offset) →
      env.vzalloc = true → CleanFrom env (s.vm.memProto vchan.pchan) b offset p.pageCount

/-- What `idr_alloc_cyclic` returns is the id of no entry: an id that was free, or a
negative number. -/
def FreshId (s : ExportHost π) (ctx : Option ℕ) (param : Option HabExport) (env : ExportEnv) :
    Prop :=
  ∀ c p vchan, ctx = some c → param = some p → s.vm.getVchan c p.vchan = some vchan →
    s.vm.expidIdr vchan.pchan env.idrAlloc.toUInt32 = none

variable {s t : ExportHost π} {vchan : ExportVchan π} {env : ExportEnv} {c : ℕ}

/-! ## The state on the way -/

omit [DecidableEq π] in
theorem Unchanged.refl (s : ExportHost π) : Unchanged s s := ⟨rfl, rfl, rfl⟩

omit [DecidableEq π] in
theorem not_linked (h : t.vm.ctx = s.vm.ctx) (ctx : Option ℕ) : ¬ Linked s t ctx := by
  rintro ⟨c, -, hlist, -⟩
  rw [h] at hlist
  have hlen := congrArg List.length hlist
  rw [List.length_append, List.length_singleton] at hlen
  omega

omit [DecidableEq π] in
theorem allOrNothing_of_error {ctx : Option ℕ} {ret : ℤ} (hret : ret ≠ 0) (id : UInt32)
    (h : Unchanged s t) : AllOrNothing s ctx (some (ret, id, t)) :=
  ⟨ret, id, t, rfl, iff_of_false hret (not_linked h.ctx ctx), fun _ ↦ h⟩

omit [DecidableEq π] in
/-- An error with something left behind is not a clean one. -/
theorem not_allOrNothing {ctx : Option ℕ} {ret : ℤ} (hret : ret ≠ 0) (id : UInt32)
    (h : ¬ Unchanged s t) : ¬ AllOrNothing s ctx (some (ret, id, t)) := by
  rintro ⟨ret', id', t', heq, -, hunchanged⟩
  cases heq
  exact h (hunchanged hret)

omit [DecidableEq π] in
theorem dmaRefs_get_put (s : ExportHost π) (b : ℕ) :
    Function.update (s.dmaBufGet b).dmaRefs b ((s.dmaBufGet b).dmaRefs b - 1) = s.dmaRefs := by
  simp only [dmaBufGet, Function.update_self, Function.update_idem]
  rw [Int.add_sub_cancel]
  exact Function.update_eq_self b s.dmaRefs

omit [DecidableEq π] in
theorem dmaRefs_get_ne (s : ExportHost π) (b : ℕ) : (s.dmaBufGet b).dmaRefs ≠ s.dmaRefs := by
  intro h
  have hb := congrFun h b
  simp only [dmaBufGet, Function.update_self] at hb
  omega

section Added

variable (s) (vchan) (idrAlloc : Int32) (payloadCount : UInt32)

@[simp] theorem memProto_habmemAddExport :
    (s.habmemAddExport vchan idrAlloc payloadCount).vm.memProto = s.vm.memProto := by
  simp only [habmemAddExport]
  split <;> rfl

@[simp] theorem ctx_habmemAddExport :
    (s.habmemAddExport vchan idrAlloc payloadCount).vm.ctx = s.vm.ctx := by
  simp only [habmemAddExport]
  split <;> rfl

theorem expidIdr_habmemAddExport :
    (s.habmemAddExport vchan idrAlloc payloadCount).vm.expidIdr =
      if 0 < idrAlloc then
        (s.vm.setIdr vchan.pchan idrAlloc.toUInt32 (some s.vm.nextDesc)).expidIdr
      else s.vm.expidIdr := by
  simp only [habmemAddExport]
  split <;> rfl

theorem exportId_habmemAddExport :
    ((s.habmemAddExport vchan idrAlloc payloadCount).vm.desc s.vm.nextDesc).exportId =
      idrAlloc.toUInt32 := by
  simp only [habmemAddExport]
  split <;> simp [ExportVm.habmemAddExport, ExportVm.setDesc, ExportVm.setLog, ExportVm.setIdr]

end Added

/-- Removing the entry again leaves the table as it was. -/
theorem expidIdr_idrRemove (hfree : s.vm.expidIdr vchan.pchan env.idrAlloc.toUInt32 = none)
    (payloadCount : UInt32) :
    (((s.habmemAddExport vchan env.idrAlloc payloadCount).vm.idrRemove vchan.pchan
      s.vm.nextDesc).destroy s.vm.nextDesc).expidIdr = s.vm.expidIdr := by
  have hself : Function.update s.vm.expidIdr vchan.pchan
      (Function.update (s.vm.expidIdr vchan.pchan) env.idrAlloc.toUInt32 none) =
        s.vm.expidIdr := by
    rw [← hfree, Function.update_eq_self, Function.update_eq_self]
  change ((s.habmemAddExport vchan env.idrAlloc payloadCount).vm.setIdr vchan.pchan
    ((s.habmemAddExport vchan env.idrAlloc payloadCount).vm.desc s.vm.nextDesc).exportId
      none).expidIdr = s.vm.expidIdr
  rw [exportId_habmemAddExport]
  simp only [ExportVm.setIdr, expidIdr_habmemAddExport]
  split
  next => simpa using hself
  next => exact hself

/-! ## The descriptor -/

/-- The unwinding of `habmem_add_export_compress` gives everything back. -/
theorem unwindExport_added (hfree : s.vm.expidIdr vchan.pchan env.idrAlloc.toUInt32 = none)
    (b : ℕ) (payloadCount : UInt32) (ret : ℤ) :
    (∃ t, ((s.dmaBufGet b).habmemAddExport vchan env.idrAlloc payloadCount).unwindExport vchan
      s.vm.nextDesc b ret = some (ret, 0, 0, t) ∧ Unchanged s t ∧
        s.vm.memProto vchan.pchan = true) ∨
      ((s.dmaBufGet b).habmemAddExport vchan env.idrAlloc payloadCount).unwindExport vchan
        s.vm.nextDesc b ret = none ∧ s.vm.memProto vchan.pchan = false := by
  rw [unwindExport, memProto_habmemAddExport]
  cases hproto : s.vm.memProto vchan.pchan with
  | false => exact .inr ⟨if_neg (by simp [dmaBufGet, hproto]), rfl⟩
  | true =>
      refine .inl ⟨_, if_pos hproto, ⟨?_, ?_, ?_⟩, rfl⟩
      · exact expidIdr_idrRemove (s := s.dmaBufGet b) hfree payloadCount
      · exact ctx_habmemAddExport (s.dmaBufGet b) vchan env.idrAlloc payloadCount
      · exact dmaRefs_get_put s b

/-! ## The export message -/

omit [DecidableEq π] in
theorem linked_of_linkExport {vm : ExportVm π} (h : vm.ctx = s.vm.ctx) (c : ℕ)
    (refs : ℕ → ℤ) :
    Linked s ⟨(vm.linkExport c s.vm.nextDesc).publishExport s.vm.nextDesc, refs⟩ (some c) := by
  refine ⟨c, rfl, ?_, ?_⟩
  · simp [ExportVm.linkExport, ExportVm.publishExport, ExportVm.setCtx, ExportVm.setDesc, h]
  · simp [ExportVm.publishExport, ExportVm.setDesc]

/-- With the grant done, only a call that goes through to the end is clean. -/
theorem allOrNothing_habmemExportVchan
    (hfree : s.vm.expidIdr vchan.pchan env.idrAlloc.toUInt32 = none)
    (b : ℕ) (payloadCount payloadSize id : UInt32) {ret : ℤ} {u : ExportHost π}
    (h : ((s.dmaBufGet b).habmemAddExport vchan env.idrAlloc payloadCount).habmemExportVchan c
      vchan payloadSize env.idrAlloc.toUInt32 env = (ret, u)) :
    AllOrNothing s (some c) (some (ret, id, u)) ↔
      Finishes env (s.vm.memProto vchan.pchan) payloadSize := by
  generalize ht : (s.dmaBufGet b).habmemAddExport vchan env.idrAlloc payloadCount = t at h
  have hchanged : ¬ Unchanged s t := by
    subst ht
    exact fun hsame ↦ dmaRefs_get_ne s b hsame.dmaRefs
  have hctx : t.vm.ctx = s.vm.ctx := by
    subst ht
    exact ctx_habmemAddExport (s.dmaBufGet b) vchan env.idrAlloc payloadCount
  have hproto : t.vm.memProto = s.vm.memProto := by
    subst ht
    exact memProto_habmemAddExport (s.dmaBufGet b) vchan env.idrAlloc payloadCount
  have hentry : t.vm.expidIdr vchan.pchan env.idrAlloc.toUInt32 =
      if 0 < env.idrAlloc then some s.vm.nextDesc else none := by
    subst ht
    rw [expidIdr_habmemAddExport]
    split
    next => simp [ExportVm.setIdr, dmaBufGet]
    next => exact hfree
  have hlinked := linked_of_linkExport hctx c t.dmaRefs
  rw [habmemExportVchan] at h
  split at h
  next hlarge =>
    cases h
    refine iff_of_false (not_allOrNothing (by decide) id hchanged) ?_
    rintro ⟨hfits, -, -⟩
    rw [hlarge] at hfits
    cases hfits
  next hlarge =>
    have hfits : tooLarge payloadSize = false := by simpa using hlarge
    rw [hentry] at h
    by_cases hid : 0 < env.idrAlloc
    · rw [if_pos hid, hproto] at h
      dsimp only at h
      cases hnew : s.vm.memProto vchan.pchan with
      | true =>
          rw [hnew, if_pos rfl] at h
          cases h
          have hfinishes : Finishes env true payloadSize ↔ env.uninit = 0 := by
            simp [Finishes, hfits, hid]
          rw [hfinishes]
          constructor
          · rintro ⟨ret', id', t', heq, hret, -⟩
            cases heq
            exact hret.mpr hlinked
          · intro hzero
            exact ⟨env.uninit, id, _, rfl, iff_of_true hzero hlinked, fun hne ↦ absurd hzero hne⟩
      | false =>
          rw [hnew, if_neg Bool.false_ne_true] at h
          have hfinishes : Finishes env false payloadSize ↔
              env.physicalChannelSend = 0 ∧ env.ackWait = 0 := by
            simp [Finishes, hfits, hid]
          rw [hfinishes]
          split at h
          next hsend =>
            cases h
            exact iff_of_false (not_allOrNothing hsend id hchanged) fun hdone ↦ hsend hdone.1
          next hsend =>
            split at h
            next hack =>
              cases h
              exact iff_of_false (not_allOrNothing hack id hchanged) fun hdone ↦ hack hdone.2
            next hack =>
              cases h
              refine iff_of_true ?_ ⟨not_not.mp hsend, not_not.mp hack⟩
              have hlocal : (t.vm.setLocal vchan c s.vm.nextDesc).ctx = s.vm.ctx := hctx
              exact ⟨0, id, _, rfl, iff_of_true rfl (linked_of_linkExport hlocal c t.dmaRefs),
                fun hne ↦ absurd rfl hne⟩
    · rw [if_neg hid] at h
      cases h
      exact iff_of_false (not_allOrNothing (by decide) id hchanged) fun hdone ↦ hid hdone.2.1

/-! ## The call -/

omit [DecidableEq π] in
theorem not_allOrNothing_none (s : ExportHost π) (ctx : Option ℕ) :
    ¬ AllOrNothing s ctx none := by
  rintro ⟨ret, id, t, heq, -⟩
  cases heq

theorem allOrNothing_unwindExport
    (hfree : s.vm.expidIdr vchan.pchan env.idrAlloc.toUInt32 = none)
    (b : ℕ) (payloadCount : UInt32) {ret : ℤ} (hret : ret < 0) :
    AllOrNothing s (some c) (afterGrant c vchan env
      (((s.dmaBufGet b).habmemAddExport vchan env.idrAlloc payloadCount).unwindExport vchan
        s.vm.nextDesc b ret)) ↔ s.vm.memProto vchan.pchan = true := by
  rcases unwindExport_added hfree b payloadCount ret with ⟨t, hunwind, hsame, hproto⟩ |
    ⟨hunwind, hproto⟩
  · rw [hunwind, afterGrant, if_pos hret]
    exact iff_of_true (allOrNothing_of_error (Int.ne_of_lt hret) 0 hsame) hproto
  · rw [hunwind, afterGrant, hproto]
    exact iff_of_false (not_allOrNothing_none s _) Bool.false_ne_true

theorem allOrNothing_addExportCompress
    (hfree : s.vm.expidIdr vchan.pchan env.idrAlloc.toUInt32 = none) (b : GrantedBuf)
    (offset : UInt64) (pageCount : Int32) :
    AllOrNothing s (some c) (afterGrant c vchan env
      ((s.dmaBufGet b.addr).habmemAddExportCompress vchan offset pageCount b env)) ↔
      (env.vzalloc = true →
        CleanFrom env (s.vm.memProto vchan.pchan) b offset pageCount) := by
  rw [habmemAddExportCompress]
  cases hvzalloc : env.vzalloc with
  | false =>
      rw [if_pos (by rfl), afterGrant, if_pos (by decide)]
      refine iff_of_true (allOrNothing_of_error (by decide) 0 ⟨rfl, rfl, ?_⟩) (by simp)
      exact dmaRefs_get_put s b.addr
  | true =>
      rw [if_neg (by simp), CleanFrom]
      simp only [forall_const]
      cases hplatform : env.platformData with
      | false =>
          rw [Bool.not_false, if_pos rfl]
          exact iff_of_false (not_allOrNothing_none s _) id
      | true =>
          rw [Bool.not_true, if_neg Bool.false_ne_true]
          cases hpfns : habmemCompressPfns b.buf offset pageCount env.mapped with
          | some pfns =>
              dsimp only
              rw [afterGrant, if_neg (by decide)]
              exact allOrNothing_habmemExportVchan hfree b.addr _ _ _ rfl
          | none =>
              cases hbuf : b.buf with
              | «foreign» sgTable =>
                  exact allOrNothing_unwindExport hfree b.addr _ (by decide)
              | own pages => exact iff_of_false (not_allOrNothing_none s _) id

/-- A grant fails before it has touched anything, or goes on with a dma-buf. -/
theorem grant_cases (s : ExportHost π) (vchan : ExportVchan π) (pageCount : Int32)
    (flags : UInt32) (kernel : Bool) (env : ExportEnv) :
    (granted flags kernel env = none ∧ ∃ ret < 0,
      (if kernel then s.habmemHypGrant vchan pageCount flags env
        else s.habmemHypGrantUser vchan pageCount flags env) = some (ret, 0, 0, s)) ∨
      ∃ b offset, granted flags kernel env = some (b, offset) ∧
        (if kernel then s.habmemHypGrant vchan pageCount flags env
          else s.habmemHypGrantUser vchan pageCount flags env) =
            (s.dmaBufGet b.addr).habmemAddExportCompress vchan offset pageCount b env := by
  cases kernel with
  | true =>
      simp only [granted, habmemHypGrant, if_true]
      split
      next => exact .inl ⟨rfl, Errno.enomem.ret, by decide, rfl⟩
      next =>
        cases env.dmabuf with
        | none => exact .inl ⟨rfl, Errno.einval.ret, by decide, rfl⟩
        | some b => exact .inr ⟨b, 0, rfl, rfl⟩
  | false =>
      simp only [granted, habmemHypGrantUser, Bool.false_eq_true, if_false]
      cases env.dmabuf with
      | none => exact .inl ⟨rfl, Errno.einval.ret, by decide, rfl⟩
      | some b => exact .inr ⟨b, _, rfl, rfl⟩

/-- `hab_mem_export` is all or nothing exactly for the calls that meet the condition. -/
theorem allOrNothing_iff (s : ExportHost π) (ctx : Option ℕ) (param : Option HabExport)
    (kernel : Bool) (env : ExportEnv)
    (hidr : FreshId s ctx param env) :
    AllOrNothing s ctx (s.habMemExport ctx param kernel env) ↔ Clean s ctx param kernel env := by
  cases ctx with
  | none =>
      have herror : Errno.einval.ret ≠ 0 := by decide
      refine iff_of_true (allOrNothing_of_error herror 0 (.refl s)) ?_
      rintro c p vchan b offset ⟨⟩
  | some c =>
      unfold habMemExport
      cases hparam : param.filter HabExport.valid with
      | none =>
          have herror : Errno.einval.ret ≠ 0 := by decide
          refine iff_of_true (allOrNothing_of_error herror 0 (.refl s)) ?_
          rintro c' p vchan b offset - rfl hvalid
          simp [Option.filter, hvalid] at hparam
      | some p =>
          obtain ⟨rfl, hvalid⟩ := Option.filter_eq_some_iff.mp hparam
          cases hvchan : s.vm.getVchan c p.vchan with
          | none =>
              have herror : Errno.enodev.ret ≠ 0 := by decide
              simp only [hvchan]
              refine iff_of_true (allOrNothing_of_error herror 0 (.refl s)) ?_
              rintro c' p' vchan b offset ⟨⟩ ⟨⟩ - hget
              rw [hvchan] at hget
              cases hget
          | some vchan =>
              simp only [hvchan]
              rcases grant_cases s vchan p.pageCount p.flags kernel env with
                ⟨hnone, ret, hret, hgrant⟩ | ⟨b, offset, hsome, hgrant⟩
              · rw [hgrant, afterGrant, if_pos hret]
                refine iff_of_true (allOrNothing_of_error (Int.ne_of_lt hret) 0 (.refl s)) ?_
                rintro c' p' vchan' b offset ⟨⟩ ⟨⟩ - - hgranted
                rw [hnone] at hgranted
                cases hgranted
              · rw [hgrant, allOrNothing_addExportCompress (hidr c p vchan rfl rfl hvchan)]
                constructor
                · rintro hclean c' p' vchan' b' offset' ⟨⟩ ⟨⟩ - hget hgranted hvzalloc
                  rw [hvchan] at hget
                  rw [hsome] at hgranted
                  cases hget
                  cases hgranted
                  exact hclean hvzalloc
                · intro hclean hvzalloc
                  exact hclean c p vchan b offset rfl rfl hvalid hvchan hsome hvzalloc

/-- A context with one vchan on a pchan of the legacy protocol. -/
def legacyHost : ExportHost Unit where
  vm :=
    { ExportVm.start fun _ ↦ false with
      ctx := fun _ ↦ ⟨true, [], 0⟩
      vchans := [⟨1, 7, ()⟩] }
  dmaRefs := fun _ ↦ 0

/-- One page of a dma-buf of the driver's own. -/
def onePage : HabExport := ⟨3, 1, 4096, expimpFlagsFd⟩

/-- Nothing fails but, perhaps, the send. -/
def sendReturns (ret : ℤ) : ExportEnv where
  pagesAlloc := true
  dmabuf := some ⟨0, .own [512], 0⟩
  vzalloc := true
  idrAlloc := 1
  platformData := true
  mapped := true
  physicalChannelSend := ret
  ackWait := 0
  uninit := 0

theorem freshId_legacyHost (param : Option HabExport) (env : ExportEnv) :
    FreshId legacyHost (some 7) param env := fun _ _ _ _ _ _ ↦ rfl

theorem allOrNothing_iff_onePage :
    (AllOrNothing legacyHost (some 7)
      (legacyHost.habMemExport (some 7) (some onePage) false (sendReturns 0)) ↔
        Clean legacyHost (some 7) (some onePage) false (sendReturns 0)) ∧
      Clean legacyHost (some 7) (some onePage) false (sendReturns 0) := by
  refine ⟨allOrNothing_iff legacyHost (some 7) (some onePage) false (sendReturns 0)
    (freshId_legacyHost _ _), ?_⟩
  rintro c p vchan b offset ⟨⟩ ⟨⟩ - hvchan hgranted -
  cases hvchan
  cases hgranted
  exact ⟨by decide, by decide, rfl, rfl⟩

/-- The peer's queue is full: the descriptor keeps its id and its dma-buf. -/
theorem not_forall_allOrNothing :
    ¬ ∀ (s : ExportHost Unit) (ctx : Option ℕ) (param : Option HabExport) (kernel : Bool)
      (env : ExportEnv), FreshId s ctx param env →
        AllOrNothing s ctx (s.habMemExport ctx param kernel env) := by
  intro h
  obtain ⟨ret, id, t, heq, -, hunchanged⟩ :=
    h legacyHost (some 7) (some onePage) false (sendReturns (-11)) (freshId_legacyHost _ _)
  have hseen : (legacyHost.habMemExport (some 7) (some onePage) false (sendReturns (-11))).map
      (fun r ↦ (r.1, r.2.2.dmaRefs 0)) = some (-11, 1) := by
    decide
  rw [heq, Option.map_some, Option.some.injEq, Prod.mk.injEq] at hseen
  obtain ⟨hret, hrefs⟩ := hseen
  have hsame := (hunchanged (by omega)).dmaRefs
  rw [hsame] at hrefs
  exact absurd hrefs (by decide)

end ExportHost

end Hab
