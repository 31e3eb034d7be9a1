import Mathlib.Data.List.ModifyLast
import Hab.PagesList
import Hab.Export

/-!
# Building an export descriptor (`hab_mem_linux.c`, `hab_mimex.c`)

`habmem_compress_pfns` writes the frames of a buffer as a table of regions into
the payload of a descriptor that `habmem_add_export` has made.  A page is known by
its frame number, and `nth_page` counts frames.
-/

namespace Hab

/-- `struct scatterlist`. -/
structure ScatterEntry where
  pfn : UInt64
  length : UInt32

/-- `struct dma_buf`: of another driver, with its table once it is mapped, or one
of the driver's own, with its page array. -/
inductive DmaBuf where
  | foreign (sgTable : List ScatterEntry)
  | own (pages : List UInt64)

/-- A value of type `unsigned long` put into an `int`. -/
def truncInt (x : UInt64) : Int32 := x.toUInt32.toInt32

/-! ## Compressing the page list -/

/-- The variables of the loop over a scatter table. -/
structure ScatterLoop where
  pageOffset : UInt64
  pageCount : Int32
  prePfn : UInt64
  firstPfn : UInt64
  /-- The regions before `region[j]`. -/
  region : List Region

/-- `pfns->region[j-1].space = space`. -/
def setLastSpace (space : Int32) (region : List Region) : List Region :=
  region.modifyLast fun r ↦ { r with space := space }

/-- The branch of `habmem_compress_pfns` for a mapped scatter table.  If the table ends
too early, the last region is as `vzalloc` has left it. -/
def compressSgTable : List ScatterEntry → ScatterLoop → CompressedPfns
  | [], s => ⟨s.firstPfn, Int32.ofNat (s.region.length + 1), s.region ++ [⟨0, 0⟩]⟩
  | entry :: rest, s =>
      let spageSize := (entry.length >>> 12).toUInt64
      if spageSize ≤ s.pageOffset then
        compressSgTable rest { s with pageOffset := s.pageOffset - spageSize }
      else
        let firstPfn := if s.region.isEmpty then entry.pfn + s.pageOffset else s.firstPfn
        let region := setLastSpace (truncInt (entry.pfn - s.prePfn - 1)) s.region
        let size := truncInt (spageSize - s.pageOffset)
        if s.pageCount ≤ size then
          ⟨firstPfn, Int32.ofNat (region.length + 1), region ++ [⟨s.pageCount, 0⟩]⟩
        else
          compressSgTable rest
            { pageOffset := 0
              pageCount := s.pageCount - size
              prePfn := entry.pfn + (size - 1).toInt64.toUInt64
              firstPfn := firstPfn
              region := region ++ [⟨size, 0⟩] }

/-- The branch of `habmem_compress_pfns` for a page array: the regions from the page
`prev` on, which is the last of `regionSize` pages in a row. -/
def compressPages (prev : UInt64) (regionSize : Int32) : List UInt64 → List Region
  | [] => [⟨regionSize, 0⟩]
  | page :: rest =>
      if page - 1 = prev then compressPages page (regionSize + 1) rest
      else ⟨regionSize, truncInt (page - prev - 1)⟩ :: compressPages page 1 rest

/-- `habmem_compress_pfns`, without a result where a foreign buffer cannot be mapped or
an array is shorter than `page_count`. -/
def habmemCompressPfns (buf : DmaBuf) (offset : UInt64) (pageCount : Int32) (mapped : Bool) :
    Option CompressedPfns :=
  match buf with
  | .foreign sgTable =>
      if mapped then some (compressSgTable sgTable ⟨offset >>> 12, pageCount, 0, 0, []⟩) else none
  | .own pages =>
      match pages.take pageCount.toInt.toNat with
      | [] => none
      | page :: rest =>
          if pages.length < pageCount.toInt.toNat then none
          else
            let region := compressPages page 1 rest
            some ⟨page, Int32.ofNat region.length, region⟩

/-- `*data_size`, as the caller gets it. -/
def CompressedPfns.dataSize (pfns : CompressedPfns) : UInt32 :=
  16 + 8 * pfns.nregions.toUInt32

/-! ## The descriptor -/

/-- The fields of `struct export_desc_super` that the messages depend on. -/
structure RawExportSuper where
  payloadSize : UInt32
  expState : ExportState
  remoteImported : Bool
  exp : RawExportDesc

/-- What an exporting vchan puts into a descriptor: its address and id, and what it
knows of its context and its pchan. -/
structure ExporterVchan where
  addr : UInt64
  ctx : UInt64
  pchan : UInt64
  id : UInt32
  otherendId : UInt32
  vmidLocal : Int32
  vmidRemote : Int32
  memProto : Bool

/-- `sizeof(struct export_desc_super)`. -/
def exportDescSuperSize : ℕ := 160

/-- `offsetof(struct export_desc_super, exp)`. -/
def expOffset : ℕ := 64

/-- `habmem_add_export`, once `vzalloc` and `idr_alloc_cyclic` have succeeded. -/
def rawAddExport (vchan : ExporterVchan) (sizebytes : ℕ) (flags : Int32) (id : UInt32) :
    RawExportSuper where
  payloadSize := 0
  expState := .exporting
  remoteImported := false
  exp :=
    { exportId := id
      readonly := flags
      importIndex := 0
      vchan := if vchan.memProto then vchan.addr else 0
      ctx := if vchan.memProto then vchan.ctx else 0
      pchan := if vchan.memProto then vchan.pchan else 0
      vcidLocal := vchan.id
      vcidRemote := vchan.otherendId
      domidLocal := vchan.vmidLocal
      domidRemote := vchan.vmidRemote
      flags := 0
      nodeNext := 0
      nodePrev := 0
      kva := 0
      payloadCount := 0
      payload := List.replicate (sizebytes - expOffset - payloadOffset) 0 }

/-- Write a page table to the start of the payload. -/
def RawExportDesc.writePfns (d : RawExportDesc) (pfns : CompressedPfns) : RawExportDesc :=
  { d with payload := pfns.bytes ++ d.payload.drop pfns.bytes.length }

/-- `habmem_add_export_compress`, where it succeeds: the descriptor and the payload size
it returns. -/
def habmemAddExportCompress (vchan : ExporterVchan) (buf : DmaBuf) (offset : UInt64)
    (pageCount flags : Int32) (id : UInt32) (mapped : Bool) : Option (RawExportSuper × UInt32) := do
  let sizebytes := exportDescSuperSize + 16 + pageCount.toInt.toNat * regionSize
  let super := rawAddExport vchan sizebytes flags id
  let exp := { super.exp with payloadCount := pageCount }
  let pfns ← habmemCompressPfns buf offset pageCount mapped
  some ({ super with exp := exp.writePfns pfns }, pfns.dataSize)

/-- The end of `habmem_export_vchan`, with the neighbours on `exp_whse` that the
descriptor has at some time after it.  There is none if the descriptor is too large. -/
def habmemExportVchan (super : RawExportSuper) (payloadSize : UInt32) (nodeNext nodePrev : UInt64) :
    Option RawExportSuper :=
  if habHeaderSizeMax < (UInt32.ofNat 89 + payloadSize).toNat then none
  else some
    { super with
      expState := .success
      exp := { super.exp with nodeNext := nodeNext, nodePrev := nodePrev } }

/-- `sizeof(struct export_desc)`. -/
def exportDescSize : ℕ := 89

/-- What `hab_send_import_ack` hands to `physical_channel_send`. -/
def RawExportSuper.importAck (super : RawExportSuper) : List UInt8 :=
  ({ super.exp with pchan := 0, vchan := 0, ctx := 0 } : RawExportDesc).bytes.take
    (exportDescSize + super.payloadSize.toNat)

end Hab
