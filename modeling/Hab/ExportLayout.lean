import Hab.Library.Bytes
import Hab.Import

/-!
# Export descriptors as bytes (`hab.h`, `hab_grantable.h`)

`struct export_desc` is packed and goes over the wire as it lies in memory,
with the table of its pages as the payload.  An `int` has 32 bits, a pointer and
an `unsigned long` have 64.
-/

namespace Hab

/-- The `int` with these 32 bits. -/
def wordInt (w : ℕ) : Int32 := (UInt32.ofNat w).toInt32

/-- `struct export_desc`, with its pointers as addresses. -/
structure RawExportDesc where
  exportId : UInt32
  readonly : Int32
  importIndex : UInt64
  vchan : UInt64
  ctx : UInt64
  pchan : UInt64
  vcidLocal : UInt32
  vcidRemote : UInt32
  domidLocal : Int32
  domidRemote : Int32
  flags : Int32
  nodeNext : UInt64
  nodePrev : UInt64
  kva : UInt64
  payloadCount : Int32
  payload : List UInt8
deriving DecidableEq

structure Region where
  size : Int32
  space : Int32
deriving DecidableEq

/-- `struct compressed_pfns`, with `nregions` as the code has set it. -/
structure CompressedPfns where
  firstPfn : UInt64
  nregions : Int32
  region : List Region
deriving DecidableEq

/-- `offsetof(struct export_desc, payload)`. -/
def payloadOffset : ℕ := 88

/-- `offsetof(struct compressed_pfns, nregions)`. -/
def nregionsOffset : ℕ := 8

/-- `offsetof(struct compressed_pfns, region)`. -/
def regionOffset : ℕ := 12

namespace RawExportDesc

/-- The fields before the payload, with their widths. -/
def fields (d : RawExportDesc) : List (ℕ × ℕ) :=
  [(4, d.exportId.toNat), (4, d.readonly.toUInt32.toNat), (8, d.importIndex.toNat),
    (8, d.vchan.toNat), (8, d.ctx.toNat), (8, d.pchan.toNat), (4, d.vcidLocal.toNat),
    (4, d.vcidRemote.toNat), (4, d.domidLocal.toUInt32.toNat),
    (4, d.domidRemote.toUInt32.toNat), (4, d.flags.toUInt32.toNat), (8, d.nodeNext.toNat),
    (8, d.nodePrev.toNat), (8, d.kva.toNat), (4, d.payloadCount.toUInt32.toNat)]

def widths : List ℕ := [4, 4, 8, 8, 8, 8, 4, 4, 4, 4, 4, 8, 8, 8, 4]

def bytes (d : RawExportDesc) : List UInt8 := Bytes.layout d.fields ++ d.payload

/-- The descriptor at the start of a block. -/
def ofBytes (mem : List UInt8) : Option RawExportDesc := do
  let exportId ← Bytes.word mem 0 4
  let readonly ← Bytes.word mem 4 4
  let importIndex ← Bytes.word mem 8 8
  let vchan ← Bytes.word mem 16 8
  let ctx ← Bytes.word mem 24 8
  let pchan ← Bytes.word mem 32 8
  let vcidLocal ← Bytes.word mem 40 4
  let vcidRemote ← Bytes.word mem 44 4
  let domidLocal ← Bytes.word mem 48 4
  let domidRemote ← Bytes.word mem 52 4
  let flags ← Bytes.word mem 56 4
  let nodeNext ← Bytes.word mem 60 8
  let nodePrev ← Bytes.word mem 68 8
  let kva ← Bytes.word mem 76 8
  let payloadCount ← Bytes.word mem 84 4
  some
    { exportId := UInt32.ofNat exportId
      readonly := wordInt readonly
      importIndex := UInt64.ofNat importIndex
      vchan := UInt64.ofNat vchan
      ctx := UInt64.ofNat ctx
      pchan := UInt64.ofNat pchan
      vcidLocal := UInt32.ofNat vcidLocal
      vcidRemote := UInt32.ofNat vcidRemote
      domidLocal := wordInt domidLocal
      domidRemote := wordInt domidRemote
      flags := wordInt flags
      nodeNext := UInt64.ofNat nodeNext
      nodePrev := UInt64.ofNat nodePrev
      kva := UInt64.ofNat kva
      payloadCount := wordInt payloadCount
      payload := mem.drop payloadOffset }

end RawExportDesc

/-- What `hab_receive_export_desc` reads of a message that has arrived in full. -/
def ExportMsg.ofBytes (mem : List UInt8) : ExportMsg where
  sizebytes := mem.length
  exportId := UInt32.ofNat ((Bytes.word mem 0 4).getD 0)
  vcidLocal := UInt32.ofNat ((Bytes.word mem 40 4).getD 0)
  vcidRemote := UInt32.ofNat ((Bytes.word mem 44 4).getD 0)
  payloadCount := (wordInt ((Bytes.word mem 84 4).getD 0)).toInt
  nregions := (wordInt ((Bytes.word mem (payloadOffset + nregionsOffset) 4).getD 0)).toInt

/-- `struct region` as it lies in memory. -/
def Region.fields (r : Region) : List (ℕ × ℕ) :=
  [(4, r.size.toUInt32.toNat), (4, r.space.toUInt32.toNat)]

namespace CompressedPfns

def fields (pfns : CompressedPfns) : List (ℕ × ℕ) :=
  (8, pfns.firstPfn.toNat) :: (4, pfns.nregions.toUInt32.toNat) ::
    pfns.region.flatMap Region.fields

def bytes (pfns : CompressedPfns) : List UInt8 := Bytes.layout pfns.fields

end CompressedPfns

/-! ## Round trips -/

@[simp] theorem wordInt_toNat_toUInt32 (x : Int32) : wordInt x.toUInt32.toNat = x := by
  rw [wordInt, UInt32.ofNat_toNat]
  rfl

namespace RawExportDesc

theorem map_fst_fields (d : RawExportDesc) : d.fields.map Prod.fst = widths := rfl

@[simp] theorem size_fields (d : RawExportDesc) : Bytes.size d.fields = payloadOffset := by
  rw [Bytes.size, map_fst_fields]
  rfl

theorem length_layout_fields (d : RawExportDesc) :
    (Bytes.layout d.fields).length = payloadOffset := by
  rw [Bytes.length_layout, size_fields]

theorem length_bytes (d : RawExportDesc) : d.bytes.length = payloadOffset + d.payload.length := by
  rw [bytes, List.length_append, length_layout_fields]

theorem drop_bytes (d : RawExportDesc) : d.bytes.drop payloadOffset = d.payload :=
  List.drop_left' (length_layout_fields d)

/-- Every value fits the width of its field. -/
theorem fields_lt (d : RawExportDesc) : ∀ f ∈ d.fields, f.2 < 256 ^ f.1 := by
  simp only [fields, List.forall_mem_cons]
  refine ⟨d.exportId.toNat_lt, d.readonly.toUInt32.toNat_lt, d.importIndex.toNat_lt,
    d.vchan.toNat_lt, d.ctx.toNat_lt, d.pchan.toNat_lt, d.vcidLocal.toNat_lt,
    d.vcidRemote.toNat_lt, d.domidLocal.toUInt32.toNat_lt, d.domidRemote.toUInt32.toNat_lt,
    d.flags.toUInt32.toNat_lt, d.nodeNext.toNat_lt, d.nodePrev.toNat_lt, d.kva.toNat_lt,
    d.payloadCount.toUInt32.toNat_lt, ?_⟩
  simp

/-- The word at the place of a field. -/
theorem word_bytes (d : RawExportDesc) (i off : ℕ) {w n : ℕ} (h : d.fields[i]? = some (w, n))
    (hoff : (widths.take i).sum = off) : Bytes.word d.bytes off w = some n := by
  have hlt : n < 256 ^ w := d.fields_lt (w, n) (List.mem_of_getElem? h)
  have hsize : Bytes.size (d.fields.take i) = off := by
    rw [Bytes.size, List.map_take, map_fst_fields, hoff]
  rw [← hsize, ← Nat.mod_eq_of_lt hlt]
  exact Bytes.word_layout h d.payload

/-- A descriptor is read back as it was written. -/
theorem ofBytes_bytes (d : RawExportDesc) : ofBytes d.bytes = some d := by
  rw [ofBytes, d.word_bytes 0 0 rfl rfl, d.word_bytes 1 4 rfl rfl, d.word_bytes 2 8 rfl rfl,
    d.word_bytes 3 16 rfl rfl, d.word_bytes 4 24 rfl rfl, d.word_bytes 5 32 rfl rfl,
    d.word_bytes 6 40 rfl rfl, d.word_bytes 7 44 rfl rfl, d.word_bytes 8 48 rfl rfl,
    d.word_bytes 9 52 rfl rfl, d.word_bytes 10 56 rfl rfl, d.word_bytes 11 60 rfl rfl,
    d.word_bytes 12 68 rfl rfl, d.word_bytes 13 76 rfl rfl, d.word_bytes 14 84 rfl rfl,
    d.drop_bytes]
  simp

end RawExportDesc

end Hab
