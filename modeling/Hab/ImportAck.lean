import Hab.Compress

/-!
# The IMPORT_ACK that carries an export

`hab_send_import_ack` takes the size of the page table from
`exp_super->payload_size`.  No code writes that field, so the message ends before the
page table and the importer refuses it.
-/

namespace Hab

/-! ## Tables of regions -/

theorem readRegions_layout (rest : List UInt8) {regions : List Region} {pre : List UInt8} {i : ℕ}
    (hpre : pre.length = regionOffset + regionSize * i) :
    readRegions (pre ++ (Bytes.layout (regions.flatMap Region.fields) ++ rest)) regions.length i =
      some regions := by
  induction regions generalizing pre i with
  | nil => rfl
  | cons r regions ih =>
      have hsplit : Bytes.layout ((r :: regions).flatMap Region.fields) ++ rest =
          Bytes.encode 4 r.size.toUInt32.toNat ++ (Bytes.encode 4 r.space.toUInt32.toNat ++
            (Bytes.layout (regions.flatMap Region.fields) ++ rest)) := by
        rw [List.flatMap_cons, Bytes.layout_append]
        simp [Region.fields, List.append_assoc]
      have hsize : Bytes.word (pre ++ (Bytes.layout ((r :: regions).flatMap Region.fields) ++ rest))
          (regionOffset + regionSize * i) 4 = some r.size.toUInt32.toNat := by
        rw [hsplit, ← hpre]
        exact Bytes.word_append_of_lt _ _ r.size.toUInt32.toNat_lt
      have hspace : Bytes.word (pre ++ (Bytes.layout ((r :: regions).flatMap Region.fields) ++ rest))
          (regionOffset + regionSize * i + 4) 4 = some r.space.toUInt32.toNat := by
        have hlen : (pre ++ Bytes.encode 4 r.size.toUInt32.toNat).length =
            regionOffset + regionSize * i + 4 := by
          rw [List.length_append, Bytes.length_encode, hpre]
        rw [hsplit, ← List.append_assoc pre, ← hlen]
        exact Bytes.word_append_of_lt _ _ r.space.toUInt32.toNat_lt
      have hregion : readRegion (pre ++ (Bytes.layout ((r :: regions).flatMap Region.fields) ++ rest))
          i = some r := by
        rw [readRegion, hsize, hspace]
        simp only [Option.bind_eq_bind, Option.bind_some, wordInt_toNat_toUInt32]
      have hnext := @ih (pre ++ (Bytes.encode 4 r.size.toUInt32.toNat ++
        Bytes.encode 4 r.space.toUInt32.toNat)) (i + 1) (by
          rw [List.length_append, List.length_append, Bytes.length_encode, Bytes.length_encode,
            hpre, regionSize]
          omega)
      rw [List.length_cons, readRegions, hregion, Option.bind_eq_bind, Option.bind_some]
      rw [List.append_assoc, List.append_assoc, ← hsplit] at hnext
      rw [hnext]
      rfl

/-- The table of a descriptor says how many regions it has, and these are not more than
its pages. -/
structure CompressedPfns.Fits (pfns : CompressedPfns) (pageCount : ℕ) : Prop where
  nregions : pfns.nregions = Int32.ofNat pfns.region.length
  pos : 1 ≤ pfns.region.length
  le : pfns.region.length ≤ pageCount

theorem word_nregions (pfns : CompressedPfns) (rest : List UInt8) :
    Bytes.word (pfns.bytes ++ rest) nregionsOffset 4 = some pfns.nregions.toUInt32.toNat := by
  have hlen : (Bytes.encode 8 pfns.firstPfn.toNat).length = nregionsOffset :=
    Bytes.length_encode _ _
  rw [CompressedPfns.bytes, CompressedPfns.fields, Bytes.layout_cons, Bytes.layout_cons,
    List.append_assoc, List.append_assoc, ← hlen]
  exact Bytes.word_append_of_lt _ _ pfns.nregions.toUInt32.toNat_lt

theorem readPfns_bytes {pfns : CompressedPfns} (hn : pfns.nregions = Int32.ofNat pfns.region.length)
    (hlt : pfns.region.length < 2 ^ 31) (rest : List UInt8) :
    readPfns (pfns.bytes ++ rest) = some pfns := by
  have hsplit : pfns.bytes ++ rest =
      (Bytes.encode 8 pfns.firstPfn.toNat ++ Bytes.encode 4 pfns.nregions.toUInt32.toNat) ++
        (Bytes.layout (pfns.region.flatMap Region.fields) ++ rest) := by
    rw [CompressedPfns.bytes, CompressedPfns.fields, Bytes.layout_cons, Bytes.layout_cons]
    simp only [List.append_assoc]
  have hfirst : Bytes.word (pfns.bytes ++ rest) 0 8 = some pfns.firstPfn.toNat := by
    rw [hsplit, List.append_assoc]
    exact Bytes.word_append_of_lt [] _ pfns.firstPfn.toNat_lt
  have hcount : pfns.nregions.toInt.toNat = pfns.region.length := by
    rw [hn, Int32.toInt_ofNat_of_lt hlt, Int.toNat_natCast]
  have hregion : readRegions (pfns.bytes ++ rest) pfns.nregions.toInt.toNat 0 =
      some pfns.region := by
    rw [hsplit, hcount]
    exact readRegions_layout rest (by simp [regionOffset])
  rw [readPfns, hfirst, word_nregions]
  simp only [Option.bind_eq_bind, Option.bind_some, wordInt_toNat_toUInt32, hregion,
    UInt64.ofNat_toNat]

/-! ## The sizes of the tables that are written -/

theorem length_compressPages {pages : List UInt64} {prev : UInt64} {size : Int32} :
    1 ≤ (compressPages prev size pages).length ∧
      (compressPages prev size pages).length ≤ pages.length + 1 := by
  induction pages generalizing prev size with
  | nil => simp [compressPages]
  | cons page rest ih =>
      rw [compressPages]
      split
      · exact ⟨ih.1, Nat.le_succ_of_le ih.2⟩
      · have hrest := @ih page 1
        rw [List.length_cons, List.length_cons]
        omega

theorem toInt_truncInt {x : UInt64} (h : x.toNat < 2 ^ 31) : (truncInt x).toInt = x.toNat := by
  have hword : x.toUInt32 = UInt32.ofNat x.toNat := by
    apply UInt32.toNat_inj.mp
    rw [UInt64.toNat_toUInt32, UInt32.toNat_ofNat']
  have heq : truncInt x = Int32.ofNat x.toNat := by
    rw [truncInt, hword]
    rfl
  rw [heq, Int32.toInt_ofNat_of_lt h]

/-- The pages left of an entry of a scatter table. -/
theorem toInt_spageSize {length : UInt32} {pageOffset : UInt64}
    (h : ¬ (length >>> 12).toUInt64 ≤ pageOffset) :
    1 ≤ (truncInt ((length >>> 12).toUInt64 - pageOffset)).toInt := by
  have hlt : pageOffset < (length >>> 12).toUInt64 := UInt64.not_le.mp h
  have hle : (length >>> 12).toUInt64.toNat < 2 ^ 20 := by
    rw [UInt32.toNat_toUInt64, UInt32.toNat_shiftRight]
    have hlen := length.toNat_lt
    rw [Nat.shiftRight_eq_div_pow]
    exact Nat.div_lt_of_lt_mul hlen
  have hsub : ((length >>> 12).toUInt64 - pageOffset).toNat =
      (length >>> 12).toUInt64.toNat - pageOffset.toNat :=
    UInt64.toNat_sub_of_le _ _ (UInt64.le_of_lt hlt)
  have hpos := UInt64.lt_iff_toNat_lt.mp hlt
  rw [toInt_truncInt (by omega), hsub]
  omega

@[simp] theorem length_setLastSpace (space : Int32) (region : List Region) :
    (setLastSpace space region).length = region.length := by
  rcases List.eq_nil_or_concat region with rfl | ⟨init, last, rfl⟩
  · rfl
  · rw [setLastSpace, List.concat_eq_append, List.modifyLast_concat]
    simp

theorem fits_compressSgTable {table : List ScatterEntry} {s : ScatterLoop} {pageCount : ℕ}
    (hpos : 1 ≤ s.pageCount.toInt) (hle : s.region.length + s.pageCount.toInt ≤ pageCount) :
    (compressSgTable table s).Fits pageCount := by
  induction table generalizing s with
  | nil =>
      refine ⟨?_, ?_, ?_⟩
      · simp [compressSgTable]
      · simp [compressSgTable]
      · simp only [compressSgTable, List.length_append, List.length_singleton]
        omega
  | cons entry rest ih =>
      rw [compressSgTable]
      simp only
      split
      · exact ih hpos hle
      · rename_i hstart
        have hsize := toInt_spageSize hstart
        split
        · refine ⟨?_, ?_, ?_⟩
          · simp
          · simp
          · simp only [List.length_append, List.length_singleton, length_setLastSpace]
            omega
        · rename_i hmore
          have hlt := Int32.lt_iff_toInt_lt.mp (Int32.not_le.mp hmore)
          have hmax := s.pageCount.toInt_lt
          have hsub : ∀ size : Int32, 1 ≤ size.toInt → size.toInt < s.pageCount.toInt →
              (s.pageCount - size).toInt = s.pageCount.toInt - size.toInt := by
            intro size hone hless
            rw [Int32.toInt_sub]
            exact Int.bmod_eq_of_le (by omega) (by omega)
          refine ih ?_ ?_
          · rw [hsub _ hsize hlt]
            omega
          · rw [hsub _ hsize hlt, List.length_append, length_setLastSpace, List.length_singleton]
            omega

/-- `habmem_compress_pfns` writes at least one region and at most one for each page. -/
theorem fits_habmemCompressPfns {buf : DmaBuf} {offset : UInt64} {pageCount : Int32}
    {mapped : Bool} {pfns : CompressedPfns} (hpos : 1 ≤ pageCount.toInt)
    (h : habmemCompressPfns buf offset pageCount mapped = some pfns) :
    pfns.Fits pageCount.toInt.toNat := by
  cases buf with
  | foreign table =>
      rw [habmemCompressPfns] at h
      split at h
      · cases h
        refine fits_compressSgTable hpos ?_
        simp only [List.length_nil]
        omega
      · cases h
  | own pages =>
      rw [habmemCompressPfns] at h
      cases hpages : pages.take pageCount.toInt.toNat with
      | nil =>
          rw [hpages] at h
          cases h
      | cons page rest =>
          rw [hpages] at h
          simp only at h
          split at h
          · cases h
          · cases h
            have hlen : (page :: rest).length ≤ pageCount.toInt.toNat := by
              rw [← hpages]
              exact List.length_take_le _ _
            rw [List.length_cons] at hlen
            obtain ⟨hone, hle⟩ := @length_compressPages rest page 1
            exact ⟨rfl, hone, Nat.le_trans hle hlen⟩

/-! ## What is sent -/

variable {vchan : ExporterVchan} {buf : DmaBuf} {offset : UInt64} {pageCount flags : Int32}
  {id : UInt32} {mapped : Bool} {super exported : RawExportSuper} {payloadSize : UInt32}
  {nodeNext nodePrev : UInt64}

/-- A descriptor as `habmem_add_export_compress` leaves it. -/
theorem habmemAddExportCompress_eq_some
    (h : habmemAddExportCompress vchan buf offset pageCount flags id mapped =
      some (super, payloadSize)) :
    ∃ pfns rest, habmemCompressPfns buf offset pageCount mapped = some pfns ∧
      payloadSize = pfns.dataSize ∧ super.payloadSize = 0 ∧ super.exp.exportId = id ∧
        super.exp.payloadCount = pageCount ∧ super.exp.payload = pfns.bytes ++ rest ∧
          24 + pageCount.toInt.toNat * regionSize ≤ super.exp.payload.length := by
  obtain ⟨pfns, hpfns, h⟩ := Option.bind_eq_some_iff.mp h
  cases h
  refine ⟨pfns, _, hpfns, rfl, rfl, rfl, rfl, rfl, ?_⟩
  simp only [RawExportDesc.writePfns, rawAddExport, List.length_append, List.length_drop,
    List.length_replicate, exportDescSuperSize, expOffset, payloadOffset, regionSize]
  omega

theorem habmemExportVchan_eq (h : (UInt32.ofNat 89 + payloadSize).toNat ≤ habHeaderSizeMax) :
    habmemExportVchan super payloadSize nodeNext nodePrev =
      some
        { super with
          expState := .success
          exp := { super.exp with nodeNext := nodeNext, nodePrev := nodePrev } } :=
  if_neg (Nat.not_lt.mpr h)

theorem habmemExportVchan_eq_some
    (h : habmemExportVchan super payloadSize nodeNext nodePrev = some exported) :
    exported.payloadSize = super.payloadSize ∧ exported.expState = .success ∧
      exported.exp = { super.exp with nodeNext := nodeNext, nodePrev := nodePrev } := by
  rw [habmemExportVchan] at h
  split at h
  · cases h
  · cases h
    exact ⟨rfl, rfl, rfl⟩

/-- The message carries the export with its page table `pfns`, and an importer that does
not know the export yet keeps it as it is. -/
structure RawExportSuper.Importable (super : RawExportSuper) (pfns : CompressedPfns) : Prop where
  size : super.importAck.length = exportDescSizeMin + pfns.nregions.toInt.toNat * regionSize
  accepted : ∀ (vm : ImportVm) (importer : ImportVchan), (∀ e ∈ vm.impWhse, e < vm.nextDesc) →
    vm.habRbExpFind super.exp.exportId importer.pchan = none →
      ∃ e vm', vm.habReceiveExportDesc importer (.ofBytes super.importAck) true true true =
          (.enqueued e true, vm') ∧
        e ∈ vm'.impWhse ∧ (vm'.desc e).payloadCount = super.exp.payloadCount.toInt
  regions : readPfns (super.importAck.drop payloadOffset) = some pfns

theorem length_importAck (super : RawExportSuper) :
    super.importAck.length =
      min (exportDescSize + super.payloadSize.toNat) (payloadOffset + super.exp.payload.length) := by
  rw [RawExportSuper.importAck, List.length_take, RawExportDesc.length_bytes]

theorem length_importAck_exported
    (h : habmemAddExportCompress vchan buf offset pageCount flags id mapped =
      some (super, payloadSize))
    (hexport : habmemExportVchan super payloadSize nodeNext nodePrev = some exported) :
    exported.importAck.length = exportDescSize := by
  obtain ⟨pfns, rest, -, -, hsize, -, -, -, hroom⟩ := habmemAddExportCompress_eq_some h
  obtain ⟨hkept, -, hexp⟩ := habmemExportVchan_eq_some hexport
  rw [length_importAck, hkept, hsize, hexp, exportDescSize, payloadOffset]
  exact Nat.min_eq_left (by simp only [UInt32.toNat_zero]; omega)

theorem RawExportSuper.Importable.length_ne {pfns : CompressedPfns} (h : super.Importable pfns) :
    super.importAck.length ≠ exportDescSize := by
  rw [h.size, exportDescSize, exportDescSizeMin]
  omega

/-- No export can be imported: the IMPORT_ACK ends before the page table, and the importer
drops it. -/
theorem not_importable
    (h : habmemAddExportCompress vchan buf offset pageCount flags id mapped =
      some (super, payloadSize))
    (hexport : habmemExportVchan super payloadSize nodeNext nodePrev = some exported) :
    exported.importAck.length = exportDescSize ∧
      (∀ pfns, ¬ exported.Importable pfns) ∧
        ∀ (vm : ImportVm) importer read allocDesc allocAck,
          vm.habReceiveExportDesc importer (.ofBytes exported.importAck) read allocDesc allocAck =
            (.dropped, vm) := by
  have hlen := length_importAck_exported h hexport
  refine ⟨hlen, fun pfns himportable ↦ himportable.length_ne hlen, ?_⟩
  intro vm importer read allocDesc allocAck
  have hbad : (ExportMsg.ofBytes exported.importAck).badSize = true := by
    simp [ExportMsg.badSize, ExportMsg.ofBytes, hlen, exportDescSize, exportDescSizeMin]
  rw [ImportVm.habReceiveExportDesc, hbad]
  rfl

/-- A vchan that exports the page at frame 512. -/
def onePageVchan : ExporterVchan :=
  { addr := 0xffff888000001000, ctx := 0xffff888000002000, pchan := 0xffff888000003000
    id := 1, otherendId := 2, vmidLocal := 0, vmidRemote := 1, memProto := true }

theorem exists_onePage :
    ∃ super payloadSize exported,
      habmemAddExportCompress onePageVchan (.own [512]) 0 1 0 1 false = some (super, payloadSize) ∧
        habmemExportVchan super payloadSize 0xffff888000002100 0xffff888000002100 =
          some exported :=
  ⟨_, _, _, rfl, habmemExportVchan_eq (by decide)⟩

theorem not_importable_onePage :
    ∃ super payloadSize exported,
      habmemAddExportCompress onePageVchan (.own [512]) 0 1 0 1 false = some (super, payloadSize) ∧
        habmemExportVchan super payloadSize 0xffff888000002100 0xffff888000002100 =
          some exported ∧ ∀ pfns, ¬ exported.Importable pfns := by
  obtain ⟨super, payloadSize, exported, hadd, hexport⟩ := exists_onePage
  exact ⟨super, payloadSize, exported, hadd, hexport, (not_importable hadd hexport).2.1⟩

theorem not_forall_importable :
    ¬ ∀ (vchan : ExporterVchan) (buf : DmaBuf) (offset : UInt64) (pageCount flags : Int32)
        (id : UInt32) (mapped : Bool) (pfns : CompressedPfns) (super exported : RawExportSuper)
        (payloadSize : UInt32) (nodeNext nodePrev : UInt64), vchan.memProto = true →
      habmemCompressPfns buf offset pageCount mapped = some pfns →
        habmemAddExportCompress vchan buf offset pageCount flags id mapped =
            some (super, payloadSize) →
          habmemExportVchan super payloadSize nodeNext nodePrev = some exported →
            exported.Importable pfns := by
  intro hall
  obtain ⟨super, payloadSize, exported, hadd, hexport⟩ := exists_onePage
  exact (hall _ _ _ _ _ _ _ _ _ _ _ _ _ rfl rfl hadd hexport).length_ne
    (length_importAck_exported hadd hexport)

/-! ## What the field should hold -/

end Hab
