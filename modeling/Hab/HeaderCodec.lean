import Hab.Frame
import Hab.VchanThreads
import Hab.Library.BitField

/-!
# The word of a header that names the vchan and the payload type

`id_type` has the id of a vchan in its upper bits and the payload type in two pieces, one
above and one below twelve unused bits.  The macros of `hab.h` read and write it; messages
find their vchan and their handler by it.
-/

namespace Hab

def habHeaderTypeMask : UInt32 := 0x000F0000

def habHeaderExtTypeMask : UInt32 := 0x0000000F

def habHeaderIdMask : UInt32 := 0xFFF00000

namespace HabHeader

/-- `HAB_HEADER_SET_TYPE`. -/
def setType (header : HabHeader) (type : UInt32) : HabHeader :=
  { header with
    idType := (header.idType &&& ~~~(habHeaderTypeMask ||| habHeaderExtTypeMask)) |||
      ((type <<< 16) &&& habHeaderTypeMask) ||| (((type >>> 4) <<< 0) &&& habHeaderExtTypeMask) }

/-- `HAB_HEADER_SET_ID`. -/
def setId (header : HabHeader) (id : UInt32) : HabHeader :=
  { header with
    idType := (header.idType &&& ~~~habHeaderIdMask) |||
      ((UInt32.ofNat (habVcidGetId id) <<< 20) &&& habHeaderIdMask) }

/-- `HAB_HEADER_GET_ID`. -/
def getId (header : HabHeader) : UInt32 :=
  ((header.idType &&& habHeaderIdMask) >>> 20) &&& habVcidIdMask

/-! ## The setters put fields -/

theorem toBitVec_setType (header : HabHeader) (type : UInt32) :
    (header.setType type).idType.toBitVec =
      BitField.put (BitField.put header.idType.toBitVec habHeaderTypeMask.toBitVec
        (type <<< 16).toBitVec) habHeaderExtTypeMask.toBitVec ((type >>> 4) <<< 0).toBitVec := by
  rw [BitField.put_put (by decide)]
  rfl

theorem toBitVec_setId (header : HabHeader) (id : UInt32) :
    (header.setId id).idType.toBitVec =
      BitField.put header.idType.toBitVec habHeaderIdMask.toBitVec
        (UInt32.ofNat (habVcidGetId id) <<< 20).toBitVec :=
  rfl

theorem setType_setId (header : HabHeader) (type id : UInt32) :
    (header.setId id).setType type = (header.setType type).setId id := by
  have hword :
      ((header.setId id).setType type).idType = ((header.setType type).setId id).idType := by
    apply UInt32.toBitVec_inj.mp
    rw [toBitVec_setType, toBitVec_setId, toBitVec_setId, toBitVec_setType,
      BitField.put_comm (m := habHeaderIdMask.toBitVec) (by decide),
      BitField.put_comm (m := habHeaderIdMask.toBitVec) (by decide)]
  simp only [setType, setId] at hword ⊢
  rw [hword]

/-- What `HAB_HEADER_SET_TYPE` leaves alone. -/
theorem setType_and {mask : UInt32} (htype : habHeaderTypeMask &&& mask = 0)
    (hext : habHeaderExtTypeMask &&& mask = 0) (header : HabHeader) (type : UInt32) :
    (header.setType type).idType &&& mask = header.idType &&& mask := by
  apply UInt32.toBitVec_inj.mp
  rw [UInt32.toBitVec_and, UInt32.toBitVec_and, toBitVec_setType,
    BitField.put_and_of_disjoint (congrArg UInt32.toBitVec hext),
    BitField.put_and_of_disjoint (congrArg UInt32.toBitVec htype)]

/-- What `HAB_HEADER_SET_ID` leaves alone. -/
theorem setId_and {mask : UInt32} (h : habHeaderIdMask &&& mask = 0) (header : HabHeader)
    (id : UInt32) : (header.setId id).idType &&& mask = header.idType &&& mask := by
  apply UInt32.toBitVec_inj.mp
  rw [UInt32.toBitVec_and, UInt32.toBitVec_and, toBitVec_setId,
    BitField.put_and_of_disjoint (congrArg UInt32.toBitVec h)]

/-! ## The getters -/

theorem getId_congr {a b : HabHeader}
    (h : a.idType &&& habHeaderIdMask = b.idType &&& habHeaderIdMask) : a.getId = b.getId := by
  rw [getId, getId, h]

theorem getType_congr {a b : HabHeader}
    (htype : a.idType &&& habHeaderTypeMask = b.idType &&& habHeaderTypeMask)
    (hext : a.idType &&& habHeaderExtTypeMask = b.idType &&& habHeaderExtTypeMask) :
    a.getType = b.getType := by
  unfold habHeaderTypeMask at htype
  unfold habHeaderExtTypeMask at hext
  rw [getType, getType, htype, hext]

@[simp] theorem getId_setType (header : HabHeader) (type : UInt32) :
    (header.setType type).getId = header.getId :=
  getId_congr (setType_and (by decide) (by decide) header type)

@[simp] theorem getType_setId (header : HabHeader) (id : UInt32) :
    (header.setId id).getType = header.getType :=
  getType_congr (setId_and (by decide) header id) (setId_and (by decide) header id)

/-- The id field holds the whole id of a vchan. -/
theorem toNat_idField (i : Fin 4096) :
    ((UInt32.ofNat i <<< 20) &&& habHeaderIdMask).toNat = 2 ^ 20 * i := by
  obtain ⟨i, hi⟩ := i
  rw [UInt32.toNat_and, UInt32.toNat_shiftLeft, UInt32.toNat_ofNat',
    Nat.mod_eq_of_lt (a := i) (by omega), show (20 : UInt32).toNat % 32 = 20 from rfl,
    Nat.mod_eq_of_lt (by rw [Nat.shiftLeft_eq]; omega)]
  calc (i <<< 20) &&& habHeaderIdMask.toNat = 2 ^ 20 * (i % 2 ^ 12) :=
        BitField.shiftLeft_and_field i 20 12
    _ = 2 ^ 20 * i := by rw [Nat.mod_eq_of_lt (b := 2 ^ 12) hi]

@[simp] theorem getId_setId (header : HabHeader) (id : UInt32) :
    (header.setId id).getId = UInt32.ofNat (habVcidGetId id) := by
  have hfield : (header.setId id).idType &&& habHeaderIdMask =
      (UInt32.ofNat (habVcidGetId id) <<< 20) &&& habHeaderIdMask := by
    apply UInt32.toBitVec_inj.mp
    rw [UInt32.toBitVec_and, toBitVec_setId, BitField.put_and_self]
    rfl
  have hlt := (habVcidGetId id).isLt
  apply UInt32.toNat_inj.mp
  rw [getId, hfield, UInt32.toNat_and, UInt32.toNat_shiftRight, toNat_idField,
    show (20 : UInt32).toNat % 32 = 20 from rfl, Nat.shiftRight_eq_div_pow,
    Nat.mul_div_cancel_left _ (by decide)]
  calc (habVcidGetId id : ℕ) &&& habVcidIdMask.toNat = habVcidGetId id % 2 ^ 12 :=
        Nat.and_two_pow_sub_one_eq_mod _ 12
    _ = habVcidGetId id := Nat.mod_eq_of_lt hlt
    _ = (UInt32.ofNat (habVcidGetId id)).toNat := by
        rw [UInt32.toNat_ofNat', Nat.mod_eq_of_lt (by omega)]

/-! ### The two pieces of the type -/

theorem setType_and_typeMask (header : HabHeader) (type : UInt32) :
    (header.setType type).idType &&& habHeaderTypeMask = (type <<< 16) &&& habHeaderTypeMask := by
  apply UInt32.toBitVec_inj.mp
  rw [UInt32.toBitVec_and, toBitVec_setType, BitField.put_and_of_disjoint (by decide),
    BitField.put_and_self]
  rfl

theorem setType_and_extTypeMask (header : HabHeader) (type : UInt32) :
    (header.setType type).idType &&& habHeaderExtTypeMask =
      ((type >>> 4) <<< 0) &&& habHeaderExtTypeMask := by
  apply UInt32.toBitVec_inj.mp
  rw [UInt32.toBitVec_and, toBitVec_setType, BitField.put_and_self]
  rfl

/-- The lower four bits of the type are in the piece above the unused bits. -/
theorem toNat_typeField {type : UInt32} (h : type < 256) :
    ((type <<< 16) &&& habHeaderTypeMask).toNat = 2 ^ 16 * (type.toNat % 2 ^ 4) := by
  have hlt : type.toNat < 256 := UInt32.lt_iff_toNat_lt.mp h
  rw [UInt32.toNat_and, UInt32.toNat_shiftLeft, show (16 : UInt32).toNat % 32 = 16 from rfl,
    Nat.mod_eq_of_lt (by rw [Nat.shiftLeft_eq]; omega)]
  exact BitField.shiftLeft_and_field type.toNat 16 4

/-- The other four are in the piece below them. -/
theorem toNat_extTypeField {type : UInt32} (h : type < 256) :
    (((type >>> 4) <<< 0) &&& habHeaderExtTypeMask).toNat = type.toNat / 2 ^ 4 := by
  have hlt : type.toNat < 256 := UInt32.lt_iff_toNat_lt.mp h
  rw [UInt32.toNat_and, UInt32.toNat_shiftLeft, UInt32.toNat_shiftRight,
    show (4 : UInt32).toNat % 32 = 4 from rfl, show (0 : UInt32).toNat % 32 = 0 from rfl,
    Nat.shiftRight_eq_div_pow, Nat.mod_eq_of_lt (by rw [Nat.shiftLeft_eq]; omega)]
  calc ((type.toNat / 2 ^ 4) <<< 0) &&& habHeaderExtTypeMask.toNat =
        2 ^ 0 * (type.toNat / 2 ^ 4 % 2 ^ 4) := BitField.shiftLeft_and_field _ 0 4
    _ = type.toNat / 2 ^ 4 := by omega

theorem getType_setType (header : HabHeader) {type : UInt32} (h : type < 256) :
    (header.setType type).getType = type := by
  have hlt : type.toNat < 256 := UInt32.lt_iff_toNat_lt.mp h
  have htype := setType_and_typeMask header type
  have hext := setType_and_extTypeMask header type
  unfold habHeaderTypeMask at htype
  unfold habHeaderExtTypeMask at hext
  have hlow : (((type <<< 16) &&& 0x000F0000) >>> 16).toNat = type.toNat % 2 ^ 4 := by
    have hfield : ((type <<< 16) &&& 0x000F0000).toNat = 2 ^ 16 * (type.toNat % 2 ^ 4) :=
      toNat_typeField h
    rw [UInt32.toNat_shiftRight, hfield, show (16 : UInt32).toNat % 32 = 16 from rfl,
      Nat.shiftRight_eq_div_pow, Nat.mul_div_cancel_left _ (by decide)]
  have hhigh : ((((type >>> 4) <<< 0) &&& 0x0000000F) <<< 4).toNat =
      2 ^ 4 * (type.toNat / 2 ^ 4) := by
    have hfield : (((type >>> 4) <<< 0) &&& 0x0000000F).toNat = type.toNat / 2 ^ 4 :=
      toNat_extTypeField h
    rw [UInt32.toNat_shiftLeft, hfield, show (4 : UInt32).toNat % 32 = 4 from rfl,
      Nat.shiftLeft_eq, Nat.mod_eq_of_lt (by omega), Nat.mul_comm]
  apply UInt32.toNat_inj.mp
  rw [getType, htype, hext, UInt32.toNat_or, hlow, hhigh, Nat.or_comm,
    ← Nat.two_pow_add_eq_or_of_lt (Nat.mod_lt _ (by decide)), Nat.div_add_mod]

end HabHeader

/-! ## What the receiver makes of it -/

/-- `vchan->id` of the vchan that `vchan_idr` numbers `id`, for any device and any VM. -/
def habVchanAllocId (id : Fin 4096) (habdevId domId : UInt32) : UInt32 :=
  (UInt32.ofNat id &&& habVcidIdMask) ||| ((habdevId <<< 20) &&& habVcidMmidMask) |||
    ((domId <<< 12) &&& habVcidDomidMask)

/-- The other two fields of a vcid do not reach into the key. -/
theorem habVcidGetId_habVchanAllocId (id : Fin 4096) (habdevId domId : UInt32) :
    habVcidGetId (habVchanAllocId id habdevId domId) = id := by
  have hmask : habVchanAllocId id habdevId domId &&& habVcidIdMask =
      UInt32.ofNat id &&& habVcidIdMask := by
    apply UInt32.toBitVec_inj.mp
    calc (habVchanAllocId id habdevId domId &&& habVcidIdMask).toBitVec =
          (UInt32.ofNat id &&& habVcidIdMask).toBitVec &&& habVcidIdMask.toBitVec :=
            (BitField.or_and_of_disjoint (by decide) _).trans
              (BitField.or_and_of_disjoint (by decide) _)
      _ = (UInt32.ofNat id &&& habVcidIdMask).toBitVec := by
          rw [UInt32.toBitVec_and, BitVec.and_assoc, BitVec.and_self]
  have hlt : (id : ℕ) < 4096 := id.isLt
  apply Fin.ext
  calc (habVcidGetId (habVchanAllocId id habdevId domId) : ℕ) =
        (habVchanAllocId id habdevId domId &&& habVcidIdMask).toNat := rfl
    _ = (UInt32.ofNat id).toNat &&& habVcidIdMask.toNat := by rw [hmask, UInt32.toNat_and]
    _ = (UInt32.ofNat id).toNat % 2 ^ 12 := Nat.and_two_pow_sub_one_eq_mod _ 12
    _ = id := by
        rw [UInt32.toNat_ofNat']
        omega

theorem habVcidGetId_ofNat (id : Fin 4096) : habVcidGetId (UInt32.ofNat id) = id := by
  have hlt : (id : ℕ) < 4096 := id.isLt
  apply Fin.ext
  rw [toNat_habVcidGetId, UInt32.toNat_ofNat']
  omega

namespace VchanSystem

/-- `hab_vchan_get` returns this vchan if it finds it. -/
def takes (s : VchanSystem) (sessionId : UInt32) (v : ℕ) : Bool :=
  (s.vchan v).sessionId = sessionId && (s.vchan v).otherendId ≠ 0 && !(s.vchan v).otherendClosed &&
    !(s.vchan v).closed && (s.vchan v).refcount ≠ 0

theorem habVchanGet_fst (s : VchanSystem) (pchan : HabPchan) (vchanId sessionId : UInt32) :
    (s.habVchanGet pchan vchanId sessionId).1 =
      (s.vchanIdr pchan (habVcidGetId vchanId)).filter (s.takes sessionId) := by
  unfold habVchanGet
  cases hidr : s.vchanIdr pchan (habVcidGetId vchanId) with
  | none => simp
  | some v =>
      have hiff : s.takes sessionId v = true ↔
          ¬ ((s.vchan v).sessionId ≠ sessionId ∨ (s.vchan v).otherendId = 0 ∨
            (s.vchan v).otherendClosed ∨ (s.vchan v).closed ∨ (s.vchan v).refcount = 0) := by
        simp [takes, and_assoc]
      simp only [Option.filter_some]
      split_ifs with hskip htakes htakes
      · exact absurd hskip (hiff.mp htakes)
      · rfl
      · rfl
      · exact absurd (hiff.mpr hskip) htakes

/-- The payload type that `hab_msg_recv` goes by, and the vchan that it finds.  An open
message is for no vchan. -/
def habMsgRecvTarget (s : VchanSystem) (pchan : HabPchan) (header : HabHeader)
    (sessionId : UInt32) : UInt32 × Option ℕ :=
  (header.getType,
    if (HabPayloadType.ofNumber header.getType).any HabPayloadType.isOpen then none
    else (s.habVchanGet pchan header.getId sessionId).1)

end VchanSystem

/-- The fields of `id_type` are written and read apart from each other, and a message is
decoded to the vchan and the type that its header was addressed with. -/
theorem header_codec (header : HabHeader) (type vcid : UInt32) (h : type < 256) :
    (header.setId vcid).setType type = (header.setType type).setId vcid ∧
      ((header.setType type).setId vcid).getType = type ∧
      ((header.setType type).setId vcid).getId = UInt32.ofNat (habVcidGetId vcid) ∧
      (header.setType type).getId = header.getId ∧
      (header.setId vcid).getType = header.getType ∧
      (header.setType type).idType &&& ~~~(habHeaderTypeMask ||| habHeaderExtTypeMask) =
        header.idType &&& ~~~(habHeaderTypeMask ||| habHeaderExtTypeMask) ∧
      (header.setId vcid).idType &&& ~~~habHeaderIdMask = header.idType &&& ~~~habHeaderIdMask ∧
      ∀ (i : Fin 4096) (habdevId domId : UInt32) (s : VchanSystem) (pchan : HabPchan)
        (sessionId : UInt32),
        let addressed := (header.setType type).setId (habVchanAllocId i habdevId domId)
        (s.habVchanGet pchan addressed.getId sessionId).1 =
            (s.vchanIdr pchan i).filter (s.takes sessionId) ∧
          s.habMsgRecvTarget pchan addressed sessionId =
            (type, if (HabPayloadType.ofNumber type).any HabPayloadType.isOpen then none
              else (s.vchanIdr pchan i).filter (s.takes sessionId)) := by
  refine ⟨HabHeader.setType_setId header type vcid, ?_, HabHeader.getId_setId _ vcid,
    HabHeader.getId_setType header type, HabHeader.getType_setId header vcid,
    HabHeader.setType_and (by decide) (by decide) header type,
    HabHeader.setId_and (by decide) header vcid, ?_⟩
  · rw [HabHeader.getType_setId, HabHeader.getType_setType header h]
  · intro i habdevId domId s pchan sessionId addressed
    have htype : addressed.getType = type := by
      rw [HabHeader.getType_setId, HabHeader.getType_setType header h]
    have hkey : habVcidGetId addressed.getId = i := by
      rw [HabHeader.getId_setId, habVcidGetId_ofNat, habVcidGetId_habVchanAllocId]
    have hget : (s.habVchanGet pchan addressed.getId sessionId).1 =
        (s.vchanIdr pchan i).filter (s.takes sessionId) := by
      rw [VchanSystem.habVchanGet_fst, hkey]
    refine ⟨hget, ?_⟩
    rw [VchanSystem.habMsgRecvTarget, htype, hget]

theorem header_codec_ones :
    ((HabHeader.setType ⟨0xFFFFFFFF, 0⟩ 0x1F).setId 0x065FF123).getType = 0x1F ∧
      ((HabHeader.setType ⟨0xFFFFFFFF, 0⟩ 0x1F).setId 0x065FF123).getId = 0x123 := by
  have hcodec := header_codec ⟨0xFFFFFFFF, 0⟩ 0x1F 0x065FF123 (by decide)
  exact ⟨hcodec.2.1, hcodec.2.2.1.trans (by decide)⟩

end Hab
