import Hab.Open
import Hab.Library.BitField

/-!
# The ids that a query of a socket reports

`hab_vchan_query` packs the ids of both VMs of a pchan into one word.  User clients get the
word; for kernel clients `habmm_socket_query` takes it apart again.
-/

namespace Hab

/-- What `hab_vchan_query` reads of the vchan that a vcid stands for. -/
structure QueriedVchan where
  otherendClosed : Bool
  /-- `vchan->pchan->vmid_local`. -/
  vmidLocal : Int32
  /-- `vchan->pchan->vmid_remote`. -/
  vmidRemote : Int32
deriving DecidableEq

def vmnameSize : ℕ := 12

structure HabSocketInfo where
  vmidRemote : Int32
  vmidLocal : Int32
  vmnameRemote : List UInt8
  vmnameLocal : List UInt8
deriving DecidableEq

/-- `strscpy` into a field of `size` bytes. -/
def strscpy (src : ℕ → UInt8) (start size : ℕ) : List UInt8 :=
  ((List.range (size - 1)).map fun i ↦ src (start + i)).takeWhile (· ≠ 0)

namespace SocketQuery

/-- `*ids` in `hab_vchan_query`. -/
def packIds (vmidLocal vmidRemote : Int32) : UInt64 :=
  UInt64.ofInt vmidLocal.toInt ||| (UInt64.ofInt vmidRemote.toInt <<< 32)

/-- `hab_vchan_query`, for the vchan that `hab_get_vchan_fromvcid` finds. -/
def habVchanQuery (vchan : Option QueriedVchan) (names : ℕ → UInt8) (nameSize : ℕ) :
    Except Errno (UInt64 × (ℕ → UInt8)) :=
  match vchan with
  | none => .error .einval
  | some vchan =>
      if vchan.otherendClosed then .error .enodev
      else
        .ok (packIds vchan.vmidLocal vchan.vmidRemote,
          Function.update (Function.update names 0 0) (nameSize / 2) 0)

/-- What `habmm_socket_query` makes of the word and the names. -/
def socketInfo (ids : UInt64) (nm : ℕ → UInt8) : HabSocketInfo where
  vmidLocal := Int32.ofNat (ids &&& 0xFFFFFFFF).toNat
  -- a comparison, where the upper half is to be shifted down
  vmidRemote := if (ids &&& 0xFFFFFFFF00000000) > 32 then 1 else 0
  vmnameLocal := strscpy nm 0 vmnameSize
  vmnameRemote := strscpy nm vmnameSize vmnameSize

/-- `habmm_socket_query`; `nm` is what its buffer for the names has at the start, and `info`
says whether the caller gave a place for the result. -/
def habmmSocketQuery (vchan : Option QueriedVchan) (info : Bool) (nm : ℕ → UInt8) :
    Except Errno HabSocketInfo :=
  if !info then .error .einval
  else (habVchanQuery vchan nm (2 * vmnameSize)).map fun r ↦ socketInfo r.1 r.2

/-! ## The word -/

theorem ofNat_toNatClampNeg {vmid : Int32} (h : 0 ≤ vmid) :
    Int32.ofNat vmid.toNatClampNeg = vmid := by
  have hpos : 0 ≤ vmid.toInt := Int32.le_iff_toInt_le.mp h
  apply Int32.toInt_inj.mp
  rw [Int32.toInt_ofNat_of_lt vmid.toNatClampNeg_lt, ← Int32.toNat_toInt, Int.toNat_of_nonneg hpos]

theorem toNat_ofInt {vmid : Int32} (h : 0 ≤ vmid) :
    (UInt64.ofInt vmid.toInt).toNat = vmid.toNatClampNeg := by
  have hpos : 0 ≤ vmid.toInt := Int32.le_iff_toInt_le.mp h
  have hlt := vmid.toInt_lt
  rw [UInt64.ofInt, UInt64.toNat_ofNat', ← Int32.toNat_toInt]
  omega

variable {vmidLocal vmidRemote : Int32}

theorem toNat_packIds (hlocal : 0 ≤ vmidLocal) (hremote : 0 ≤ vmidRemote) :
    (packIds vmidLocal vmidRemote).toNat =
      2 ^ 32 * vmidRemote.toNatClampNeg + vmidLocal.toNatClampNeg := by
  have hl := vmidLocal.toNatClampNeg_lt
  have hr := vmidRemote.toNatClampNeg_lt
  rw [packIds, UInt64.toNat_or, UInt64.toNat_shiftLeft, toNat_ofInt hlocal, toNat_ofInt hremote,
    show (32 : UInt64).toNat % 64 = 32 from rfl, Nat.shiftLeft_eq, Nat.mod_eq_of_lt (by omega),
    Nat.or_comm, Nat.mul_comm, ← Nat.two_pow_add_eq_or_of_lt (by omega)]

theorem packIds_inj {otherLocal otherRemote : Int32} (hlocal : 0 ≤ vmidLocal)
    (hremote : 0 ≤ vmidRemote) (hotherLocal : 0 ≤ otherLocal) (hotherRemote : 0 ≤ otherRemote)
    (h : packIds otherLocal otherRemote = packIds vmidLocal vmidRemote) :
    otherLocal = vmidLocal ∧ otherRemote = vmidRemote := by
  have hl := vmidLocal.toNatClampNeg_lt
  have hol := otherLocal.toNatClampNeg_lt
  have hword := congrArg UInt64.toNat h
  rw [toNat_packIds hlocal hremote, toNat_packIds hotherLocal hotherRemote] at hword
  have heqLocal : otherLocal.toNatClampNeg = vmidLocal.toNatClampNeg := by omega
  have heqRemote : otherRemote.toNatClampNeg = vmidRemote.toNatClampNeg := by omega
  constructor
  · rw [← ofNat_toNatClampNeg hotherLocal, heqLocal, ofNat_toNatClampNeg hlocal]
  · rw [← ofNat_toNatClampNeg hotherRemote, heqRemote, ofNat_toNatClampNeg hremote]

theorem lowHalf_packIds (hlocal : 0 ≤ vmidLocal) (hremote : 0 ≤ vmidRemote) :
    Int32.ofNat (packIds vmidLocal vmidRemote &&& 0xFFFFFFFF).toNat = vmidLocal := by
  have hl := vmidLocal.toNatClampNeg_lt
  have hhalf : (packIds vmidLocal vmidRemote &&& 0xFFFFFFFF).toNat = vmidLocal.toNatClampNeg := by
    rw [UInt64.toNat_and, toNat_packIds hlocal hremote]
    calc (2 ^ 32 * vmidRemote.toNatClampNeg + vmidLocal.toNatClampNeg) &&&
            (0xFFFFFFFF : UInt64).toNat =
          (2 ^ 32 * vmidRemote.toNatClampNeg + vmidLocal.toNatClampNeg) % 2 ^ 32 :=
            Nat.and_two_pow_sub_one_eq_mod _ 32
      _ = vmidLocal.toNatClampNeg := by omega
  rw [hhalf, ofNat_toNatClampNeg hlocal]

theorem highHalf_packIds (hlocal : 0 ≤ vmidLocal) (hremote : 0 ≤ vmidRemote) :
    (packIds vmidLocal vmidRemote &&& 0xFFFFFFFF00000000).toNat =
      2 ^ 32 * vmidRemote.toNatClampNeg := by
  have hl := vmidLocal.toNatClampNeg_lt
  have hr := vmidRemote.toNatClampNeg_lt
  rw [UInt64.toNat_and, toNat_packIds hlocal hremote]
  calc (2 ^ 32 * vmidRemote.toNatClampNeg + vmidLocal.toNatClampNeg) &&&
          (0xFFFFFFFF00000000 : UInt64).toNat =
        2 ^ 32 * ((2 ^ 32 * vmidRemote.toNatClampNeg + vmidLocal.toNatClampNeg) / 2 ^ 32 %
          2 ^ 32) := BitField.and_field _ 32 32
    _ = 2 ^ 32 * vmidRemote.toNatClampNeg := by omega

/-- What the comparison makes of the upper half. -/
theorem highHalf_gt_iff (hlocal : 0 ≤ vmidLocal) (hremote : 0 ≤ vmidRemote) :
    (packIds vmidLocal vmidRemote &&& 0xFFFFFFFF00000000) > 32 ↔ vmidRemote ≠ 0 := by
  rw [gt_iff_lt, UInt64.lt_iff_toNat_lt, highHalf_packIds hlocal hremote,
    show (32 : UInt64).toNat = 32 from rfl]
  constructor
  · intro hgt hzero
    rw [hzero] at hgt
    exact absurd hgt (by decide)
  · intro hne
    have hpos : vmidRemote.toNatClampNeg ≠ 0 := by
      intro hzero
      apply hne
      rw [← ofNat_toNatClampNeg hremote, hzero]
      rfl
    omega

/-! ## The round trip -/

/-- The word determines both ids, and the query of a kernel client reports them. -/
def RoundTrips (vchan : QueriedVchan) : Prop :=
  (∀ vmidLocal vmidRemote, 0 ≤ vmidLocal → 0 ≤ vmidRemote →
      packIds vmidLocal vmidRemote = packIds vchan.vmidLocal vchan.vmidRemote →
        vmidLocal = vchan.vmidLocal ∧ vmidRemote = vchan.vmidRemote) ∧
    (vchan.otherendClosed = false → ∀ nm, ∃ info,
      habmmSocketQuery (some vchan) true nm = .ok info ∧
        info.vmidLocal = vchan.vmidLocal ∧ info.vmidRemote = vchan.vmidRemote)

theorem habmmSocketQuery_open {vchan : QueriedVchan} (hopen : vchan.otherendClosed = false)
    (nm : ℕ → UInt8) :
    ∃ names, habmmSocketQuery (some vchan) true nm =
      .ok (socketInfo (packIds vchan.vmidLocal vchan.vmidRemote) names) := by
  simp [habmmSocketQuery, habVchanQuery, hopen, Except.map]

theorem vmidRemote_socketInfo (hlocal : 0 ≤ vmidLocal) (hremote : 0 ≤ vmidRemote)
    (nm : ℕ → UInt8) :
    (socketInfo (packIds vmidLocal vmidRemote) nm).vmidRemote =
      if vmidRemote ≠ 0 then 1 else 0 := by
  simp only [socketInfo, highHalf_gt_iff hlocal hremote]

/-- A comparison tells only 0 and 1 apart. -/
theorem ite_eq_self_iff (hremote : 0 ≤ vmidRemote) :
    (if vmidRemote ≠ 0 then (1 : Int32) else 0) = vmidRemote ↔ vmidRemote ≤ 1 := by
  have hpos : 0 ≤ vmidRemote.toInt := Int32.le_iff_toInt_le.mp hremote
  rw [Int32.le_iff_toInt_le, ← Int32.toInt_inj, show (1 : Int32).toInt = 1 from rfl]
  split_ifs with hne
  · have hnonzero : vmidRemote.toInt ≠ 0 := fun hzero ↦ hne (Int32.toInt_inj.mp hzero)
    rw [show (1 : Int32).toInt = 1 from rfl]
    omega
  · rw [not_not.mp hne]
    decide

/-- The query of a kernel client reports a remote VM with an id from 2 on as VM 1. -/
theorem roundTrips_iff (vchan : QueriedVchan) (hlocal : 0 ≤ vchan.vmidLocal)
    (hremote : 0 ≤ vchan.vmidRemote) :
    RoundTrips vchan ↔ vchan.otherendClosed ∨ vchan.vmidRemote ≤ 1 := by
  constructor
  · intro h
    cases hclosed : vchan.otherendClosed with
    | true => exact Or.inl rfl
    | false =>
        right
        obtain ⟨info, hinfo, -, hreported⟩ := h.2 hclosed fun _ ↦ 0
        obtain ⟨names, hok⟩ := habmmSocketQuery_open hclosed fun _ ↦ 0
        cases hinfo.symm.trans hok
        rw [vmidRemote_socketInfo hlocal hremote] at hreported
        exact (ite_eq_self_iff hremote).mp hreported
  · intro h
    refine ⟨fun _ _ hl hr hword ↦ packIds_inj hlocal hremote hl hr hword, ?_⟩
    intro hopen nm
    obtain ⟨names, hok⟩ := habmmSocketQuery_open hopen nm
    refine ⟨_, hok, lowHalf_packIds hlocal hremote, ?_⟩
    rw [vmidRemote_socketInfo hlocal hremote]
    exact (ite_eq_self_iff hremote).mpr (h.resolve_left (by simp [hopen]))

theorem roundTrips_iff_firstVm :
    RoundTrips ⟨false, 0, 1⟩ ↔ ((⟨false, 0, 1⟩ : QueriedVchan).otherendClosed ∨ (1 : Int32) ≤ 1) :=
  roundTrips_iff ⟨false, 0, 1⟩ (by decide) (by decide)

theorem not_roundTrips_secondVm :
    ¬ ∀ vchan : QueriedVchan, 0 ≤ vchan.vmidLocal → 0 ≤ vchan.vmidRemote → RoundTrips vchan := by
  intro h
  obtain ⟨-, hquery⟩ := h ⟨false, 0, 2⟩ (by decide) (by decide)
  obtain ⟨info, hinfo, -, hremote⟩ := hquery rfl fun _ ↦ 0
  cases hinfo
  exact absurd hremote (by decide)

end SocketQuery

end Hab
