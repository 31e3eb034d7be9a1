import Mathlib.Algebra.Order.Ring.Nat
import Mathlib.Data.Nat.Bitwise
import Mathlib.Tactic.Common

/-!
# Vchan ids and header fields (`hab.h`, `hab_vchan_alloc`)

The id of a vchan packs the id that its pchan's `vchan_idr` gives it with the
ids of the device and of the other VM.  The tables of `hab.c` and of the
configuration have one pchan for each device and VM, so a vchan id tells on
which pchan the vchan is.
-/

namespace Hab

def habHeaderSizeMax : ℕ := 0x0007D000

/-- A pchan is known by `habdev->id` and `dom_id`, which fit the bits a vchan id
has for them. -/
structure HabPchan where
  mmid : Fin 4096
  domId : Fin 256
deriving DecidableEq

def habVcidIdMask : UInt32 := 0x00000FFF

def habVcidDomidMask : UInt32 := 0x000FF000

def habVcidMmidMask : UInt32 := 0xFFF00000

/-- `vchan->id` of the vchan that `vchan_idr` numbers `id`. -/
def habVcid (pchan : HabPchan) (id : Fin 4096) : UInt32 :=
  (UInt32.ofNat id &&& habVcidIdMask) |||
    ((UInt32.ofNat pchan.mmid <<< 20) &&& habVcidMmidMask) |||
      ((UInt32.ofNat pchan.domId <<< 12) &&& habVcidDomidMask)

/-- A field that fits its mask is not changed by it. -/
theorem shiftLeft_and_mask {a k w : ℕ} (h : a < 2 ^ w) :
    (a <<< k) &&& ((2 ^ w - 1) <<< k) = 2 ^ k * a := by
  rw [← Nat.shiftLeft_and_distrib, Nat.and_two_pow_sub_one_eq_mod, Nat.mod_eq_of_lt h,
    Nat.shiftLeft_eq, Nat.mul_comm]

theorem toNat_habVcid (pchan : HabPchan) (id : Fin 4096) :
    (habVcid pchan id).toNat = 2 ^ 20 * pchan.mmid + (2 ^ 12 * pchan.domId + id) := by
  obtain ⟨⟨m, hm⟩, ⟨d, hd⟩⟩ := pchan
  obtain ⟨i, hi⟩ := id
  have hid : (UInt32.ofNat i &&& habVcidIdMask).toNat = i := by
    rw [UInt32.toNat_and, UInt32.toNat_ofNat', Nat.mod_eq_of_lt (by omega)]
    exact (Nat.and_two_pow_sub_one_eq_mod i 12).trans (Nat.mod_eq_of_lt hi)
  have hmmid : ((UInt32.ofNat m <<< 20) &&& habVcidMmidMask).toNat = 2 ^ 20 * m := by
    rw [UInt32.toNat_and, UInt32.toNat_shiftLeft, UInt32.toNat_ofNat',
      Nat.mod_eq_of_lt (a := m) (by omega), show (20 : UInt32).toNat % 32 = 20 from rfl,
      Nat.mod_eq_of_lt (by rw [Nat.shiftLeft_eq]; omega)]
    exact shiftLeft_and_mask (w := 12) hm
  have hdomId : ((UInt32.ofNat d <<< 12) &&& habVcidDomidMask).toNat = 2 ^ 12 * d := by
    rw [UInt32.toNat_and, UInt32.toNat_shiftLeft, UInt32.toNat_ofNat',
      Nat.mod_eq_of_lt (a := d) (by omega), show (12 : UInt32).toNat % 32 = 12 from rfl,
      Nat.mod_eq_of_lt (by rw [Nat.shiftLeft_eq]; omega)]
    exact shiftLeft_and_mask (w := 8) hd
  calc (habVcid ⟨⟨m, hm⟩, ⟨d, hd⟩⟩ ⟨i, hi⟩).toNat = i ||| 2 ^ 20 * m ||| 2 ^ 12 * d := by
        rw [habVcid, UInt32.toNat_or, UInt32.toNat_or, hid, hmmid, hdomId]
    _ = 2 ^ 20 * m ||| (2 ^ 12 * d ||| i) := by
        rw [Nat.or_comm i, Nat.or_assoc, Nat.or_comm i]
    _ = 2 ^ 20 * m + (2 ^ 12 * d + i) := by
        have hi' : i < 2 ^ 12 := hi
        rw [← Nat.two_pow_add_eq_or_of_lt hi', ← Nat.two_pow_add_eq_or_of_lt (by omega)]

def habVcidGetId (vcid : UInt32) : Fin 4096 :=
  ⟨(vcid &&& habVcidIdMask).toNat, by
    rw [UInt32.toNat_and]
    exact Nat.lt_succ_of_le (Nat.and_le_right (m := 4095))⟩

/-- The pchan that a vchan id speaks of. -/
def vcidPchan (vcid : UInt32) : HabPchan :=
  ⟨⟨vcid.toNat / 2 ^ 20 % 4096, Nat.mod_lt _ (by decide)⟩,
    ⟨vcid.toNat / 2 ^ 12 % 256, Nat.mod_lt _ (by decide)⟩⟩

theorem toNat_habVcidGetId (vcid : UInt32) : (habVcidGetId vcid : ℕ) = vcid.toNat % 4096 := by
  calc (habVcidGetId vcid : ℕ) = vcid.toNat &&& 4095 := UInt32.toNat_and vcid habVcidIdMask
    _ = vcid.toNat % 4096 := Nat.and_two_pow_sub_one_eq_mod vcid.toNat 12

@[simp] theorem habVcidGetId_habVcid (pchan : HabPchan) (id : Fin 4096) :
    habVcidGetId (habVcid pchan id) = id := by
  apply Fin.ext
  rw [toNat_habVcidGetId, toNat_habVcid]
  omega

/-- `vchan_idr` gives no id 0, so a vchan id is never 0. -/
theorem habVcid_ne_zero {pchan : HabPchan} {id : Fin 4096} (h : id ≠ ⟨0, by decide⟩) :
    habVcid pchan id ≠ 0 := by
  intro hzero
  have hid := habVcidGetId_habVcid pchan id
  rw [hzero] at hid
  exact h hid.symm

@[simp] theorem vcidPchan_habVcid (pchan : HabPchan) (id : Fin 4096) :
    vcidPchan (habVcid pchan id) = pchan := by
  obtain ⟨⟨m, hm⟩, ⟨d, hd⟩⟩ := pchan
  simp only [vcidPchan, toNat_habVcid, HabPchan.mk.injEq, Fin.mk.injEq]
  omega

end Hab
