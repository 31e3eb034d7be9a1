import Hab.HabDevices
import Hab.Open
import Hab.Vchan

/-!
# Closing a handle that is not open (`hab_vchan_close`, `hab_stop`)

`hab_vchan_close` takes a vcid, and where the context has no vchan with that id it goes on
with the same number as an mmid, to forbid a channel to the context.  Both are packed
numbers, with different fields in the same bits.
-/

namespace Hab

/-- What `hab_vchan_close` and `hab_stop` look at in a context. -/
structure ClosingCtx where
  /-- The ids of the vchans on `ctx->vchannels`. -/
  vchannels : List UInt32
  /-- `node->mmid` of the entries of `ctx->forbidden_chans`. -/
  forbiddenChans : List UInt32
deriving DecidableEq

namespace ClosingCtx

/-- `hab_stop`; `alloc` says whether `kzalloc` has memory. -/
def habStop (ctx : ClosingCtx) (mmid : UInt32) (alloc : Bool) : Option Errno × ClosingCtx :=
  match findHabDevice mmid with
  | none => (some .einval, ctx)
  | some _ =>
      if mmid ∈ ctx.forbiddenChans then (none, ctx)
      else if !alloc then (some .enomem, ctx)
      else (none, { ctx with forbiddenChans := ctx.forbiddenChans ++ [mmid] })

def habVchanClose (ctx : ClosingCtx) (vcid : UInt32) (alloc : Bool) :
    Option Errno × ClosingCtx :=
  if vcid ∈ ctx.vchannels then (none, { ctx with vchannels := ctx.vchannels.erase vcid })
  else
    let (ret, ctx) := ctx.habStop vcid alloc
    (if ret = some .einval then some .enodev else ret, ctx)

theorem habStop_eq_einval_iff (ctx : ClosingCtx) (mmid : UInt32) (alloc : Bool) :
    ctx.habStop mmid alloc = (some .einval, ctx) ↔ findHabDevice mmid = none := by
  rw [habStop]
  cases findHabDevice mmid with
  | none => simp
  | some dev =>
      simp only [reduceCtorEq, iff_false]
      split_ifs
      · simp
      · simp
      · simp

/-- A vcid that is not open is refused and leaves the context alone exactly if it is not
the mmid of a device. -/
theorem habVchanClose_stale_iff {ctx : ClosingCtx} {vcid : UInt32} (h : vcid ∉ ctx.vchannels)
    (alloc : Bool) :
    ctx.habVchanClose vcid alloc = (some .enodev, ctx) ↔ findHabDevice vcid = none := by
  rw [← ctx.habStop_eq_einval_iff vcid alloc, habVchanClose, if_neg h]
  generalize hstop : ctx.habStop vcid alloc = r
  obtain ⟨ret, after⟩ := r
  simp only [Prod.mk.injEq]
  refine and_congr_left fun _ ↦ ?_
  constructor
  · intro hret
    by_contra hne
    rw [if_neg hne] at hret
    rw [hret] at hstop
    -- `hab_stop` has no other way to `-ENODEV`
    rw [habStop] at hstop
    cases hdev : findHabDevice vcid with
    | none => simp [hdev] at hstop
    | some dev =>
        simp only [hdev] at hstop
        split_ifs at hstop
        · cases hstop
        · cases hstop
        · cases hstop
  · intro hret
    rw [if_pos hret]

end ClosingCtx

/-! ## Where the two layouts meet -/

/-- Read as an mmid, a vcid names the number of its key and the lower bits of the id of the
other VM as a device. -/
theorem toNat_habMmidGetMajor_habVcid (pchan : HabPchan) (id : Fin 4096) :
    (habMmidGetMajor (habVcid pchan id)).toNat = 2 ^ 12 * (pchan.domId % 16) + id := by
  obtain ⟨⟨m, hm⟩, ⟨d, hd⟩⟩ := pchan
  obtain ⟨i, hi⟩ := id
  rw [habMmidGetMajor, UInt32.toNat_and, toNat_habVcid]
  calc (2 ^ 20 * m + (2 ^ 12 * d + i)) &&& (0xFFFF : UInt32).toNat
      _ = (2 ^ 20 * m + (2 ^ 12 * d + i)) % 2 ^ 16 := Nat.and_two_pow_sub_one_eq_mod _ 16
      _ = 2 ^ 12 * (d % 16) + i := by omega

theorem toNat_lt_of_mem_habDeviceIds {id : UInt32} (h : id ∈ habDeviceIds) : id.toNat < 2 ^ 12 := by
  have hall : habDeviceIds.all (fun id ↦ id.toNat < 2 ^ 12) = true := by decide
  exact of_decide_eq_true (List.all_eq_true.mp hall id h)

/-- The id of the vchan, read as an mmid, is one of a device exactly if the key is the id of
a device and the bits above it are 0. -/
theorem findHabDevice_habVcid_eq_none_iff (pchan : HabPchan) (id : Fin 4096) :
    findHabDevice (habVcid pchan id) = none ↔
      ¬ ((pchan.domId : ℕ) % 16 = 0 ∧ UInt32.ofNat id ∈ habDeviceIds) := by
  have hmajor := toNat_habMmidGetMajor_habVcid pchan id
  have hid : (UInt32.ofNat id).toNat = id := by
    rw [UInt32.toNat_ofNat', Nat.mod_eq_of_lt (by omega)]
  rw [findHabDevice_eq_none_iff, not_iff_not]
  constructor
  · intro hmem
    have hlt := toNat_lt_of_mem_habDeviceIds hmem
    have hdom : (pchan.domId : ℕ) % 16 = 0 := by omega
    have heq : habMmidGetMajor (habVcid pchan id) = UInt32.ofNat id := by
      apply UInt32.toNat_inj.mp
      omega
    exact ⟨hdom, heq ▸ hmem⟩
  · rintro ⟨hdom, hmem⟩
    have heq : habMmidGetMajor (habVcid pchan id) = UInt32.ofNat id := by
      apply UInt32.toNat_inj.mp
      omega
    exact heq ▸ hmem

/-- Closing a handle that is not open returns `-ENODEV` and leaves the context alone,
unless its number in the `vchan_idr` is the id of a device and the lower four bits of
`dom_id` are 0. -/
theorem stale_close_iff (ctx : ClosingCtx) (pchan : HabPchan) (id : Fin 4096) (alloc : Bool)
    (h : habVcid pchan id ∉ ctx.vchannels) :
    ctx.habVchanClose (habVcid pchan id) alloc = (some .enodev, ctx) ↔
      ¬ ((pchan.domId : ℕ) % 16 = 0 ∧ UInt32.ofNat id ∈ habDeviceIds) := by
  rw [ClosingCtx.habVchanClose_stale_iff h alloc, findHabDevice_habVcid_eq_none_iff]

theorem stale_close_iff_first :
    (⟨[], []⟩ : ClosingCtx).habVchanClose (habVcid (vcidPchan 0x06500000) 1) true =
        (some .enodev, ⟨[], []⟩) ↔
      ¬ (((vcidPchan 0x06500000).domId : ℕ) % 16 = 0 ∧ UInt32.ofNat 1 ∈ habDeviceIds) :=
  stale_close_iff ⟨[], []⟩ (vcidPchan 0x06500000) 1 true (by decide)

/-- The handle with number 601 on device 304 and VM 0, once closed, is the mmid of device
601. -/
theorem stale_close_forbids :
    ¬ ∀ (ctx : ClosingCtx) (pchan : HabPchan) (id : Fin 4096) (alloc : Bool), id ≠ 0 →
      UInt32.ofNat pchan.mmid ∈ habDeviceIds → habVcid pchan id ∉ ctx.vchannels →
        ctx.habVchanClose (habVcid pchan id) alloc = (some .enodev, ctx) := by
  intro h
  have hclose := h ⟨[], []⟩ (vcidPchan 0x13000000) 601 true (by decide) (by decide) (by decide)
  exact absurd hclose (by decide)

end Hab
