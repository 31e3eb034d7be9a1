import Mathlib.Data.Int.Notation
import Hab.Library.Cursor
import Hab.Open

/-!
# Lookups that end at the head of the list (`hab_pchan_find_domid`, `get_vh`)

Both functions use the cursor of their loop after the loop.  Where no entry matches it is
the head of the list, taken for an entry: `hab_pchan_find_domid` reads a `dom_id` and a
reference count there, and `get_vh` returns it.
-/

namespace Hab

namespace Lookups

open Cursor

def habcfgVmidDontCare : ℤ := -2

/-- What is read of `struct physical_channel`, at an entry of the list or at its head. -/
structure ListedPchan where
  domId : ℤ
  refcount : ℤ
  isBe : Bool
deriving DecidableEq

/-- `hab_pchan_find_domid`: the pointer it returns, and `dev->pchannels`. -/
def habPchanFindDomid (pchannels : RingList ListedPchan) (domId : ℤ) :
    Option Place × RingList ListedPchan :=
  let cursor := pchannels.scan fun pchan ↦
    pchan.domId = domId || domId = habcfgVmidDontCare
  let pchan := pchannels.get cursor
  if pchan.domId ≠ domId ∧ domId ≠ habcfgVmidDontCare then (none, pchannels)
  else if pchan.refcount = 0 then (none, pchannels)
  else (some cursor, pchannels.set cursor { pchan with refcount := pchan.refcount + 1 })

/-- Where `hab_vchan_open` goes on. -/
inductive OpenWay where
  | refused (error : Errno)
  | backendListen
  | frontendOpen (domId : ℤ)
deriving DecidableEq

/-- What `hab_vchan_open` is called with and reads. -/
structure OpenCall where
  /-- `vcid` points somewhere. -/
  vcid : Bool
  loopback : Bool
  /-- `ctx->lb_be`. -/
  lbBe : Bool
  /-- `hab_is_forbidden`. -/
  forbidden : Bool
  /-- `dev->pchannels` of the device that `find_hab_device` finds. -/
  dev : Option (RingList ListedPchan)

/-- `hab_vchan_open`, up to the handshake. -/
def habVchanOpen (call : OpenCall) : OpenWay :=
  if !call.vcid then .refused .einval
  else if call.loopback then
    if call.lbBe then .backendListen else .frontendOpen 0xFF
  else if call.dev.isSome && call.forbidden then .refused .enxio
  else
    match call.dev with
    | none => .refused .enodev
    | some pchannels =>
        match habPchanFindDomid pchannels habcfgVmidDontCare with
        | (none, _) => .refused .enodev
        | (some pchan, pchannels) =>
            if (pchannels.get pchan).isBe then .backendListen else .frontendOpen habcfgVmidDontCare

/-- `get_vh`, for a list with these `vh->vdev`; the pointer is never null. -/
def getVh (vhabList : RingList ℕ) (vdev : ℕ) : Place := vhabList.scan fun entry ↦ entry = vdev

/-! ## What they return -/

/-- NULL is returned and nothing changes, or an entry is returned that matches and had a
reference, and has one more now. -/
def FindsMember (pchannels : RingList ListedPchan) (domId : ℤ) : Prop :=
  habPchanFindDomid pchannels domId = (none, pchannels) ∨
    ∃ i pchan, pchannels.entries[i]? = some pchan ∧
      (pchan.domId = domId ∨ domId = habcfgVmidDontCare) ∧ pchan.refcount ≠ 0 ∧
        habPchanFindDomid pchannels domId =
          (some (.member i), { pchannels with
            entries := pchannels.entries.set i { pchan with refcount := pchan.refcount + 1 } })

variable {pchannels : RingList ListedPchan} {domId : ℤ}

/-- Some entry is what the loop of `hab_pchan_find_domid` looks for. -/
def Matches (pchannels : RingList ListedPchan) (domId : ℤ) : Prop :=
  ∃ pchan ∈ pchannels.entries, pchan.domId = domId ∨ domId = habcfgVmidDontCare

theorem findsMember_of_matches (h : Matches pchannels domId) : FindsMember pchannels domId := by
  rcases RingList.scan_cases (fun pchan ↦ pchan.domId = domId || domId = habcfgVmidDontCare)
    pchannels with ⟨i, pchan, hscan, hget, hp⟩ | ⟨-, hnone⟩
  · have hdom : pchan.domId = domId ∨ domId = habcfgVmidDontCare := by simpa using hp
    have hpass : ¬ (pchan.domId ≠ domId ∧ domId ≠ habcfgVmidDontCare) := by tauto
    by_cases hzero : pchan.refcount = 0
    · left
      simp only [habPchanFindDomid, hscan, RingList.get_member hget, if_neg hpass, if_pos hzero]
    · right
      refine ⟨i, pchan, hget, hdom, hzero, ?_⟩
      simp only [habPchanFindDomid, hscan, RingList.get_member hget, if_neg hpass, if_neg hzero]
      rfl
  · obtain ⟨pchan, hmem, hdom⟩ := h
    have hp := hnone pchan hmem
    simp only [Bool.or_eq_false_iff, decide_eq_false_iff_not] at hp
    exact absurd hdom (by tauto)

/-- Without a match the cursor is at the head. -/
theorem habPchanFindDomid_of_not_matches (h : ¬ Matches pchannels domId) :
    habPchanFindDomid pchannels domId =
      if pchannels.head.domId ≠ domId ∧ domId ≠ habcfgVmidDontCare then (none, pchannels)
      else if pchannels.head.refcount = 0 then (none, pchannels)
      else (some .head, { pchannels with
        head := { pchannels.head with refcount := pchannels.head.refcount + 1 } }) := by
  rcases RingList.scan_cases (fun pchan ↦ pchan.domId = domId || domId = habcfgVmidDontCare)
    pchannels with ⟨i, pchan, -, hget, hp⟩ | ⟨hscan, -⟩
  · exact absurd ⟨pchan, List.mem_of_getElem? hget, by simpa using hp⟩ h
  · simp only [habPchanFindDomid, hscan]
    rfl

/-- What lies around the head decides then. -/
theorem findsMember_iff_of_not_matches (h : ¬ Matches pchannels domId) :
    FindsMember pchannels domId ↔
      (pchannels.head.domId ≠ domId ∧ domId ≠ habcfgVmidDontCare) ∨
        pchannels.head.refcount = 0 := by
  have hfind := habPchanFindDomid_of_not_matches h
  split_ifs at hfind with hmismatch hzero
  · exact iff_of_true (Or.inl hfind) (Or.inl hmismatch)
  · exact iff_of_true (Or.inl hfind) (Or.inr hzero)
  · refine iff_of_false ?_ fun hor ↦ hor.elim hmismatch hzero
    rintro (hnone | ⟨i, pchan, -, -, -, hsome⟩)
    · rw [hfind] at hnone
      exact absurd (congrArg Prod.fst hnone) (by simp)
    · rw [hfind] at hsome
      exact absurd (congrArg Prod.fst hsome) (by simp)

theorem findsMember_iff :
    FindsMember pchannels domId ↔
      Matches pchannels domId ∨
        (pchannels.head.domId ≠ domId ∧ domId ≠ habcfgVmidDontCare) ∨
          pchannels.head.refcount = 0 := by
  by_cases h : Matches pchannels domId
  · exact iff_of_true (findsMember_of_matches h) (Or.inl h)
  · rw [findsMember_iff_of_not_matches h, or_iff_right h]

/-- An open on a device without pchans is refused only if the word at the head that is taken
for a reference count is 0. -/
theorem habVchanOpen_empty_iff {forbidden : Bool} {lbBe : Bool} (hnil : pchannels.entries = [])
    (hallowed : forbidden = false) :
    habVchanOpen ⟨true, false, lbBe, forbidden, some pchannels⟩ = .refused .enodev ↔
      pchannels.head.refcount = 0 := by
  have hno : ¬ Matches pchannels habcfgVmidDontCare := by
    rintro ⟨pchan, hmem, -⟩
    rw [hnil] at hmem
    exact absurd hmem List.not_mem_nil
  have hfind := habPchanFindDomid_of_not_matches hno
  rw [if_neg fun hmismatch ↦ hmismatch.2 rfl] at hfind
  rw [hallowed]
  simp only [habVchanOpen, hfind, Bool.not_true, Bool.false_eq_true, if_false, Bool.and_false]
  by_cases hzero : pchannels.head.refcount = 0
  · simp [hzero]
  · simp only [if_neg hzero]
    refine iff_of_false ?_ hzero
    split_ifs <;> simp

/-- `get_vh` returns an entry for the device it was asked for. -/
def GetsMember (vhabList : RingList ℕ) (vdev : ℕ) : Prop :=
  ∃ i, getVh vhabList vdev = .member i ∧ vhabList.entries[i]? = some vdev

theorem getsMember_iff (vhabList : RingList ℕ) (vdev : ℕ) :
    GetsMember vhabList vdev ↔ vdev ∈ vhabList.entries := by
  rcases RingList.scan_cases (fun entry ↦ entry = vdev) vhabList with
    ⟨i, entry, hscan, hget, hp⟩ | ⟨hscan, hnone⟩
  · have heq : entry = vdev := by simpa using hp
    rw [heq] at hget
    exact iff_of_true ⟨i, hscan, hget⟩ (List.mem_of_getElem? hget)
  · refine iff_of_false ?_ ?_
    · rintro ⟨i, hmember, -⟩
      rw [getVh, hscan] at hmember
      exact absurd hmember (by simp)
    · intro hmem
      exact absurd (hnone vdev hmem) (by simp)

/-- A lookup returns NULL or a member where some member matches, and otherwise only if what
lies around the head does not look like a match. -/
theorem memberLookups_iff (pchannels : RingList ListedPchan) (domId : ℤ) (lbBe : Bool)
    (vhabList : RingList ℕ) (vdev : ℕ) :
    (FindsMember pchannels domId ↔
      Matches pchannels domId ∨
        (pchannels.head.domId ≠ domId ∧ domId ≠ habcfgVmidDontCare) ∨
          pchannels.head.refcount = 0) ∧
      (pchannels.entries = [] →
        (habVchanOpen ⟨true, false, lbBe, false, some pchannels⟩ = .refused .enodev ↔
          pchannels.head.refcount = 0)) ∧
      (GetsMember vhabList vdev ↔ vdev ∈ vhabList.entries) :=
  ⟨findsMember_iff, fun hnil ↦ habVchanOpen_empty_iff hnil rfl, getsMember_iff vhabList vdev⟩

theorem memberLookups_iff_empty :
    habVchanOpen ⟨true, false, false, false, some ⟨[], ⟨0, 0, false⟩⟩⟩ = .refused .enodev ↔
      (0 : ℤ) = 0 :=
  (memberLookups_iff ⟨[], ⟨0, 0, false⟩⟩ 0 false ⟨[], 0⟩ 0).2.1 rfl

/-- A device without pchans, and a list of virtio devices without the one that is asked
for. -/
theorem not_forall_memberLookups :
    ¬ ((∀ pchannels domId, FindsMember pchannels domId) ∧
        (∀ pchannels : RingList ListedPchan, pchannels.entries = [] →
          habVchanOpen ⟨true, false, false, false, some pchannels⟩ = .refused .enodev) ∧
        ∀ vhabList vdev, GetsMember vhabList vdev) := by
  rintro ⟨-, hopen, -⟩
  exact absurd (hopen ⟨[], ⟨0, 1, false⟩⟩ rfl) (by decide)

end Lookups

end Hab
