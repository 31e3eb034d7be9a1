import Mathlib.Algebra.Order.Ring.Nat
import Mathlib.Data.List.Nodup
import Hab.Library.Pool
import Hab.Library.Runs
import Hab.Open

/-!
# Which device has a channel of the vhost driver

Every `vhost_hab_pchannel` lies on one list: `g_vh.vh_pchan_list`, or the
`vh_pchan_list` of an open device.  `vhost_hab_open` moves one channel for each hab
device of its node, and moves them all back if one is missing; `vhost_hab_release` moves
them back.  Both move channels with `g_vh.pchan_mutex` held.  The loop of the open ends at
the first empty slot of the node, and `del_hab_device_from_cdev` empties slots in front of
others.
-/

namespace Hab

/-- `struct vhost_hab_pchannel`, with the id of its hab device. -/
structure VhostHabPchannel where
  serial : ℕ
  habdev : ℕ
deriving DecidableEq

/-- `struct vhost_hab_cdev`: one device node.  The slots hold ids of hab devices. -/
structure VhostHabCdev where
  vmid : ℤ
  habdevs : List (Option ℕ)
deriving DecidableEq

/-- The devices that the loop of `vhost_hab_open` comes to: it stops at an empty slot. -/
def VhostHabCdev.scanned (cdev : VhostHabCdev) : List ℕ :=
  (cdev.habdevs.takeWhile Option.isSome).filterMap id

/-- `struct vhost_hab_dev`: one open file. -/
structure VhostHabDev where
  cdev : VhostHabCdev
  vhPchanList : List VhostHabPchannel

/-- The device has one channel for each hab device of its node, and no other. -/
def VhostHabDev.HoldsEach (dev : VhostHabDev) : Prop :=
  ∀ d, (dev.vhPchanList.map VhostHabPchannel.habdev).count d =
    if some d ∈ dev.cdev.habdevs then 1 else 0

/-- `struct vhost_hab`, with the files that are open. -/
structure VhostHab where
  vhPchanList : List VhostHabPchannel
  devs : Pool VhostHabDev

/-- What a call of `vhost_hab_open` finds: `vh_pchan->pchan->dom_id` of the channels, and
whether its two allocations succeed.  `vhost_hab_release` puts a reference to the pchan
that no open has taken, so that the `dom_id` may change between two calls. -/
structure VhostOpenEnv where
  domId : VhostHabPchannel → ℤ
  vhDev : Bool
  vqs : Bool

/-- What the inner loop of `vhost_hab_open` looks for. -/
def VhostHabPchannel.fits (domId : VhostHabPchannel → ℤ) (vmid : ℤ) (habdev : ℕ)
    (p : VhostHabPchannel) : Bool :=
  p.habdev = habdev ∧ domId p = vmid

/-- The two nested loops of `vhost_hab_open`: is there a channel for each device?  With
the answer, what is left of the global list and what the device has. -/
def moveVhPchans (domId : VhostHabPchannel → ℤ) (vmid : ℤ) :
    List (Option ℕ) → List VhostHabPchannel → List VhostHabPchannel →
      Bool × List VhostHabPchannel × List VhostHabPchannel
  | [], free, taken => (true, free, taken)
  | none :: _, free, taken => (true, free, taken)
  | some habdev :: habdevs, free, taken =>
      match free.find? (VhostHabPchannel.fits domId vmid habdev) with
      | none => (false, free, taken)
      | some p => moveVhPchans domId vmid habdevs (free.erase p) (taken ++ [p])

namespace VhostHab

def start (vhPchans : List VhostHabPchannel) : VhostHab := ⟨vhPchans, .empty⟩

/-- `vhost_hab_open`: what it returns, without the sign, and what it leaves. -/
def vhostHabOpen (s : VhostHab) (cdev : VhostHabCdev) (env : VhostOpenEnv) :
    Option Errno × VhostHab :=
  if !env.vhDev then (some .enomem, s)
  else
    match moveVhPchans env.domId cdev.vmid cdev.habdevs s.vhPchanList [] with
    | (false, free, taken) => (some .enodev, { s with vhPchanList := free ++ taken })
    | (true, free, taken) =>
        if !env.vqs then (some .enomem, { s with vhPchanList := free ++ taken })
        else (none, { vhPchanList := free, devs := s.devs.spawn ⟨cdev, taken⟩ })

/-- The part of `vhost_hab_release` with the mutex held. -/
def vhostHabRelease (s : VhostHab) (i : ℕ) (dev : VhostHabDev) : VhostHab where
  vhPchanList := s.vhPchanList ++ dev.vhPchanList
  devs := s.devs.set i none

inductive Act
  | vhostHabOpen (cdev : VhostHabCdev) (env : VhostOpenEnv)
  | vhostHabRelease (i : ℕ)

def step (s : VhostHab) : Act → Option VhostHab
  | .vhostHabOpen cdev env => some (s.vhostHabOpen cdev env).2
  | .vhostHabRelease i => (s.devs.get i).map (s.vhostHabRelease i)

/-- The global list, or the list of an open device. -/
def listAt (s : VhostHab) : Option ℕ → List VhostHabPchannel
  | none => s.vhPchanList
  | some i => (s.devs.get i).elim [] VhostHabDev.vhPchanList

/-- Every channel lies on exactly one list, once. -/
structure Exclusive (vhPchans : List VhostHabPchannel) (s : VhostHab) : Prop where
  placed : ∀ p ∈ vhPchans, ∃! place, p ∈ s.listAt place
  nodup : ∀ place, (s.listAt place).Nodup
  known : ∀ place, ∀ p ∈ s.listAt place, p ∈ vhPchans

/-- What an open that returned `r.1` did to the lists. -/
structure OpenOutcome (s : VhostHab) (cdev : VhostHabCdev) (env : VhostOpenEnv)
    (r : Option Errno × VhostHab) : Prop where
  /-- A failed open leaves each list with the channels it had. -/
  failed : r.1 ≠ none → ∀ place p, p ∈ r.2.listAt place ↔ p ∈ s.listAt place
  /-- A successful one has a channel for each device of its node, of the node's VM. -/
  opened : r.1 = none → ∃ dev, r.2.devs.get s.devs.next = some dev ∧ dev.cdev = cdev ∧
    dev.HoldsEach ∧ ∀ p ∈ dev.vhPchanList, env.domId p = cdev.vmid

/-- The opens of a run have to come out as they should. -/
def Delivers (s : VhostHab) : Act → Prop
  | .vhostHabOpen cdev env => OpenOutcome s cdev env (s.vhostHabOpen cdev env)
  | .vhostHabRelease _ => True

/-- Some device in front of the first empty slot lies in more slots there than the global
list has channels for it with the node's VM. -/
def Short (s : VhostHab) (cdev : VhostHabCdev) (domId : VhostHabPchannel → ℤ) : Prop :=
  ∃ d, s.vhPchanList.countP (VhostHabPchannel.fits domId cdev.vmid d) < cdev.scanned.count d

/-- The condition on a step: a node that is opened has each of its devices in one slot
in front of the first empty one, or the open fails. -/
def Whole (s : VhostHab) : Act → Prop
  | .vhostHabOpen cdev env =>
      (∀ d, some d ∈ cdev.habdevs → cdev.scanned.count d = 1) ∨
        env.vhDev = false ∨ env.vqs = false ∨ s.Short cdev env.domId
  | .vhostHabRelease _ => True

end VhostHab

/-! ## The loops of `vhost_hab_open` -/

section Loops

variable {domId : VhostHabPchannel → ℤ} {vmid : ℤ}

theorem moveVhPchans_perm {habdevs : List (Option ℕ)} {free taken free' taken' :
    List VhostHabPchannel} {found : Bool}
    (h : moveVhPchans domId vmid habdevs free taken = (found, free', taken')) :
    (free' ++ taken').Perm (free ++ taken) := by
  induction habdevs generalizing free taken with
  | nil =>
      cases h
      exact List.Perm.refl _
  | cons slot habdevs ih =>
      cases slot with
      | none =>
          cases h
          exact List.Perm.refl _
      | some habdev =>
          rw [moveVhPchans] at h
          split at h
          next =>
            cases h
            exact List.Perm.refl _
          next p hfind =>
            have hmem := List.mem_of_find?_eq_some hfind
            have hmoved : (free.erase p ++ (taken ++ [p])).Perm (free ++ taken) := by
              rw [← List.append_assoc]
              refine (List.perm_append_singleton p _).trans ?_
              exact (List.perm_cons_erase hmem).symm.append_right taken
            exact (ih h).trans hmoved

/-- When a channel was found for every device, those of the device come in the order of
the node's devices. -/
theorem moveVhPchans_found {habdevs : List (Option ℕ)} {free taken free' taken' :
    List VhostHabPchannel}
    (h : moveVhPchans domId vmid habdevs free taken = (true, free', taken')) :
    ∃ moved, taken' = taken ++ moved ∧
      moved.map VhostHabPchannel.habdev = (habdevs.takeWhile Option.isSome).filterMap id ∧
      ∀ p ∈ moved, domId p = vmid := by
  induction habdevs generalizing free taken with
  | nil =>
      cases h
      exact ⟨[], (List.append_nil _).symm, rfl, by simp⟩
  | cons slot habdevs ih =>
      cases slot with
      | none =>
          cases h
          exact ⟨[], (List.append_nil _).symm, rfl, by simp⟩
      | some habdev =>
          rw [moveVhPchans] at h
          split at h
          next => cases h
          next p hfind =>
            have hp := List.find?_some hfind
            simp only [VhostHabPchannel.fits, decide_eq_true_eq] at hp
            obtain ⟨moved, hmoved, hdevs, hvmid⟩ := ih h
            refine ⟨p :: moved, by simp [hmoved], ?_, ?_⟩
            · rw [List.map_cons, hp.1, hdevs]
              rfl
            · exact List.forall_mem_cons.mpr ⟨hp.2, hvmid⟩

/-- Taking the channel for one slot leaves the channels that fit other devices. -/
theorem countP_fits_erase {free : List VhostHabPchannel} {p : VhostHabPchannel} {habdev : ℕ}
    (hmem : p ∈ free) (hp : p.fits domId vmid habdev = true) (d : ℕ) :
    (free.erase p).countP (VhostHabPchannel.fits domId vmid d) + (if habdev = d then 1 else 0) =
      free.countP (VhostHabPchannel.fits domId vmid d) := by
  have hperm := (List.perm_cons_erase hmem).countP_eq (VhostHabPchannel.fits domId vmid d)
  rw [hperm, List.countP_cons]
  congr 1
  simp only [VhostHabPchannel.fits, decide_eq_true_eq] at hp
  simp only [VhostHabPchannel.fits, decide_eq_true_eq, hp.1, hp.2, and_true]

/-- The loops succeed if there are channels enough for the slots in front of the first
empty one. -/
theorem moveVhPchans_fst_iff {habdevs : List (Option ℕ)} {free taken : List VhostHabPchannel} :
    (moveVhPchans domId vmid habdevs free taken).1 = true ↔
      ∀ d, ((habdevs.takeWhile Option.isSome).filterMap id).count d ≤
        free.countP (VhostHabPchannel.fits domId vmid d) := by
  induction habdevs generalizing free taken with
  | nil => exact iff_of_true rfl fun _ ↦ Nat.zero_le _
  | cons slot habdevs ih =>
      cases slot with
      | none => exact iff_of_true rfl fun _ ↦ Nat.zero_le _
      | some habdev =>
          have hcount (d : ℕ) :
              (((some habdev :: habdevs).takeWhile Option.isSome).filterMap id).count d =
                ((habdevs.takeWhile Option.isSome).filterMap id).count d +
                  if habdev = d then 1 else 0 := by
            rw [List.takeWhile_cons_of_pos rfl, List.filterMap_cons_some (f := id) rfl,
              List.count_cons]
            simp only [beq_iff_eq]
          simp only [hcount]
          rw [moveVhPchans]
          split
          next hnone =>
            -- no channel for this slot
            have hzero : free.countP (VhostHabPchannel.fits domId vmid habdev) = 0 :=
              List.countP_eq_zero.mpr (List.find?_eq_none.mp hnone)
            refine iff_of_false Bool.false_ne_true fun hall ↦ ?_
            have hle := hall habdev
            rw [if_pos rfl, hzero] at hle
            omega
          next p hfind =>
            rw [ih]
            refine forall_congr' fun d ↦ ?_
            have herase := countP_fits_erase (List.mem_of_find?_eq_some hfind)
              (List.find?_some hfind) d
            omega

end Loops

/-- A list of channels for the devices up to the first empty slot has one for each device
of the node exactly if each lies in one of these slots. -/
theorem VhostHabDev.holdsEach_iff {dev : VhostHabDev}
    (hdevs : dev.vhPchanList.map VhostHabPchannel.habdev = dev.cdev.scanned) :
    dev.HoldsEach ↔ ∀ d, some d ∈ dev.cdev.habdevs → dev.cdev.scanned.count d = 1 := by
  rw [HoldsEach, hdevs]
  refine forall_congr' fun d ↦ ?_
  by_cases hd : some d ∈ dev.cdev.habdevs
  · rw [if_pos hd, forall_prop_of_true hd]
  · rw [if_neg hd]
    refine iff_of_true ?_ fun h ↦ absurd h hd
    refine List.count_eq_zero.mpr fun hmem ↦ hd ?_
    obtain ⟨slot, hslot, rfl⟩ := List.mem_filterMap.mp hmem
    exact List.takeWhile_subset _ hslot

def VhostHabDev.countOf (p : VhostHabPchannel) (dev : VhostHabDev) : ℕ :=
  dev.vhPchanList.count p

namespace VhostHab

variable {s t : VhostHab} {vhPchans : List VhostHabPchannel}

/-- A call fails and leaves the lists as they were, up to order, or it opens a device; it
fails exactly if an allocation fails or channels are short. -/
theorem vhostHabOpen_cases (s : VhostHab) (cdev : VhostHabCdev) (env : VhostOpenEnv) :
    (∃ err list, s.vhostHabOpen cdev env = (some err, { s with vhPchanList := list }) ∧
      list.Perm s.vhPchanList ∧
        (env.vhDev = false ∨ env.vqs = false ∨ s.Short cdev env.domId)) ∨
    ∃ free taken, s.vhostHabOpen cdev env = (none, ⟨free, s.devs.spawn ⟨cdev, taken⟩⟩) ∧
      (free ++ taken).Perm s.vhPchanList ∧
      taken.map VhostHabPchannel.habdev = cdev.scanned ∧ (∀ p ∈ taken, env.domId p = cdev.vmid) ∧
        ¬ (env.vhDev = false ∨ env.vqs = false ∨ s.Short cdev env.domId) := by
  have hshort : s.Short cdev env.domId ↔
      (moveVhPchans env.domId cdev.vmid cdev.habdevs s.vhPchanList []).1 = false := by
    rw [← Bool.not_eq_true, moveVhPchans_fst_iff, Short, not_forall]
    exact exists_congr fun d ↦ (Nat.not_le).symm
  rw [vhostHabOpen]
  split
  next hno => exact .inl ⟨.enomem, s.vhPchanList, rfl, List.Perm.refl _, .inl (by simpa using hno)⟩
  next hdev =>
    split
    next free taken hmove =>
      have hperm := moveVhPchans_perm hmove
      rw [List.append_nil] at hperm
      exact .inl ⟨.enodev, free ++ taken, rfl, hperm, .inr (.inr (hshort.mpr (by rw [hmove])))⟩
    next free taken hmove =>
      have hperm := moveVhPchans_perm hmove
      rw [List.append_nil] at hperm
      obtain ⟨moved, hmoved, hdevs, hvmid⟩ := moveVhPchans_found hmove
      rw [List.nil_append] at hmoved
      subst hmoved
      split
      next hno =>
        exact .inl ⟨.enomem, free ++ taken, rfl, hperm, .inr (.inl (by simpa using hno))⟩
      next hvqs =>
        refine .inr ⟨free, taken, rfl, hperm, hdevs, hvmid, ?_⟩
        rw [hshort, hmove]
        simpa using And.intro hdev hvqs

/-! ## Conservation -/

/-- How often the channel lies on a list. -/
def places (s : VhostHab) (p : VhostHabPchannel) : ℕ :=
  s.vhPchanList.count p + s.devs.sum (VhostHabDev.countOf p)

theorem places_step {a : Act} (hstep : s.step a = some t) (p : VhostHabPchannel) :
    t.places p = s.places p := by
  cases a with
  | vhostHabOpen cdev env =>
      cases hstep
      rcases vhostHabOpen_cases s cdev env with ⟨err, list, hopen, hperm, -⟩ |
        ⟨free, taken, hopen, hperm, -⟩
      · rw [hopen, places, places, hperm.count_eq]
      · have hcount := hperm.count_eq p
        rw [List.count_append] at hcount
        rw [hopen, places, places, Pool.sum_spawn, VhostHabDev.countOf]
        dsimp only
        omega
  | vhostHabRelease i =>
      obtain ⟨dev, hget, rfl⟩ := Option.map_eq_some_iff.mp hstep
      have hsum : (s.devs.set i none).sum (VhostHabDev.countOf p) + dev.vhPchanList.count p =
          s.devs.sum (VhostHabDev.countOf p) + 0 :=
        Pool.sum_set hget none
      rw [vhostHabRelease, places, places, List.count_append]
      dsimp only
      omega

theorem places_of_exec {acts : List Act} (hrun : Runs.exec step (start vhPchans) acts = some s)
    (p : VhostHabPchannel) : s.places p = vhPchans.count p := by
  refine Runs.invariant_of_exec (I := fun u ↦ u.places p = vhPchans.count p) ?_ ?_ hrun
  · intro u a v hu huv
    exact (places_step huv p).trans hu
  · rw [places, start, Pool.sum_empty, Nat.add_zero]

theorem count_listAt_le (s : VhostHab) (p : VhostHabPchannel) (place : Option ℕ) :
    (s.listAt place).count p ≤ s.places p := by
  cases place with
  | none => exact Nat.le_add_right _ _
  | some i =>
      rw [listAt]
      cases hget : s.devs.get i with
      | none => exact Nat.zero_le _
      | some dev =>
          have hle : VhostHabDev.countOf p dev ≤ s.devs.sum (VhostHabDev.countOf p) :=
            Pool.le_sum hget
          exact hle.trans (Nat.le_add_left _ _)

theorem exists_dev_of_mem {i : ℕ} {p : VhostHabPchannel} (h : p ∈ s.listAt (some i)) :
    ∃ dev, s.devs.get i = some dev ∧ 0 < VhostHabDev.countOf p dev := by
  rw [listAt] at h
  cases hget : s.devs.get i with
  | none =>
      rw [hget] at h
      cases h
  | some dev =>
      rw [hget] at h
      exact ⟨dev, rfl, List.count_pos_iff.mpr h⟩

/-- A channel with one place is on one list only. -/
theorem eq_of_mem {p : VhostHabPchannel} (hone : s.places p ≤ 1) {place place' : Option ℕ}
    (h : p ∈ s.listAt place) (h' : p ∈ s.listAt place') : place = place' := by
  have hglobal {i : ℕ} (hfree : p ∈ s.listAt none) : p ∉ s.listAt (some i) := by
    intro hmem
    obtain ⟨dev, hget, hpos⟩ := exists_dev_of_mem hmem
    have hle : VhostHabDev.countOf p dev ≤ s.devs.sum (VhostHabDev.countOf p) :=
      Pool.le_sum hget
    have hcount := List.count_pos_iff.mpr hfree
    rw [listAt] at hcount
    rw [places] at hone
    omega
  cases place with
  | none =>
      cases place' with
      | none => rfl
      | some j => exact absurd h' (hglobal h)
  | some i =>
      cases place' with
      | none => exact absurd h (hglobal h')
      | some j =>
          by_contra hne
          obtain ⟨dev, hget, hpos⟩ := exists_dev_of_mem h
          obtain ⟨dev', hget', hpos'⟩ := exists_dev_of_mem h'
          have hij : i ≠ j := fun heq ↦ hne (congrArg some heq)
          have hle : VhostHabDev.countOf p dev + VhostHabDev.countOf p dev' ≤
              s.devs.sum (VhostHabDev.countOf p) :=
            Pool.add_le_sum hij hget hget'
          rw [places] at hone
          omega

theorem exists_place {p : VhostHabPchannel} (h : 0 < s.places p) :
    ∃ place, p ∈ s.listAt place := by
  rw [places] at h
  rcases Nat.eq_zero_or_pos (s.vhPchanList.count p) with hzero | hpos
  · rw [hzero, Nat.zero_add] at h
    obtain ⟨i, dev, hget, hpos⟩ := Pool.exists_of_sum_pos h
    refine ⟨some i, ?_⟩
    rw [listAt, hget]
    exact List.count_pos_iff.mp hpos
  · exact ⟨none, List.count_pos_iff.mp hpos⟩

theorem exclusive_of_places (hnodup : vhPchans.Nodup)
    (hplaces : ∀ p, s.places p = vhPchans.count p) : Exclusive vhPchans s where
  placed := by
    intro p hp
    have hone : s.places p = 1 := (hplaces p).trans (List.count_eq_one_of_mem hnodup hp)
    obtain ⟨place, hplace⟩ := exists_place (s := s) (p := p) (by omega)
    exact ⟨place, hplace, fun place' hplace' ↦ eq_of_mem (by omega) hplace' hplace⟩
  nodup := by
    intro place
    rw [List.nodup_iff_count_le_one]
    intro p
    have hle := (count_listAt_le s p place).trans_eq (hplaces p)
    exact hle.trans (List.nodup_iff_count_le_one.mp hnodup p)
  known := by
    intro place p hp
    have hpos := List.count_pos_iff.mpr hp
    have hle := (count_listAt_le s p place).trans_eq (hplaces p)
    exact List.count_pos_iff.mp (hpos.trans_le hle)

/-! ## The calls of `vhost_hab_open` -/

/-- An open comes out as it should exactly if it meets the condition. -/
theorem delivers_iff_whole (s : VhostHab) (a : Act) : s.Delivers a ↔ s.Whole a := by
  cases a with
  | vhostHabRelease i => exact Iff.rfl
  | vhostHabOpen cdev env =>
      rw [Delivers, Whole]
      rcases vhostHabOpen_cases s cdev env with ⟨err, list, hopen, hperm, hfails⟩ |
        ⟨free, taken, hopen, hperm, hdevs, hvmid, hgood⟩
      · refine iff_of_true ?_ (.inr hfails)
        rw [hopen]
        refine ⟨fun _ place p ↦ ?_, fun hnone ↦ absurd hnone (Option.some_ne_none err)⟩
        cases place with
        | none => exact hperm.mem_iff
        | some i => exact Iff.rfl
      · rw [hopen, or_iff_left hgood]
        have hget : (s.devs.spawn ⟨cdev, taken⟩).get s.devs.next = some ⟨cdev, taken⟩ :=
          Pool.get_spawn.mpr (.inl ⟨rfl, rfl⟩)
        rw [← @VhostHabDev.holdsEach_iff ⟨cdev, taken⟩ hdevs]
        constructor
        · intro houtcome
          obtain ⟨dev, hdev, -, hholds, -⟩ := houtcome.opened rfl
          rw [Option.some.inj (hget.symm.trans hdev)]
          exact hholds
        · intro hholds
          exact ⟨fun hne ↦ absurd rfl hne, fun _ ↦ ⟨⟨cdev, taken⟩, hget, rfl, hholds, hvmid⟩⟩

/-- After opens that came out as they should, each open device has a channel for each
device of its node. -/
theorem holdsEach_of_meets {acts : List Act}
    (hmeets : Runs.Meets step Delivers (start vhPchans) acts)
    (hrun : Runs.exec step (start vhPchans) acts = some s) :
    ∀ i dev, s.devs.get i = some dev → dev.HoldsEach := by
  refine Runs.invariant_of_meets
    (I := fun u : VhostHab ↦ ∀ i dev, u.devs.get i = some dev → dev.HoldsEach) ?_ ?_ hmeets hrun
  · intro u a v hu hdelivers huv j dev hget
    cases a with
    | vhostHabOpen cdev env =>
        cases huv
        rw [Delivers] at hdelivers
        rcases vhostHabOpen_cases u cdev env with ⟨err, list, hopen, -⟩ | ⟨free, taken, hopen, -⟩
        · rw [hopen] at hget
          exact hu j dev hget
        · rw [hopen] at hget hdelivers
          rcases Pool.get_spawn.mp hget with ⟨rfl, -⟩ | hold
          · obtain ⟨dev', hget', -, hholds, -⟩ := hdelivers.opened rfl
            rwa [Option.some.inj (hget.symm.trans hget')]
          · exact hu j dev hold
    | vhostHabRelease k =>
        obtain ⟨dev', hget', rfl⟩ := Option.map_eq_some_iff.mp huv
        rcases (Pool.get_set (Pool.lt_next hget')).mp hget with ⟨-, hnone⟩ | ⟨-, hold⟩
        · cases hnone
        · exact hu j dev hold
  · intro j dev hget
    cases hget

/-- What is claimed of a run: the channels keep to the lists, each open comes out as it
should, and the devices that are open at the end have their channels. -/
structure Owned (vhPchans : List VhostHabPchannel) (acts : List Act) (s : VhostHab) : Prop where
  exclusive : Exclusive vhPchans s
  delivers : Runs.Meets step Delivers (start vhPchans) acts
  holds : ∀ i dev, s.devs.get i = some dev → dev.HoldsEach

/-- The channels belong where they should exactly in the runs whose opens are of whole
nodes or fail. -/
theorem owned_iff_whole (hnodup : vhPchans.Nodup) {acts : List Act}
    (hrun : Runs.exec step (start vhPchans) acts = some s) :
    Owned vhPchans acts s ↔ Runs.Meets step Whole (start vhPchans) acts := by
  have hguards : Delivers = Whole := by
    funext u a
    exact propext (delivers_iff_whole u a)
  rw [← hguards]
  constructor
  · exact Owned.delivers
  · intro hmeets
    exact ⟨exclusive_of_places hnodup (places_of_exec hrun), hmeets, holdsEach_of_meets hmeets hrun⟩

/-- The all-area node and a group node of one VM with two hab devices. -/
def allArea : VhostHabCdev := ⟨2, [some 101, some 102] ++ List.replicate 24 none⟩

def audioGroup : VhostHabCdev := ⟨2, some 102 :: List.replicate 25 none⟩

/-- The channels of both devices, all of VM 2. -/
def twoChannels : List VhostHabPchannel := [⟨0, 101⟩, ⟨1, 102⟩]

def vmTwo : VhostOpenEnv := ⟨fun _ ↦ 2, true, true⟩

/-- The group node is opened, the all-area node cannot be, and the group is released. -/
def sharedDevices : List Act :=
  [.vhostHabOpen audioGroup vmTwo, .vhostHabOpen allArea vmTwo, .vhostHabRelease 0,
    .vhostHabOpen allArea vmTwo]

theorem owned_iff_whole_sharedDevices :
    ∃ s, Runs.exec step (start twoChannels) sharedDevices = some s ∧ s.vhPchanList = [] ∧
      Owned twoChannels sharedDevices s := by
  have hseen : (Runs.exec step (start twoChannels) sharedDevices).map vhPchanList = some [] := by
    decide
  obtain ⟨s, hrun, hseen⟩ := Option.map_eq_some_iff.mp hseen
  refine ⟨s, hrun, hseen, (owned_iff_whole (by decide) hrun).mpr ?_⟩
  have hgroup (d : ℕ) (hd : some d ∈ audioGroup.habdevs) : audioGroup.scanned.count d = 1 := by
    have hdevs : some d ∈ audioGroup.habdevs → d = 102 := by simp [audioGroup]
    rw [hdevs hd]
    decide
  have hall (d : ℕ) (hd : some d ∈ allArea.habdevs) : allArea.scanned.count d = 1 := by
    have hdevs : some d ∈ allArea.habdevs → d = 101 ∨ d = 102 := by simp [allArea]
    rcases hdevs hd with rfl | rfl <;> decide
  exact ⟨.inl hgroup, .inl hall, trivial, .inl hall, trivial⟩

/-- The all-area node after the device 101 was deleted from it. -/
def holed : VhostHabCdev := ⟨2, [none, some 102] ++ List.replicate 24 none⟩

/-- An open of that node returns 0 and has no channel. -/
theorem not_owned_holed :
    ¬ ∀ (vhPchans : List VhostHabPchannel) (acts : List Act) (s : VhostHab), vhPchans.Nodup →
      Runs.exec step (start vhPchans) acts = some s → Owned vhPchans acts s := by
  intro h
  have hopen : ((start twoChannels).vhostHabOpen holed vmTwo).1 = none := by decide
  have howned := h twoChannels [.vhostHabOpen holed vmTwo] _ (by decide) rfl
  obtain ⟨dev, hget, hcdev, hholds, -⟩ := howned.delivers.1.opened hopen
  have hnone : (((start twoChannels).vhostHabOpen holed vmTwo).2.devs.get 0).map
      VhostHabDev.vhPchanList = some [] := by
    decide
  change ((start twoChannels).vhostHabOpen holed vmTwo).2.devs.get 0 = some dev at hget
  rw [hget, Option.map_some, Option.some.injEq] at hnone
  have hcount := hholds 102
  rw [hnone, hcdev, if_pos (by decide)] at hcount
  cases hcount

end VhostHab

end Hab
