import Hab.VchanThreads

/-!
# Who holds what of a vchan

Every thread stands for something: a reference, a vchan that it is setting up or freeing,
a list that a vchan is not on yet or no longer on.  Counted over all threads these
account for the reference count of each vchan, for its places and for the references to
the context.
-/

namespace Hab

/-- What a thread stands for. -/
structure View where
  /-- It has a reference to the vchan. -/
  holds : Option ℕ := none
  /-- It sets the vchan up, and the reference count is still 0. -/
  raw : Option ℕ := none
  /-- It has put the last reference to the vchan. -/
  frees : Option ℕ := none
  /-- It is to put the vchan into the context. -/
  opens : Option ℕ := none
  /-- `vchan->ctx` is not set yet. -/
  preCtx : Option ℕ := none
  /-- The vchan has no reference to the context yet, or no longer. -/
  noCtx : Option ℕ := none
  /-- The vchan is not on the list of its pchan yet, or no longer. -/
  offPchan : Option ℕ := none
  /-- The vchan is no longer in `vchan_idr`. -/
  offIdr : Option ℕ := none
  /-- It has put the vchan into the context, and is to read its id. -/
  published : Option ℕ := none
  /-- It goes on to the vchan when it takes `ctx_lock` next. -/
  saved : Option ℕ := none
  /-- It has the reference of the file to the context. -/
  releases : Bool := false
  ctxFrees : Bool := false

def AfterPut.saved : AfterPut → Option ℕ
  | .done => none
  | .walk tmp => tmp

def AfterPut.releases : AfterPut → Bool
  | .done => false
  | .walk _ => true

def VchanThread.view : VchanThread → View
  | .allocated v _ =>
      { raw := some v, opens := some v, preCtx := some v, noCtx := some v, offPchan := some v }
  | .listed v => { raw := some v, opens := some v, preCtx := some v, noCtx := some v }
  | .counted v => { holds := some v, opens := some v, preCtx := some v, noCtx := some v }
  | .referring v => { holds := some v, opens := some v, preCtx := some v }
  | .opening v => { holds := some v, opens := some v }
  | .opened v => { published := some v }
  | .sending v | .leaked v | .receiving v | .handling v => { holds := some v }
  | .closing v _ after =>
      { holds := some v, saved := after.saved, releases := after.releases }
  | .freeing v stage after =>
      { frees := some v
        offPchan := if stage = .purge ∨ stage = .unlist then none else some v
        noCtx := if stage = .purge ∨ stage = .unlist ∨ stage = .ctxPut then none else some v
        offIdr := if stage = .pchanPut ∨ stage = .kfree then some v else none
        saved := after.saved
        releases := after.releases }
  | .ctxFreeing v after =>
      { frees := v
        offPchan := v
        noCtx := v
        saved := after.saved
        releases := after.releases
        ctxFrees := true }
  | .releasing | .filePut => { releases := true }
  | .walking tmp => { saved := tmp, releases := true }

namespace VchanSystem

/-- How many threads pass a test on what they stand for. -/
def count (s : VchanSystem) (test : View → Bool) : ℕ := s.threads.count fun t ↦ test t.view

/-- How many threads stand for a vchan in one way. -/
def num (s : VchanSystem) (field : View → Option ℕ) (v : ℕ) : ℕ :=
  s.count fun view ↦ field view = some v

/-- How many vchans have a reference to the context. -/
def ctxRefs (s : VchanSystem) : ℕ :=
  Pool.countBelow VchanCell.ctxRef (fun v ↦ some (s.vchan v)) s.nextVchan

/-- 1 for a vchan that has been allocated. -/
def known (s : VchanSystem) (v : ℕ) : ℕ := if v < s.nextVchan then 1 else 0

theorem known_le (s : VchanSystem) (v : ℕ) : s.known v ≤ 1 := by
  unfold known
  split
  · exact Nat.le_refl 1
  · exact Nat.zero_le 1

/-- The account of one vchan: `n` is how many threads stand for it in which way, `onCtx`
and `onPchan` how often it is on the two lists. -/
structure Account (c : VchanCell) (known freed : ℕ) (died : Bool) (onCtx onPchan : ℕ)
    (n : (View → Option ℕ) → ℕ) : Prop where
  refs : c.refcount = n View.holds + onCtx
  /-- It is being set up, alive, being freed or freed. -/
  life : n View.raw + min 1 c.refcount + n View.frees + freed = known
  died : died.toNat = n View.frees + freed
  place : onPchan + n View.offPchan + freed = known
  ctxRef : c.ctxRef.toNat + n View.noCtx + freed = known
  ctx : c.ctx.toNat + n View.preCtx = known
  opener : n View.opens + onCtx ≤ known
  id : n View.raw = 0 → known = 1 → c.id = habVcid c.pchan c.idr

def Cell (s : VchanSystem) (v : ℕ) : Prop :=
  Account (s.vchan v) (s.known v) (s.freed v) (s.died v) (s.vchannels.count v)
    (s.pchannels.count v) (s.num · v)

structure Inv (s : VchanSystem) : Prop where
  cell : ∀ v, Cell s v
  idr : ∀ p i v, s.vchanIdr p i = some v →
    v < s.nextVchan ∧ (s.vchan v).pchan = p ∧ (s.vchan v).idr = i ∧
      s.num View.offIdr v + s.freed v = 0
  ctxCount : s.ctxRefcount = s.file.toNat + s.count View.releases + s.ctxRefs
  /-- The context is alive, being freed or freed. -/
  ctxLife : min 1 s.ctxRefcount + s.count View.ctxFrees + s.ctxFreed = 1
  oneRelease : s.file.toNat + s.count View.releases ≤ 1
  published : ∀ i t v, s.threads.get i = some t → t.view.published = some v → v ∈ s.vchannels
  saved : ∀ i t v, s.threads.get i = some t → t.view.saved = some v → v ∈ s.vchannels
  clean : s.useAfterFree = false
  kept : s.revived = false

/-! ## Counting threads -/

variable {s : VchanSystem} {i v : ℕ} {t : VchanThread}

/-- The state after a thread has gone on. -/
def goOn (s : VchanSystem) (i : ℕ) (t' : Option VchanThread) : VchanSystem :=
  { s with threads := s.threads.set i t' }

/-- The state after a call has started. -/
def begin (s : VchanSystem) (t : VchanThread) : VchanSystem :=
  { s with threads := s.threads.spawn t }

theorem count_goOn (h : s.threads.get i = some t) (t' : Option VchanThread)
    (test : View → Bool) :
    (s.goOn i t').count test + (test t.view).toNat =
      s.count test + (t'.any fun t ↦ test t.view).toNat :=
  Pool.count_set h t'

/-- How a thread that goes on changes what is counted for a vchan. -/
theorem num_goOn (h : s.threads.get i = some t) (t' : Option VchanThread)
    (field : View → Option ℕ) (w : ℕ) :
    (s.goOn i t').num field w + (if field t.view = some w then 1 else 0) =
      s.num field w + if (t'.bind fun t ↦ field t.view) = some w then 1 else 0 := by
  have hcount := count_goOn h t' fun view ↦ decide (field view = some w)
  have htest : ∀ view : Option ℕ, (decide (view = some w)).toNat =
      if view = some w then 1 else 0 := by
    intro view
    by_cases hview : view = some w <;> simp [hview]
  cases t' with
  | none => simpa [num, htest] using hcount
  | some t' => simpa [num, htest] using hcount

theorem count_begin (t : VchanThread) (test : View → Bool) :
    (s.begin t).count test = s.count test + (test t.view).toNat :=
  Pool.count_spawn t

theorem num_pos {field : View → Option ℕ} (h : s.threads.get i = some t)
    (hv : field t.view = some v) : 0 < s.num field v :=
  Pool.count_pos h (by simp [hv])

theorem count_pos {test : View → Bool} (h : s.threads.get i = some t)
    (hv : test t.view = true) : 0 < s.count test :=
  Pool.count_pos h hv

/-- A thread that stands for the same does not change any count. -/
theorem count_goOn_of_view {t' : VchanThread} (h : s.threads.get i = some t)
    (hview : t'.view = t.view) (test : View → Bool) :
    (s.goOn i (some t')).count test = s.count test := by
  have hcount := count_goOn h (some t') test
  simpa [hview] using hcount

theorem some_update (f : ℕ → VchanCell) (w : ℕ) (c : VchanCell) :
    (fun v ↦ some (Function.update f w c v)) =
      Function.update (fun v ↦ some (f v)) w (some c) := by
  funext v
  by_cases hv : v = w
  · subst hv
    simp
  · simp [hv]

theorem ctxRefs_update {f : ℕ → VchanCell} {n w : ℕ} (hw : w < n) (c : VchanCell) :
    Pool.countBelow VchanCell.ctxRef (fun v ↦ some (Function.update f w c v)) n +
        (f w).ctxRef.toNat =
      Pool.countBelow VchanCell.ctxRef (fun v ↦ some (f v)) n + c.ctxRef.toNat := by
  rw [some_update]
  exact Pool.countBelow_update hw (some c)

theorem ctxRefs_congr {f g : ℕ → VchanCell} (hfg : ∀ v, (f v).ctxRef = (g v).ctxRef) (n : ℕ) :
    Pool.countBelow VchanCell.ctxRef (fun v ↦ some (f v)) n =
      Pool.countBelow VchanCell.ctxRef (fun v ↦ some (g v)) n := by
  induction n with
  | zero => rfl
  | succ n ih => simp [Pool.countBelow, ih, hfg n]

/-! ## Nothing that is reached has been freed -/

namespace Inv

theorem freed_of_refcount (h : Inv s) (hv : (s.vchan v).refcount ≠ 0) : s.freed v = 0 := by
  have hlife := (h.cell v).life
  have hknown := s.known_le v
  omega

theorem freed_of_mem_vchannels (h : Inv s) (hv : v ∈ s.vchannels) : s.freed v = 0 := by
  have hcount := List.count_pos_iff.mpr hv
  have hrefs := (h.cell v).refs
  exact h.freed_of_refcount (by omega)

theorem freed_of_mem_pchannels (h : Inv s) (hv : v ∈ s.pchannels) : s.freed v = 0 := by
  have hcount := List.count_pos_iff.mpr hv
  have hplace := (h.cell v).place
  have hknown := s.known_le v
  omega

theorem freed_of_holds (h : Inv s) (hi : s.threads.get i = some t)
    (hv : t.view.holds = some v) : s.freed v = 0 := by
  have hpos := num_pos hi hv
  have hrefs := (h.cell v).refs
  exact h.freed_of_refcount (by omega)

theorem freed_of_raw (h : Inv s) (hi : s.threads.get i = some t)
    (hv : t.view.raw = some v) : s.freed v = 0 := by
  have hpos := num_pos hi hv
  have hlife := (h.cell v).life
  have hknown := s.known_le v
  omega

theorem freed_of_frees (h : Inv s) (hi : s.threads.get i = some t)
    (hv : t.view.frees = some v) : s.freed v = 0 := by
  have hpos := num_pos hi hv
  have hlife := (h.cell v).life
  have hknown := s.known_le v
  omega

theorem freed_of_idr (h : Inv s) {p : HabPchan} {n : Fin 4096} (hv : s.vchanIdr p n = some v) :
    s.freed v = 0 := by
  have hidr := (h.idr p n v hv).2.2.2
  omega

end Inv

/-- Vchans that have not been freed can be read and written. -/
theorem touch_of_freed {vs : List ℕ} (h : ∀ v ∈ vs, s.freed v = 0) : s.touch vs = s := by
  have hany : (vs.any fun v ↦ decide (s.freed v ≠ 0)) = false := by
    rw [List.any_eq_false]
    intro v hv
    simp [h v hv]
  simp only [touch, hany, Bool.or_false]

theorem touch_singleton (h : s.freed v = 0) : s.touch [v] = s := by
  apply touch_of_freed
  intro w hw
  rw [List.mem_singleton.mp hw]
  exact h

theorem touch_vchannels (h : Inv s) : s.touch s.vchannels = s :=
  touch_of_freed fun _ hv ↦ h.freed_of_mem_vchannels hv

theorem touch_onPchan (h : Inv s) (p : HabPchan) : s.touch (s.onPchan p) = s :=
  touch_of_freed fun _ hv ↦ h.freed_of_mem_pchannels (List.mem_filter.mp hv).1

/-! ## Steps that move nothing -/

/-- The fields of a vchan that the account is about. -/
def VchanCell.Same (c c' : VchanCell) : Prop :=
  c'.pchan = c.pchan ∧ c'.idr = c.idr ∧ c'.id = c.id ∧ c'.refcount = c.refcount ∧
    c'.ctx = c.ctx ∧ c'.ctxRef = c.ctxRef

/-- A vchan may change in the fields that nothing is counted by. -/
theorem Inv.vchan (h : Inv s) {f : ℕ → VchanCell}
    (hf : ∀ v, VchanCell.Same (s.vchan v) (f v)) : Inv { s with vchan := f } := by
  have hrefs : ctxRefs { s with vchan := f } = s.ctxRefs :=
    ctxRefs_congr (fun v ↦ (hf v).2.2.2.2.2) s.nextVchan
  refine ⟨?_, ?_, ?_, h.ctxLife, h.oneRelease, h.published, h.saved, h.clean, h.kept⟩
  · intro v
    obtain ⟨hpchan, hidr, hid, hrefcount, hctx, hctxRef⟩ := hf v
    have hv := h.cell v
    refine ⟨hrefcount.trans hv.refs, ?_, hv.died, hv.place, ?_, ?_, hv.opener, ?_⟩
    · rw [hrefcount]
      exact hv.life
    · rw [hctxRef]
      exact hv.ctxRef
    · rw [hctx]
      exact hv.ctx
    · rw [hid, hpchan, hidr]
      exact hv.id
  · intro p n v hn
    obtain ⟨hpchan, hidr, -⟩ := hf v
    obtain ⟨hlt, hp, hn', hoff⟩ := h.idr p n v hn
    exact ⟨hlt, hpchan.trans hp, hidr.trans hn', hoff⟩
  · rw [hrefs]
    exact h.ctxCount

/-- A thread may go on to a stage in which it stands for the same. -/
theorem Inv.goOn_of_view (h : Inv s) {t' : VchanThread} (hi : s.threads.get i = some t)
    (hview : t'.view = t.view) : Inv (s.goOn i (some t')) := by
  have hcount := count_goOn_of_view hi hview
  have hnum : ∀ field v, (s.goOn i (some t')).num field v = s.num field v :=
    fun field v ↦ hcount fun view ↦ field view = some v
  refine ⟨?_, ?_, ?_, ?_, ?_, ?_, ?_, h.clean, h.kept⟩
  · intro v
    have hfun : (fun field ↦ (s.goOn i (some t')).num field v) = (s.num · v) :=
      funext fun field ↦ hnum field v
    show Account _ _ _ _ _ _ fun field ↦ (s.goOn i (some t')).num field v
    rw [hfun]
    exact h.cell v
  · intro p n v hn
    rw [hnum]
    exact h.idr p n v hn
  · rw [hcount]
    exact h.ctxCount
  · rw [hcount]
    exact h.ctxLife
  · rw [hcount]
    exact h.oneRelease
  · intro j k v hj hv
    refine Pool.forall_set (P := fun _ t ↦ t.view.published = some v → v ∈ s.vchannels)
      (Pool.lt_next hi) ?_ (fun j k _ hk ↦ h.published j k v hk) hj hv
    rintro _ ⟨⟩ hv
    exact h.published i t v hi (hview ▸ hv)
  · intro j k v hj hv
    refine Pool.forall_set (P := fun _ t ↦ t.view.saved = some v → v ∈ s.vchannels)
      (Pool.lt_next hi) ?_ (fun j k _ hk ↦ h.saved j k v hk) hj hv
    rintro _ ⟨⟩ hv
    exact h.saved i t v hi (hview ▸ hv)

end VchanSystem

end Hab
