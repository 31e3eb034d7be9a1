import Hab.VchanSteps

/-!
# The context of the vchans

The references to the context, what is taken off its list, and the calls that start.
-/

namespace Hab

namespace VchanSystem

variable {s : VchanSystem} {i v : ℕ} {t : VchanThread} {after : AfterPut}

/-! ## Putting the context -/

/-- The vchan that is freed gives its reference to the context up. -/
theorem Inv.ctxPut (h : Inv s) (hi : s.threads.get i = some (.freeing v .ctxPut after)) :
    Inv (goOn { s.modify v fun vchan ↦ { vchan with ctxRef := false } with
      ctxRefcount := s.ctxRefcount - 1 } i
        (some (if s.ctxRefcount = 1 then .ctxFreeing (some v) after
          else .freeing v .idrRemove after))) := by
  obtain ⟨⟨hknown, hzero, hfreed, hraw, hfrees⟩, hoff, hctx, hidr⟩ := h.freeing hi rfl
  have hlt : v < s.nextVchan := h.lt_next (.inr (.inr rfl)) hi rfl
  obtain ⟨t', ht'⟩ : ∃ t', t' = (if s.ctxRefcount = 1 then VchanThread.ctxFreeing (some v) after
      else .freeing v .idrRemove after) := ⟨_, rfl⟩
  have hview : t'.view = { frees := some v
                           offPchan := some v
                           noCtx := some v
                           saved := after.saved
                           releases := after.releases
                           ctxFrees := decide (s.ctxRefcount = 1) } := by
    rw [ht']
    split <;> rename_i hlast <;> simp [VchanThread.view, hlast]
  have habout : t'.vchan = some v := by
    rw [ht']
    split <;> rfl
  rw [← ht']
  obtain ⟨refs, life, died, place, ctxRef, ctx, opener, id⟩ := h.cell v
  have hhad : (s.vchan v).ctxRef = true := by
    simp [VchanThread.view] at hctx
    cases hc : (s.vchan v).ctxRef with
    | true => rfl
    | false =>
        rw [hc, Bool.toNat_false] at ctxRef
        omega
  have hback := @Inv.later_goOn s i _ (some t') s h hi rfl (fun _ _ _ _ _ _ hw ↦ hw) (by
    rintro k w ⟨⟩ hw
    rw [hview] at hw
    rcases hw with ⟨⟨⟩⟩ | hw
    exact h.saved i _ w hi hw)
  have hrel := count_goOn hi (some t') View.releases
  have hfree := count_goOn hi (some t') View.ctxFrees
  simp only [Option.any_some, hview] at hrel hfree
  simp only [VchanThread.view, Bool.toNat_false, Nat.add_zero] at hrel hfree
  -- the context loses one reference, and one vchan that has one
  have hrefs : ctxRefs (s.modify v fun vchan ↦ { vchan with ctxRef := false }) + 1 =
      s.ctxRefs := by
    have hupdate := ctxRefs_update (f := s.vchan) hlt { s.vchan v with ctxRef := false }
    rw [hhad] at hupdate
    exact hupdate
  have hcount := h.ctxCount
  have hlife := h.ctxLife
  refine ⟨cell_goOn v h hi ?_ ?_ ?_ rfl rfl ?_, ?_, ?_, ?_, ?_, hback.1, hback.2, h.clean, h.kept⟩
  · rintro w ⟨⟩
    rfl
  · rintro k w ⟨⟩ hw
    exact Option.some.inj (hw.symm.trans habout)
  · intro w hw
    simp [modify, hw]
  · obtain ⟨hholds', hraw', hfrees', hopens', hpreCtx', hnoCtx', hoffPchan'⟩ :=
      nums_goOn hi (some t') v
    simp [hview] at hholds' hraw' hfrees' hopens' hpreCtx' hnoCtx' hoffPchan'
    simp [VchanThread.view] at hoff hctx hholds' hraw' hfrees' hopens' hpreCtx' hnoCtx' hoffPchan'
    constructor
    case id =>
      intro hz
      simpa [modify] using id (by omega)
    all_goals
      simp [modify]
      omega
  · intro p n w hw
    obtain ⟨hlt', hp, hn, -⟩ := h.idr p n w hw
    refine ⟨hlt', ?_, ?_, ?_⟩
    · by_cases hwv : w = v
      · subst hwv
        simpa [goOn, modify] using hp
      · simpa [goOn, modify, hwv] using hp
    · by_cases hwv : w = v
      · subst hwv
        simpa [goOn, modify] using hn
      · simpa [goOn, modify, hwv] using hn
    · show (s.goOn i (some t')).num View.offIdr w + s.freed w = 0
      rw [h.offIdr_goOn hi (by
        rintro k w ⟨⟩ hw
        rw [hview] at hw
        cases hw) hw, h.freed_of_idr hw]
  · show s.ctxRefcount - 1 = s.file.toNat + (s.goOn i (some t')).count View.releases +
      ctxRefs (s.modify v fun vchan ↦ { vchan with ctxRef := false })
    omega
  · show min 1 (s.ctxRefcount - 1) + (s.goOn i (some t')).count View.ctxFrees + s.ctxFreed = 1
    by_cases hlast : s.ctxRefcount = 1
    · simp [hlast] at hfree hlife ⊢
      omega
    · simp [hlast] at hfree
      omega
  · show s.file.toNat + (s.goOn i (some t')).count View.releases ≤ 1
    have hone := h.oneRelease
    omega

/-- The thread stands for the same vchans afterwards, in the same ways. -/
theorem Inv.cell_of_fields {X : VchanSystem} {t' : Option VchanThread} (h : Inv s)
    (hi : s.threads.get i = some t)
    (hfields : ∀ field ∈ View.fields, (t'.bind fun k ↦ field k.view) = field t.view)
    (hsame : X.vchan = s.vchan ∧ X.nextVchan = s.nextVchan ∧ X.freed = s.freed ∧
      X.died = s.died ∧ X.vchannels = s.vchannels ∧ X.pchannels = s.pchannels ∧
        X.threads = s.threads) (w : ℕ) : Cell (X.goOn i t') w := by
  obtain ⟨hvchan, hnext, hfreed, hdied, hctx, hpchan, hthreads⟩ := hsame
  have hknown : (X.goOn i t').known w = s.known w := by
    simp only [known, goOn, hnext]
  show Account (X.vchan w) ((X.goOn i t').known w) (X.freed w) (X.died w) (X.vchannels.count w)
    (X.pchannels.count w) fun field ↦ (X.goOn i t').num field w
  rw [hknown, hvchan, hfreed, hdied, hctx, hpchan]
  apply (h.cell w).congr
  intro field hfield
  have hnum := num_goOn hi t' field w
  rw [hfields field hfield] at hnum
  simp only [num, count, goOn, hthreads] at hnum ⊢
  omega

/-- The thread puts the context or frees it, and stands for the same vchans afterwards. -/
theorem Inv.goOn_context {t' : Option VchanThread} {n m : ℕ} (h : Inv s)
    (hi : s.threads.get i = some t)
    (hfields : ∀ field ∈ View.fields, (t'.bind fun k ↦ field k.view) = field t.view)
    (hlater : ∀ k w, t' = some k → k.view.published = some w ∨ k.view.saved = some w →
      t.view.saved = some w)
    (hreleases : (t'.any fun k ↦ k.view.releases).toNat ≤ t.view.releases.toNat)
    (hn : n + t.view.releases.toNat =
      s.ctxRefcount + (t'.any fun k ↦ k.view.releases).toNat)
    (hm : min 1 n + (t'.any fun k ↦ k.view.ctxFrees).toNat + m =
      min 1 s.ctxRefcount + t.view.ctxFrees.toNat + s.ctxFreed) :
    Inv (goOn { s with ctxRefcount := n, ctxFreed := m } i t') := by
  have hrel := count_goOn hi t' View.releases
  have hfree := count_goOn hi t' View.ctxFrees
  have hback := @Inv.later_goOn s i _ t' s h hi rfl (fun _ _ _ _ _ _ hw ↦ hw)
    fun k w hk hw ↦ h.saved i t w hi (hlater k w hk hw)
  refine ⟨h.cell_of_fields hi hfields ⟨rfl, rfl, rfl, rfl, rfl, rfl, rfl⟩, ?_, ?_, ?_, ?_,
    hback.1, hback.2, h.clean, h.kept⟩
  · intro p n w hw
    obtain ⟨hlt, hp, hn, hoff⟩ := h.idr p n w hw
    refine ⟨hlt, hp, hn, ?_⟩
    have hnum := num_goOn hi t' View.offIdr w
    rw [hfields View.offIdr (by simp [View.fields])] at hnum
    show (s.goOn i t').num View.offIdr w + s.freed w = 0
    omega
  · show n = s.file.toNat + (s.goOn i t').count View.releases + s.ctxRefs
    have hcount := h.ctxCount
    omega
  · show min 1 n + (s.goOn i t').count View.ctxFrees + m = 1
    have hlife := h.ctxLife
    omega
  · show s.file.toNat + (s.goOn i t').count View.releases ≤ 1
    have hone := h.oneRelease
    omega

theorem Inv.ctxFreed {v : Option ℕ} (h : Inv s)
    (hi : s.threads.get i = some (.ctxFreeing v after)) :
    Inv (goOn { s with ctxFreed := s.ctxFreed + 1 } i
      (v.elim after.resume fun v ↦ some (.freeing v .idrRemove after))) := by
  apply h.goOn_context hi
  case hfields =>
    intro field hfield
    cases v with
    | none =>
        refine (after.field_resume hfield).trans ?_
        simp only [View.fields, List.mem_cons, List.not_mem_nil, or_false] at hfield
        rcases hfield with rfl | rfl | rfl | rfl | rfl | rfl | rfl | rfl <;> rfl
    | some v =>
        simp only [View.fields, List.mem_cons, List.not_mem_nil, or_false] at hfield
        rcases hfield with rfl | rfl | rfl | rfl | rfl | rfl | rfl | rfl <;> rfl
  case hlater =>
    intro k w hk hw
    cases v with
    | none => exact AfterPut.later_resume hk hw
    | some v =>
        cases hk
        rcases hw with ⟨⟨⟩⟩ | hw
        exact hw
  case hreleases =>
    cases v with
    | none => exact Nat.le_of_eq (congrArg _ after.releases_resume)
    | some v => exact Nat.le_refl _
  case hn =>
    cases v with
    | none =>
        rw [Option.elim_none, after.releases_resume]
        rfl
    | some v => rfl
  case hm =>
    have hfree : ((v.elim after.resume fun v ↦ some (.freeing v .idrRemove after)).any
        fun k ↦ k.view.ctxFrees) = false := by
      cases v with
      | none => exact after.ctxFrees_resume
      | some v => rfl
    rw [hfree]
    simp only [VchanThread.view, Bool.toNat_false, Bool.toNat_true]
    omega

theorem Inv.filePut (h : Inv s) (hi : s.threads.get i = some .filePut) :
    Inv (goOn { s with ctxRefcount := s.ctxRefcount - 1 } i
      (if s.ctxRefcount = 1 then some (.ctxFreeing none .done) else none)) := by
  have hpos : 0 < s.count View.releases := count_pos hi rfl
  have hcount := h.ctxCount
  have hlife := h.ctxLife
  apply h.goOn_context hi
  case hfields =>
    intro field hfield
    simp only [View.fields, List.mem_cons, List.not_mem_nil, or_false] at hfield
    split <;> rcases hfield with rfl | rfl | rfl | rfl | rfl | rfl | rfl | rfl <;> rfl
  case hlater =>
    intro k w hk hw
    split at hk
    · cases hk
      rcases hw with ⟨⟨⟩⟩ | ⟨⟨⟩⟩
    · cases hk
  case hreleases => split <;> exact Nat.zero_le _
  case hn =>
    split <;> simp [VchanThread.view, AfterPut.releases] <;> omega
  case hm =>
    split <;> simp [VchanThread.view] <;> omega

/-! ## Taking a vchan off the context -/

theorem VchanThread.releases_of_saved {t : VchanThread} {w : ℕ}
    (h : t.view.saved = some w) : t.view.releases = true := by
  have hafter : ∀ after : AfterPut, after.saved = some w → after.releases = true := by
    intro after hw
    cases after with
    | done => cases hw
    | walk tmp => rfl
  cases t with
  | closing v stage after => exact hafter after h
  | freeing v stage after => exact hafter after h
  | ctxFreeing v after => exact hafter after h
  | walking tmp => rfl
  | _ => cases h

theorem nextEntry_mem {l : List ℕ} {w : ℕ} (h : nextEntry v l = some w) : w ∈ l.erase v := by
  induction l with
  | nil => cases h
  | cons x rest ih =>
      by_cases hx : x = v
      · subst hx
        rw [nextEntry, if_pos rfl] at h
        rw [List.erase_cons_head]
        exact List.mem_of_head? h
      · rw [nextEntry, if_neg hx] at h
        rw [List.erase_cons_tail (by simpa using hx)]
        exact List.mem_cons_of_mem x (ih h)

theorem unlist_eq (h : Inv s) (hv : v ∈ s.vchannels) :
    s.unlist v = { s.modify v fun vchan ↦ { vchan with closed := true } with
      vchannels := s.vchannels.erase v } := by
  rw [unlist, touch_singleton (h.freed_of_mem_vchannels hv)]

/-- A vchan on the context is alive, and is there once. -/
theorem Inv.count_vchannels (h : Inv s) (hv : v ∈ s.vchannels) :
    s.vchannels.count v = 1 ∧ s.known v = 1 ∧ s.num View.opens v = 0 := by
  have hpos := List.count_pos_iff.mpr hv
  have hopener := (h.cell v).opener
  have hknown := s.known_le v
  omega

/-- The reference of the list passes to the thread that takes the vchan off it. -/
theorem Inv.account_taken {n : (View → Option ℕ) → ℕ} (h : Inv s) (hv : v ∈ s.vchannels)
    (hholds : n View.holds = s.num View.holds v + 1)
    (hn : ∀ field ∈ View.fields.tail, n field = s.num field v) :
    Account { s.vchan v with closed := true } (s.known v) (s.freed v) (s.died v)
      ((s.vchannels.erase v).count v) (s.pchannels.count v) n := by
  obtain ⟨hcount, hknown, hopens⟩ := h.count_vchannels hv
  simp only [View.fields, List.tail_cons, List.forall_mem_cons] at hn
  obtain ⟨hraw, hfrees, hopens', hpreCtx, hnoCtx, hoffPchan, -⟩ := hn
  obtain ⟨refs, life, died, place, ctxRef, ctx, opener, id⟩ := h.cell v
  have htaken : Account (s.vchan v) (s.known v) (s.freed v) (s.died v)
      ((s.vchannels.erase v).count v) (s.pchannels.count v) n := by
    rw [List.count_erase_self]
    constructor
    case id =>
      intro hz
      exact id (by omega)
    all_goals omega
  exact ⟨htaken.refs, htaken.life, htaken.died, htaken.place, htaken.ctxRef, htaken.ctx,
    htaken.opener, htaken.id⟩

/-- `hab_release` takes the vchan that it has come to. -/
theorem Inv.take (h : Inv s) (hi : s.threads.get i = some t)
    (ht : t = .releasing ∨ t = .walking (some v)) (hv : v ∈ s.vchannels)
    (hunread : ∀ j k, s.threads.get j = some k → k.view.published ≠ some v) :
    Inv ((s.unlist v).goOn i
      (some (.closing v .notify (.walk (nextEntry v s.vchannels))))) := by
  have habout : t.vchan = none := by
    rcases ht with rfl | rfl <;> rfl
  have hreleases : t.view.releases = true := by
    rcases ht with rfl | rfl <;> rfl
  have hctxFrees : t.view.ctxFrees = false := by
    rcases ht with rfl | rfl <;> rfl
  have hnone : ∀ field ∈ View.fields, field t.view ≠ some v := by
    intro field hfield hw
    have hsome := VchanThread.vchan_of_field hfield hw
    rw [habout] at hsome
    cases hsome
  rw [unlist_eq h hv]
  refine h.goOn_frame hi (cell_goOn v h hi ?_ ?_ ?_ rfl rfl ?_) ⟨rfl, rfl, rfl, rfl, rfl, rfl, rfl,
    rfl⟩ ?_ ?_ ?_ hreleases.symm hctxFrees.symm ?_
  · intro w hw
    rw [habout] at hw
    cases hw
  · rintro k w ⟨⟩ ⟨⟩
    rfl
  · intro w hw
    simp [modify, hw, List.count_erase_of_ne hw]
  · have haccount := @Inv.account_taken s v
      ((s.goOn i (some (.closing v .notify (.walk (nextEntry v s.vchannels))))).num · v) h hv
    simp only [modify, Function.update_self]
    apply haccount
    · have hnum := num_goOn hi
        (some (.closing v .notify (.walk (nextEntry v s.vchannels)))) View.holds v
      rw [if_neg (hnone View.holds (by simp [View.fields]))] at hnum
      simpa [VchanThread.view] using hnum
    · intro field hfield
      have hnum := num_goOn hi
        (some (.closing v .notify (.walk (nextEntry v s.vchannels)))) field v
      rw [if_neg (hnone field (List.mem_of_mem_tail hfield)), if_neg] at hnum
      · exact hnum
      · simp only [View.fields, List.tail_cons, List.mem_cons, List.not_mem_nil, or_false]
          at hfield
        rcases hfield with rfl | rfl | rfl | rfl | rfl | rfl | rfl <;> rintro ⟨⟩
  · exact modify_frame rfl ⟨rfl, rfl, rfl⟩
  · exact h.clear_goOn hi (by rintro k w ⟨⟩ ⟨⟩)
  · intro j k w hj hk hw hmem
    apply (List.mem_erase_of_ne _).mpr hmem
    rintro rfl
    rcases hw with hw | hw
    · exact hunread j k hk hw
    · -- no other thread is in `hab_release`
      have hone : s.threads.count (fun t ↦ t.view.releases) ≤ 1 :=
        Nat.le_trans (Nat.le_add_left _ _) h.oneRelease
      exact hj (Pool.eq_of_count_le_one hone hk hi (VchanThread.releases_of_saved hw) hreleases)
  · rintro k w ⟨⟩ (⟨⟨⟩⟩ | hw)
    exact nextEntry_mem hw

/-! ## Calls that start -/

theorem num_begin (t : VchanThread) (field : View → Option ℕ) (w : ℕ) :
    (s.begin t).num field w = s.num field w + if field t.view = some w then 1 else 0 := by
  have hcount := @count_begin s t fun view ↦ decide (field view = some w)
  by_cases hw : field t.view = some w
  · simpa [num, hw] using hcount
  · simpa [num, hw] using hcount

/-- A call that is about `v` keeps the account of every other vchan. -/
theorem cell_begin {X : VchanSystem} (v : ℕ) (h : Inv s) (ht : ∀ w, t.vchan = some w → w = v)
    (hother : ∀ w, w ≠ v → X.vchan w = s.vchan w ∧ X.freed w = s.freed w ∧
      X.died w = s.died w ∧ X.vchannels.count w = s.vchannels.count w ∧
        X.pchannels.count w = s.pchannels.count w ∧ X.known w = s.known w)
    (hthreads : X.threads = s.threads)
    (hself : Account (X.vchan v) (X.known v) (X.freed v) (X.died v) (X.vchannels.count v)
      (X.pchannels.count v) ((s.begin t).num · v)) (w : ℕ) : Cell (X.begin t) w := by
  have hnum : ∀ field w, (X.begin t).num field w = (s.begin t).num field w := by
    intro field w
    simp only [num, count, begin, hthreads]
  show Account (X.vchan w) (X.known w) (X.freed w) (X.died w) (X.vchannels.count w)
    (X.pchannels.count w) fun field ↦ (X.begin t).num field w
  by_cases hw : w = v
  · subst hw
    exact hself.congr fun field _ ↦ hnum field w
  · obtain ⟨hvchan, hfreed, hdied, hctx, hpchan, hknown⟩ := hother w hw
    rw [hvchan, hfreed, hdied, hctx, hpchan, hknown]
    apply (h.cell w).congr
    intro field hfield
    rw [hnum, num_begin, if_neg, Nat.add_zero]
    intro hfw
    exact hw (ht w (VchanThread.vchan_of_field hfield hfw))

theorem Inv.begin_frame {X : VchanSystem} (h : Inv s) (hcells : ∀ w, Cell (X.begin t) w)
    (hfix : X.ctxRefcount = s.ctxRefcount ∧ X.ctxFreed = s.ctxFreed ∧ X.threads = s.threads ∧
      X.useAfterFree = false ∧ X.revived = false)
    (hfile : X.file.toNat + t.view.releases.toNat = s.file.toNat)
    (hrefs : X.ctxRefs = s.ctxRefs)
    (hidr : ∀ p n w, X.vchanIdr p n = some w → w < X.nextVchan ∧ (X.vchan w).pchan = p ∧
      (X.vchan w).idr = n ∧ s.num View.offIdr w + X.freed w = 0)
    (hview : t.view.offIdr = none ∧ t.view.ctxFrees = false ∧ t.view.published = none ∧
      t.view.saved = none)
    (hkeep : ∀ j k w, s.threads.get j = some k →
      k.view.published = some w ∨ k.view.saved = some w → w ∈ X.vchannels) :
    Inv (X.begin t) := by
  obtain ⟨hrefcount, hfreed, hthreads, hclean, hkept⟩ := hfix
  obtain ⟨hoff, hctxFrees, hpublished, hsaved⟩ := hview
  have hcount : ∀ test, (X.begin t).count test = s.count test + (test t.view).toNat := by
    intro test
    rw [count_begin, count, hthreads, count]
  refine ⟨hcells, ?_, ?_, ?_, ?_, ?_, ?_, hclean, hkept⟩
  · intro p n w hw
    obtain ⟨hlt, hp, hn, hclear⟩ := hidr p n w hw
    refine ⟨hlt, hp, hn, ?_⟩
    have hnum : (X.begin t).num View.offIdr w = s.num View.offIdr w :=
      (hcount _).trans (by simp [num, hoff])
    rw [hnum]
    exact hclear
  · show X.ctxRefcount = X.file.toNat + (X.begin t).count View.releases + X.ctxRefs
    have hold := h.ctxCount
    rw [hcount, hrefs]
    omega
  · show min 1 X.ctxRefcount + (X.begin t).count View.ctxFrees + X.ctxFreed = 1
    rw [hcount, hctxFrees, hrefcount, hfreed]
    exact h.ctxLife
  · show X.file.toNat + (X.begin t).count View.releases ≤ 1
    have hold := h.oneRelease
    rw [hcount]
    omega
  · intro j k w hj hw
    have hj' : (s.threads.spawn t).get j = some k := hthreads ▸ hj
    rcases Pool.get_spawn.mp hj' with ⟨-, rfl⟩ | hk
    · rw [hpublished] at hw
      cases hw
    · exact hkeep j k w hk (.inl hw)
  · intro j k w hj hw
    have hj' : (s.threads.spawn t).get j = some k := hthreads ▸ hj
    rcases Pool.get_spawn.mp hj' with ⟨-, rfl⟩ | hk
    · rw [hsaved] at hw
      cases hw
    · exact hkeep j k w hk (.inr hw)

/-- What threads go back to is still on the context. -/
theorem Inv.mem_of_later (h : Inv s) {j w : ℕ} {k : VchanThread} (hk : s.threads.get j = some k)
    (hw : k.view.published = some w ∨ k.view.saved = some w) : w ∈ s.vchannels := by
  rcases hw with hw | hw
  · exact h.published j k w hk hw
  · exact h.saved j k w hk hw

/-- Nothing is known of a vchan before it is allocated. -/
theorem Inv.account_new (h : Inv s) {n : (View → Option ℕ) → ℕ} {c : VchanCell}
    (hc : c.refcount = 0 ∧ c.ctx = false ∧ c.ctxRef = false) (openId : UInt32)
    (hn : ∀ field ∈ View.fields, n field = s.num field s.nextVchan +
      if field (VchanThread.allocated s.nextVchan openId).view = some s.nextVchan then 1 else 0) :
    Account c 1 (s.freed s.nextVchan) (s.died s.nextVchan)
      (s.vchannels.count s.nextVchan) (s.pchannels.count s.nextVchan) n := by
  have hknown : s.known s.nextVchan = 0 := if_neg (Nat.lt_irrefl _)
  obtain ⟨hrefcount, hctx, hctxRef⟩ := hc
  obtain ⟨refs, life, died, place, ctxRef, ctx, opener, id⟩ := h.cell s.nextVchan
  simp only [View.fields, List.forall_mem_cons, VchanThread.view, reduceCtorEq, if_true,
    if_false] at hn
  obtain ⟨hholds, hraw, hfrees, hopens, hpreCtx, hnoCtx, hoffPchan, -⟩ := hn
  rw [hknown] at life place ctxRef ctx opener
  constructor
  case ctxRef =>
    rw [hctxRef, Bool.toNat_false]
    omega
  case ctx =>
    rw [hctx, Bool.toNat_false]
    omega
  all_goals omega

theorem Inv.alloc (h : Inv s) (pchan : HabPchan) (idr : Fin 4096) (openId : UInt32) :
    Inv ((s.alloc pchan idr).begin (.allocated s.nextVchan openId)) := by
  have hknown : (s.alloc pchan idr).known s.nextVchan = 1 := if_pos (Nat.lt_succ_self _)
  apply h.begin_frame
  case hcells =>
    refine cell_begin s.nextVchan h ?_ ?_ rfl ?_
    · rintro w ⟨⟩
      rfl
    · intro w hw
      refine ⟨Function.update_of_ne hw _ _, rfl, rfl, rfl, rfl, ?_⟩
      simp only [known, VchanSystem.alloc]
      congr 1
      simp
      omega
    · rw [hknown]
      apply h.account_new _ openId
      · intro field _
        exact num_begin _ field s.nextVchan
      · simp [VchanSystem.alloc]
  case hfix => exact ⟨rfl, rfl, rfl, h.clean, h.kept⟩
  case hfile => rfl
  case hrefs =>
    show Pool.countBelow VchanCell.ctxRef
      (fun v ↦ some (Function.update s.vchan s.nextVchan _ v)) (s.nextVchan + 1) = s.ctxRefs
    rw [some_update, Pool.countBelow, Pool.countBelow_update_of_le (Nat.le_refl _)]
    simp [ctxRefs]
  case hidr =>
    intro p n w hw
    by_cases hnew : p = pchan ∧ n = idr
    · obtain ⟨rfl, rfl⟩ := hnew
      simp only [VchanSystem.alloc, Function.update_self, Option.some.injEq] at hw
      subst hw
      refine ⟨Nat.lt_succ_self _, ?_, ?_, ?_⟩
      · simp [VchanSystem.alloc]
      · simp [VchanSystem.alloc]
      · show s.num View.offIdr s.nextVchan + s.freed s.nextVchan = 0
        have hlife := (h.cell s.nextVchan).life
        have hzero : s.known s.nextVchan = 0 := if_neg (Nat.lt_irrefl _)
        have hoff := s.offIdr_le_frees s.nextVchan
        omega
    · have hw' : s.vchanIdr p n = some w := by
        by_cases hp : p = pchan
        · subst hp
          have hn : n ≠ idr := fun hn ↦ hnew ⟨rfl, hn⟩
          simpa [VchanSystem.alloc, hn] using hw
        · simpa [VchanSystem.alloc, hp] using hw
      obtain ⟨hlt, hp, hn, hoff⟩ := h.idr p n w hw'
      have hsame : (s.alloc pchan idr).vchan w = s.vchan w :=
        Function.update_of_ne (Nat.ne_of_lt hlt) _ _
      rw [hsame]
      exact ⟨Nat.lt_succ_of_lt hlt, hp, hn, hoff⟩
  case hview => exact ⟨rfl, rfl, rfl, rfl⟩
  case hkeep =>
    intro j k w hk hw
    exact h.mem_of_later hk hw

theorem Inv.died_of_refcount (h : Inv s) (hv : (s.vchan v).refcount ≠ 0) : s.died v = false := by
  have hdied := (h.cell v).died
  have hlife := (h.cell v).life
  have hknown := s.known_le v
  cases hd : s.died v with
  | false => rfl
  | true =>
      rw [hd, Bool.toNat_true] at hdied
      omega

theorem Inv.get (h : Inv s) (hv : (s.vchan v).refcount ≠ 0) (habout : t.vchan = some v)
    (ht : t.view = { holds := some v }) : Inv ((s.get v).begin t) := by
  have hframe := @modify_frame s v (s.get v) _ rfl ⟨rfl, rfl, rfl⟩
  apply h.begin_frame
  case hcells =>
    refine cell_begin v h ?_ ?_ rfl ?_
    · intro w hw
      exact Option.some.inj (hw.symm.trans habout)
    · intro w hw
      exact ⟨Function.update_of_ne hw _ _, rfl, rfl, rfl, rfl, rfl⟩
    · obtain ⟨refs, life, died, place, ctxRef, ctx, opener, id⟩ := h.cell v
      have hknown := s.known_le v
      have hholds := num_begin (s := s) t View.holds v
      have hraw := num_begin (s := s) t View.raw v
      have hfrees := num_begin (s := s) t View.frees v
      have hopens := num_begin (s := s) t View.opens v
      have hpreCtx := num_begin (s := s) t View.preCtx v
      have hnoCtx := num_begin (s := s) t View.noCtx v
      have hoffPchan := num_begin (s := s) t View.offPchan v
      simp only [ht, reduceCtorEq, if_true, if_false]
        at hholds hraw hfrees hopens hpreCtx hnoCtx hoffPchan
      show Account _ (s.known v) (s.freed v) (s.died v) (s.vchannels.count v)
        (s.pchannels.count v) _
      constructor
      case id =>
        intro hz
        simpa [VchanSystem.get, modify] using id (by omega)
      case died | place | opener => omega
      all_goals
        simp [VchanSystem.get, modify]
        omega
  case hfix =>
    refine ⟨rfl, rfl, rfl, h.clean, ?_⟩
    show (s.revived || s.died v) = false
    rw [h.kept, h.died_of_refcount hv]
    rfl
  case hfile =>
    rw [ht]
    rfl
  case hrefs =>
    apply ctxRefs_congr
    exact fun w ↦ (hframe w).2.2
  case hidr =>
    intro p n w hw
    obtain ⟨hlt, hp, hn, hoff⟩ := h.idr p n w hw
    exact ⟨hlt, (hframe w).1.trans hp, (hframe w).2.1.trans hn, hoff⟩
  case hview =>
    rw [ht]
    exact ⟨rfl, rfl, rfl, rfl⟩
  case hkeep =>
    intro j k w hk hw
    exact h.mem_of_later hk hw

theorem Inv.close (h : Inv s) (hv : v ∈ s.vchannels)
    (hunread : ∀ j k, s.threads.get j = some k →
      k.view.published ≠ some v ∧ k.view.saved ≠ some v) :
    Inv ((s.unlist v).begin (.closing v .notify .done)) := by
  rw [unlist_eq h hv]
  have hframe := @modify_frame s v (s.modify v fun vchan ↦ { vchan with closed := true }) _ rfl
    ⟨rfl, rfl, rfl⟩
  apply h.begin_frame
  case hcells =>
    refine cell_begin v h ?_ ?_ rfl ?_
    · rintro w ⟨⟩
      rfl
    · intro w hw
      exact ⟨Function.update_of_ne hw _ _, rfl, rfl, List.count_erase_of_ne hw, rfl, rfl⟩
    · have haccount := @Inv.account_taken s v
        ((s.begin (.closing v .notify .done)).num · v) h hv
      simp only [modify, Function.update_self]
      apply haccount
      · exact (num_begin _ View.holds v).trans (by simp [VchanThread.view])
      · intro field hfield
        rw [num_begin, if_neg, Nat.add_zero]
        simp only [View.fields, List.tail_cons, List.mem_cons, List.not_mem_nil, or_false]
          at hfield
        rcases hfield with rfl | rfl | rfl | rfl | rfl | rfl | rfl <;> rintro ⟨⟩
  case hfix => exact ⟨rfl, rfl, rfl, h.clean, h.kept⟩
  case hfile => rfl
  case hrefs =>
    apply ctxRefs_congr
    exact fun w ↦ (hframe w).2.2
  case hidr =>
    intro p n w hw
    obtain ⟨hlt, hp, hn, hoff⟩ := h.idr p n w hw
    exact ⟨hlt, (hframe w).1.trans hp, (hframe w).2.1.trans hn, hoff⟩
  case hview => exact ⟨rfl, rfl, rfl, rfl⟩
  case hkeep =>
    intro j k w hk hw
    apply (List.mem_erase_of_ne _).mpr (h.mem_of_later hk hw)
    rintro rfl
    rcases hw with hw | hw
    · exact (hunread j k hk).1 hw
    · exact (hunread j k hk).2 hw

theorem Inv.release (h : Inv s) (hfile : s.file = true) :
    Inv (begin { s with file := false } .releasing) := by
  apply h.begin_frame
  case hcells =>
    intro w
    refine cell_begin w h ?_ ?_ rfl ?_ w
    · rintro w ⟨⟩
    · intro w _
      exact ⟨rfl, rfl, rfl, rfl, rfl, rfl⟩
    · apply (h.cell w).congr
      intro field hfield
      rw [num_begin, if_neg, Nat.add_zero]
      simp only [View.fields, List.mem_cons, List.not_mem_nil, or_false] at hfield
      rcases hfield with rfl | rfl | rfl | rfl | rfl | rfl | rfl | rfl <;> rintro ⟨⟩
  case hfix => exact ⟨rfl, rfl, rfl, h.clean, h.kept⟩
  case hfile =>
    rw [hfile]
    rfl
  case hrefs => rfl
  case hidr =>
    intro p n w hw
    exact h.idr p n w hw
  case hview => exact ⟨rfl, rfl, rfl, rfl⟩
  case hkeep =>
    intro j k w hk hw
    exact h.mem_of_later hk hw

end VchanSystem

end Hab
