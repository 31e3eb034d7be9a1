import Hab.VchanLedger

/-!
# Every step of a thread keeps the accounts

A thread is about one vchan at most, so a step changes the account of that one only.
-/

namespace Hab

/-- The vchan a thread is about. -/
def VchanThread.vchan : VchanThread → Option ℕ
  | .allocated v _ | .listed v | .counted v | .referring v | .opening v | .opened v
  | .sending v | .leaked v | .receiving v | .handling v | .closing v _ _ | .freeing v _ _ =>
      some v
  | .ctxFreeing v _ => v
  | .releasing | .walking _ | .filePut => none

/-- The ways in which threads are counted for a vchan. -/
def View.fields : List (View → Option ℕ) :=
  [View.holds, View.raw, View.frees, View.opens, View.preCtx, View.noCtx, View.offPchan,
    View.offIdr]

theorem VchanThread.vchan_of_field {field : View → Option ℕ} (hfield : field ∈ View.fields)
    {t : VchanThread} {v : ℕ} (hv : field t.view = some v) : t.vchan = some v := by
  simp only [View.fields, List.mem_cons, List.not_mem_nil, or_false] at hfield
  rcases hfield with rfl | rfl | rfl | rfl | rfl | rfl | rfl | rfl <;>
    cases t <;> simp_all [VchanThread.view, VchanThread.vchan]

theorem VchanThread.raw_or_frees_of_offPchan {t : VchanThread} {v : ℕ}
    (hv : t.view.offPchan = some v) : t.view.raw = some v ∨ t.view.frees = some v := by
  cases t <;> simp_all [VchanThread.view]

theorem VchanThread.early_or_frees_of_noCtx {t : VchanThread} {v : ℕ}
    (hv : t.view.noCtx = some v) :
    (t.view.raw = some v ∨ t.view.holds = some v) ∨ t.view.frees = some v := by
  cases t <;> simp_all [VchanThread.view]

theorem VchanThread.frees_of_offIdr {t : VchanThread} {v : ℕ} (hv : t.view.offIdr = some v) :
    t.view.frees = some v := by
  cases t <;> simp_all [VchanThread.view]

theorem AfterPut.field_resume (after : AfterPut) {field : View → Option ℕ}
    (hfield : field ∈ View.fields) : (after.resume.bind fun t ↦ field t.view) = none := by
  cases after with
  | done => rfl
  | walk tmp =>
      simp only [View.fields, List.mem_cons, List.not_mem_nil, or_false] at hfield
      rcases hfield with rfl | rfl | rfl | rfl | rfl | rfl | rfl | rfl <;> rfl

theorem AfterPut.releases_resume (after : AfterPut) :
    (after.resume.any fun k ↦ k.view.releases) = after.releases := by
  cases after <;> rfl

theorem AfterPut.ctxFrees_resume (after : AfterPut) :
    (after.resume.any fun k ↦ k.view.ctxFrees) = false := by
  cases after <;> rfl

theorem AfterPut.later_resume {after : AfterPut} {k : VchanThread} {w : ℕ}
    (hk : after.resume = some k) (hw : k.view.published = some w ∨ k.view.saved = some w) :
    after.saved = some w := by
  cases after with
  | done => cases hk
  | walk tmp =>
      cases hk
      rcases hw with hw | hw
      · cases hw
      · exact hw

theorem AfterPut.vchan_resume {after : AfterPut} {k : VchanThread} (hk : after.resume = some k) :
    k.vchan = none := by
  cases after with
  | done => cases hk
  | walk tmp =>
      cases hk
      rfl

namespace VchanSystem

variable {s : VchanSystem} {i v : ℕ} {t : VchanThread} {t' : Option VchanThread}

theorem num_goOn_of_ne {field : View → Option ℕ} {w : ℕ} (hfield : field ∈ View.fields)
    (hi : s.threads.get i = some t) (ht : t.vchan ≠ some w)
    (ht' : ∀ k, t' = some k → k.vchan ≠ some w) : (s.goOn i t').num field w = s.num field w := by
  have hnum := num_goOn hi t' field w
  have hold : field t.view ≠ some w := fun hv ↦ ht (VchanThread.vchan_of_field hfield hv)
  have hnew : (t'.bind fun t ↦ field t.view) ≠ some w := by
    intro hv
    obtain ⟨k, hk, hkv⟩ := Option.bind_eq_some_iff.mp hv
    exact ht' k hk (VchanThread.vchan_of_field hfield hkv)
  rw [if_neg hold, if_neg hnew] at hnum
  exact hnum

theorem Account.congr {c : VchanCell} {known freed : ℕ} {died : Bool} {onCtx onPchan : ℕ}
    {n n' : (View → Option ℕ) → ℕ} (h : Account c known freed died onCtx onPchan n)
    (hn : ∀ field ∈ View.fields, n' field = n field) :
    Account c known freed died onCtx onPchan n' := by
  simp only [View.fields, List.forall_mem_cons] at hn
  obtain ⟨hholds, hraw, hfrees, hopens, hpreCtx, hnoCtx, hoffPchan, -⟩ := hn
  obtain ⟨refs, life, died, place, ctxRef, ctx, opener, id⟩ := h
  constructor
  · rw [hholds]
    exact refs
  · rw [hraw, hfrees]
    exact life
  · rw [hfrees]
    exact died
  · rw [hoffPchan]
    exact place
  · rw [hnoCtx]
    exact ctxRef
  · rw [hpreCtx]
    exact ctx
  · rw [hopens]
    exact opener
  · rw [hraw]
    exact id

/-- A step of a thread that is about `v` keeps the account of every other vchan. -/
theorem cell_goOn {X : VchanSystem} (v : ℕ) (h : Inv s) (hi : s.threads.get i = some t)
    (ht : ∀ w, t.vchan = some w → w = v) (ht' : ∀ k w, t' = some k → k.vchan = some w → w = v)
    (hother : ∀ w, w ≠ v → X.vchan w = s.vchan w ∧ X.freed w = s.freed w ∧
      X.died w = s.died w ∧ X.vchannels.count w = s.vchannels.count w ∧
        X.pchannels.count w = s.pchannels.count w)
    (hnext : X.nextVchan = s.nextVchan) (hthreads : X.threads = s.threads)
    (hself : Account (X.vchan v) (s.known v) (X.freed v) (X.died v) (X.vchannels.count v)
      (X.pchannels.count v) ((s.goOn i t').num · v)) (w : ℕ) : Cell (X.goOn i t') w := by
  have hnum : ∀ field w, (X.goOn i t').num field w = (s.goOn i t').num field w := by
    intro field w
    simp only [num, count, goOn, hthreads]
  have hknown : (X.goOn i t').known w = s.known w := by
    simp only [known, goOn, hnext]
  show Account (X.vchan w) ((X.goOn i t').known w) (X.freed w) (X.died w) (X.vchannels.count w)
    (X.pchannels.count w) fun field ↦ (X.goOn i t').num field w
  rw [hknown]
  by_cases hw : w = v
  · subst hw
    exact hself.congr fun field _ ↦ hnum field w
  · obtain ⟨hvchan, hfreed, hdied, hctx, hpchan⟩ := hother w hw
    rw [hvchan, hfreed, hdied, hctx, hpchan]
    apply (h.cell w).congr
    intro field hfield
    rw [hnum]
    exact num_goOn_of_ne hfield hi (fun htw ↦ hw (ht w htw)) fun k hk hkw ↦ hw (ht' k w hk hkw)

/-- The vchans that threads go back to stay on the context. -/
theorem Inv.later_goOn {X : VchanSystem} (h : Inv s) (hi : s.threads.get i = some t)
    (hthreads : X.threads = s.threads)
    (hkeep : ∀ j k w, j ≠ i → s.threads.get j = some k →
      k.view.published = some w ∨ k.view.saved = some w → w ∈ s.vchannels → w ∈ X.vchannels)
    (hlater : ∀ k w, t' = some k → k.view.published = some w ∨ k.view.saved = some w →
      w ∈ X.vchannels) :
    (∀ j k w, (X.goOn i t').threads.get j = some k → k.view.published = some w →
      w ∈ X.vchannels) ∧
    ∀ j k w, (X.goOn i t').threads.get j = some k → k.view.saved = some w → w ∈ X.vchannels := by
  constructor
  · intro j k w hj hw
    have hj' : (s.threads.set i t').get j = some k := hthreads ▸ hj
    exact Pool.forall_set (P := fun _ k ↦ k.view.published = some w → w ∈ X.vchannels)
      (Pool.lt_next hi) (fun k hk hkw ↦ hlater k w hk (.inl hkw))
      (fun j k hj hk hkw ↦ hkeep j k w hj hk (.inl hkw) (h.published j k w hk hkw)) hj' hw
  · intro j k w hj hw
    have hj' : (s.threads.set i t').get j = some k := hthreads ▸ hj
    exact Pool.forall_set (P := fun _ k ↦ k.view.saved = some w → w ∈ X.vchannels)
      (Pool.lt_next hi) (fun k hk hkw ↦ hlater k w hk (.inr hkw))
      (fun j k hj hk hkw ↦ hkeep j k w hj hk (.inr hkw) (h.saved j k w hk hkw)) hj' hw

/-- A step that leaves `vchan_idr` and the references to the context alone. -/
theorem Inv.goOn_frame {X : VchanSystem} (h : Inv s) (hi : s.threads.get i = some t)
    (hcells : ∀ w, Cell (X.goOn i t') w)
    (hfix : X.vchanIdr = s.vchanIdr ∧ X.ctxRefcount = s.ctxRefcount ∧ X.ctxFreed = s.ctxFreed ∧
      X.file = s.file ∧ X.nextVchan = s.nextVchan ∧ X.threads = s.threads ∧
        X.useAfterFree = s.useAfterFree ∧ X.revived = s.revived)
    (hvchan : ∀ w, (X.vchan w).pchan = (s.vchan w).pchan ∧ (X.vchan w).idr = (s.vchan w).idr ∧
      (X.vchan w).ctxRef = (s.vchan w).ctxRef)
    (hoff : ∀ p n w, s.vchanIdr p n = some w → (s.goOn i t').num View.offIdr w + X.freed w = 0)
    (hkeep : ∀ j k w, j ≠ i → s.threads.get j = some k →
      k.view.published = some w ∨ k.view.saved = some w → w ∈ s.vchannels → w ∈ X.vchannels)
    (hreleases : (t'.any fun k ↦ k.view.releases) = t.view.releases)
    (hctxFrees : (t'.any fun k ↦ k.view.ctxFrees) = t.view.ctxFrees)
    (hlater : ∀ k w, t' = some k → k.view.published = some w ∨ k.view.saved = some w →
      w ∈ X.vchannels) : Inv (X.goOn i t') := by
  obtain ⟨hidr, hrefcount, hfreed, hfile, hnext, hthreads, hclean, hkept⟩ := hfix
  have hcount : ∀ test, (X.goOn i t').count test = (s.goOn i t').count test := by
    intro test
    simp only [count, goOn, hthreads]
  have hrel := count_goOn hi t' View.releases
  have hctx := count_goOn hi t' View.ctxFrees
  rw [hreleases] at hrel
  rw [hctxFrees] at hctx
  have hrefs : (X.goOn i t').ctxRefs = s.ctxRefs := by
    simp only [ctxRefs, goOn, hnext]
    exact ctxRefs_congr (fun w ↦ (hvchan w).2.2) s.nextVchan
  have hback := h.later_goOn hi hthreads hkeep hlater
  refine ⟨hcells, ?_, ?_, ?_, ?_, ?_, ?_, hclean.trans h.clean, hkept.trans h.kept⟩
  · intro p n w hw
    have hw' : s.vchanIdr p n = some w := hidr ▸ hw
    obtain ⟨hlt, hp, hn, -⟩ := h.idr p n w hw'
    refine ⟨?_, (hvchan w).1.trans hp, (hvchan w).2.1.trans hn, ?_⟩
    · show w < X.nextVchan
      rw [hnext]
      exact hlt
    · rw [num, hcount]
      exact hoff p n w hw'
  · show X.ctxRefcount = X.file.toNat + _ + _
    rw [hrefs, hcount, hrefcount, hfile]
    have hold := h.ctxCount
    omega
  · show min 1 X.ctxRefcount + _ + X.ctxFreed = 1
    rw [hcount, hrefcount, hfreed]
    have hold := h.ctxLife
    omega
  · show X.file.toNat + _ ≤ 1
    rw [hcount, hfile]
    have hold := h.oneRelease
    omega
  · exact hback.1
  · exact hback.2

/-- A vchan in `vchan_idr` stays clear of `idr_remove` if no thread comes past it. -/
theorem Inv.offIdr_goOn (h : Inv s) (hi : s.threads.get i = some t)
    (ht' : ∀ k w, t' = some k → k.view.offIdr = some w → t.view.offIdr = some w) {p : HabPchan}
    {n : Fin 4096} {w : ℕ} (hw : s.vchanIdr p n = some w) :
    (s.goOn i t').num View.offIdr w = 0 := by
  have hold := (h.idr p n w hw).2.2.2
  have hnum := num_goOn hi t' View.offIdr w
  by_cases hnew : (t'.bind fun t ↦ t.view.offIdr) = some w
  · obtain ⟨k, hk, hkw⟩ := Option.bind_eq_some_iff.mp hnew
    rw [if_pos hnew, if_pos (ht' k w hk hkw)] at hnum
    omega
  · rw [if_neg hnew] at hnum
    omega

/-- So its cell is not freed either, and the step leaves it that way. -/
theorem Inv.clear_goOn (h : Inv s) (hi : s.threads.get i = some t)
    (ht' : ∀ k w, t' = some k → k.view.offIdr = some w → t.view.offIdr = some w)
    (p : HabPchan) (n : Fin 4096) (w : ℕ) (hw : s.vchanIdr p n = some w) :
    (s.goOn i t').num View.offIdr w + s.freed w = 0 := by
  rw [h.offIdr_goOn hi ht' hw, h.freed_of_idr hw]

/-- A change of a cell that keeps its place in `vchan_idr` and its reference. -/
theorem modify_frame {X : VchanSystem} {c : VchanCell}
    (hX : X.vchan = Function.update s.vchan v c)
    (hc : c.pchan = (s.vchan v).pchan ∧ c.idr = (s.vchan v).idr ∧ c.ctxRef = (s.vchan v).ctxRef)
    (w : ℕ) :
    (X.vchan w).pchan = (s.vchan w).pchan ∧ (X.vchan w).idr = (s.vchan w).idr ∧
      (X.vchan w).ctxRef = (s.vchan w).ctxRef := by
  rw [hX]
  by_cases hw : w = v
  · rw [hw, Function.update_self]
    exact hc
  · rw [Function.update_of_ne hw]
    exact ⟨rfl, rfl, rfl⟩

/-- How a thread that goes on changes the account of a vchan. -/
theorem nums_goOn (hi : s.threads.get i = some t) (t' : Option VchanThread) (v : ℕ) :
    ((s.goOn i t').num View.holds v + (if t.view.holds = some v then 1 else 0) =
      s.num View.holds v + if (t'.bind fun t ↦ t.view.holds) = some v then 1 else 0) ∧
    ((s.goOn i t').num View.raw v + (if t.view.raw = some v then 1 else 0) =
      s.num View.raw v + if (t'.bind fun t ↦ t.view.raw) = some v then 1 else 0) ∧
    ((s.goOn i t').num View.frees v + (if t.view.frees = some v then 1 else 0) =
      s.num View.frees v + if (t'.bind fun t ↦ t.view.frees) = some v then 1 else 0) ∧
    ((s.goOn i t').num View.opens v + (if t.view.opens = some v then 1 else 0) =
      s.num View.opens v + if (t'.bind fun t ↦ t.view.opens) = some v then 1 else 0) ∧
    ((s.goOn i t').num View.preCtx v + (if t.view.preCtx = some v then 1 else 0) =
      s.num View.preCtx v + if (t'.bind fun t ↦ t.view.preCtx) = some v then 1 else 0) ∧
    ((s.goOn i t').num View.noCtx v + (if t.view.noCtx = some v then 1 else 0) =
      s.num View.noCtx v + if (t'.bind fun t ↦ t.view.noCtx) = some v then 1 else 0) ∧
    ((s.goOn i t').num View.offPchan v + (if t.view.offPchan = some v then 1 else 0) =
      s.num View.offPchan v + if (t'.bind fun t ↦ t.view.offPchan) = some v then 1 else 0) :=
  ⟨num_goOn hi t' _ v, num_goOn hi t' _ v, num_goOn hi t' _ v, num_goOn hi t' _ v,
    num_goOn hi t' _ v, num_goOn hi t' _ v, num_goOn hi t' _ v⟩

/-- A thread that is done with a vchan is counted for none. -/
theorem num_resume (hi : s.threads.get i = some t) (after : AfterPut) (v : ℕ)
    (field : View → Option ℕ) (hfield : field ∈ View.fields) :
    (s.goOn i after.resume).num field v + (if field t.view = some v then 1 else 0) =
      s.num field v := by
  have hnum := num_goOn hi after.resume field v
  rw [after.field_resume hfield] at hnum
  exact hnum

/-! ## Setting a vchan up -/

theorem Inv.allocated (h : Inv s) {openId : UInt32}
    (hi : s.threads.get i = some (.allocated v openId)) :
    Inv (goOn { s.modify v fun vchan ↦ { vchan with sessionId := openId } with
      pchannels := s.pchannels ++ [v] } i (some (.listed v))) := by
  refine h.goOn_frame hi (cell_goOn v h hi ?_ ?_ ?_ rfl rfl ?_) ⟨rfl, rfl, rfl, rfl, rfl, rfl, rfl,
    rfl⟩ ?_ ?_ (fun _ _ _ _ _ _ hw ↦ hw) rfl rfl ?_
  · rintro w ⟨⟩
    rfl
  · rintro k w ⟨⟩ ⟨⟩
    rfl
  · intro w hw
    simp [modify, hw, Ne.symm hw]
  · obtain ⟨refs, life, died, place, ctxRef, ctx, opener, id⟩ := h.cell v
    obtain ⟨hholds, hraw, hfrees, hopens, hpreCtx, hnoCtx, hoffPchan⟩ :=
      nums_goOn hi (some (.listed v)) v
    have hpos : 0 < s.num View.raw v := num_pos hi rfl
    simp only [VchanThread.view, Option.bind_some, reduceCtorEq, if_true, if_false]
      at hholds hraw hfrees hopens hpreCtx hnoCtx hoffPchan
    constructor
    case id =>
      intro hzero
      omega
    all_goals
      simp [modify]
      omega
  · exact modify_frame rfl ⟨rfl, rfl, rfl⟩
  · exact h.clear_goOn hi (by rintro k w ⟨⟩ ⟨⟩)
  · rintro k w ⟨⟩ (⟨⟨⟩⟩ | ⟨⟨⟩⟩)

theorem Inv.listed (h : Inv s) (hi : s.threads.get i = some (.listed v)) :
    Inv (goOn (s.modify v fun vchan ↦
      { vchan with
        id := habVcid vchan.pchan vchan.idr
        refcount := 1
        otherendClosed := false }) i (some (.counted v))) := by
  refine h.goOn_frame hi (cell_goOn v h hi ?_ ?_ ?_ rfl rfl ?_) ⟨rfl, rfl, rfl, rfl, rfl, rfl, rfl,
    rfl⟩ ?_ ?_ (fun _ _ _ _ _ _ hw ↦ hw) rfl rfl ?_
  · rintro w ⟨⟩
    rfl
  · rintro k w ⟨⟩ ⟨⟩
    rfl
  · intro w hw
    simp [modify, hw]
  · obtain ⟨refs, life, died, place, ctxRef, ctx, opener, id⟩ := h.cell v
    obtain ⟨hholds, hraw, hfrees, hopens, hpreCtx, hnoCtx, hoffPchan⟩ :=
      nums_goOn hi (some (.counted v)) v
    have hpos : 0 < s.num View.raw v := num_pos hi rfl
    have hknown := s.known_le v
    simp only [VchanThread.view, Option.bind_some, reduceCtorEq, if_true, if_false]
      at hholds hraw hfrees hopens hpreCtx hnoCtx hoffPchan
    constructor
    case id =>
      intro _ _
      simp [modify]
    all_goals
      simp [modify]
      omega
  · exact modify_frame rfl ⟨rfl, rfl, rfl⟩
  · exact h.clear_goOn hi (by rintro k w ⟨⟩ ⟨⟩)
  · rintro k w ⟨⟩ (⟨⟨⟩⟩ | ⟨⟨⟩⟩)

/-- A vchan that a thread counts for has been allocated. -/
theorem Inv.lt_next (h : Inv s) {field : View → Option ℕ}
    (hfield : field = View.holds ∨ field = View.raw ∨ field = View.frees)
    (hi : s.threads.get i = some t) (hv : field t.view = some v) : v < s.nextVchan := by
  have hpos := num_pos hi hv
  obtain ⟨refs, life, -⟩ := h.cell v
  by_contra hlt
  have hknown : s.known v = 0 := if_neg hlt
  rcases hfield with rfl | rfl | rfl <;> omega

theorem Inv.counted (h : Inv s) (hi : s.threads.get i = some (.counted v))
    (halive : s.ctxRefcount ≠ 0) :
    Inv (goOn { s.modify v fun vchan ↦ { vchan with ctxRef := true } with
      ctxRefcount := s.ctxRefcount + 1 } i (some (.referring v))) := by
  have hlt : v < s.nextVchan := h.lt_next (.inl rfl) hi rfl
  obtain ⟨refs, life, died, place, ctxRef, ctx, opener, id⟩ := h.cell v
  have hknown := s.known_le v
  have hnone : (s.vchan v).ctxRef = false := by
    have hpos : 0 < s.num View.noCtx v := num_pos hi rfl
    cases hc : (s.vchan v).ctxRef with
    | false => rfl
    | true =>
        rw [hc, Bool.toNat_true] at ctxRef
        omega
  have hback := @Inv.later_goOn s i _ (some (.referring v)) s h hi rfl
    (fun _ _ _ _ _ _ hw ↦ hw) (by rintro k w ⟨⟩ (⟨⟨⟩⟩ | ⟨⟨⟩⟩))
  have hrel := count_goOn hi (some (.referring v)) View.releases
  have hfree := count_goOn hi (some (.referring v)) View.ctxFrees
  simp only [VchanThread.view, Option.any_some, Bool.toNat_false, Nat.add_zero] at hrel hfree
  refine ⟨cell_goOn v h hi ?_ ?_ ?_ rfl rfl ?_, ?_, ?_, ?_, ?_, hback.1, hback.2, h.clean, h.kept⟩
  · rintro w ⟨⟩
    rfl
  · rintro k w ⟨⟩ ⟨⟩
    rfl
  · intro w hw
    simp [modify, hw]
  · obtain ⟨hholds, hraw, hfrees, hopens, hpreCtx, hnoCtx, hoffPchan⟩ :=
      nums_goOn hi (some (.referring v)) v
    rw [hnone] at ctxRef
    simp only [VchanThread.view, Option.bind_some, reduceCtorEq, if_true, if_false,
      Bool.toNat_false] at hholds hraw hfrees hopens hpreCtx hnoCtx hoffPchan ctxRef
    constructor
    case id =>
      intro hzero
      simpa [modify] using id (by omega)
    all_goals
      simp [modify]
      omega
  · intro p n w hw
    obtain ⟨hlt', hp, hn, -⟩ := h.idr p n w hw
    refine ⟨hlt', ?_, ?_, ?_⟩
    · by_cases hwv : w = v
      · subst hwv
        simpa [goOn, modify] using hp
      · simpa [goOn, modify, hwv] using hp
    · by_cases hwv : w = v
      · subst hwv
        simpa [goOn, modify] using hn
      · simpa [goOn, modify, hwv] using hn
    · show (s.goOn i (some (.referring v))).num View.offIdr w + s.freed w = 0
      rw [h.offIdr_goOn hi (by rintro k w ⟨⟩ ⟨⟩) hw, h.freed_of_idr hw]
  · have hrefs := ctxRefs_update (f := s.vchan) hlt { s.vchan v with ctxRef := true }
    rw [hnone] at hrefs
    have hcount := h.ctxCount
    show s.ctxRefcount + 1 = s.file.toNat + (s.goOn i (some (.referring v))).count View.releases +
      Pool.countBelow VchanCell.ctxRef
        (fun w ↦ some (Function.update s.vchan v { s.vchan v with ctxRef := true } w)) s.nextVchan
    simp only [Bool.toNat_false, Bool.toNat_true, Nat.add_zero] at hrefs
    rw [hrefs, hrel, hcount, ctxRefs]
    omega
  · show min 1 (s.ctxRefcount + 1) + (s.goOn i (some (.referring v))).count View.ctxFrees +
      s.ctxFreed = 1
    have hlife := h.ctxLife
    rw [hfree]
    omega
  · show s.file.toNat + (s.goOn i (some (.referring v))).count View.releases ≤ 1
    rw [hrel]
    exact h.oneRelease

theorem Inv.referring (h : Inv s) (hi : s.threads.get i = some (.referring v)) :
    Inv (goOn (s.modify v fun vchan ↦ { vchan with ctx := true }) i (some (.opening v))) := by
  refine h.goOn_frame hi (cell_goOn v h hi ?_ ?_ ?_ rfl rfl ?_) ⟨rfl, rfl, rfl, rfl, rfl, rfl, rfl,
    rfl⟩ ?_ ?_ (fun _ _ _ _ _ _ hw ↦ hw) rfl rfl ?_
  · rintro w ⟨⟩
    rfl
  · rintro k w ⟨⟩ ⟨⟩
    rfl
  · intro w hw
    simp [modify, hw]
  · obtain ⟨refs, life, died, place, ctxRef, ctx, opener, id⟩ := h.cell v
    obtain ⟨hholds, hraw, hfrees, hopens, hpreCtx, hnoCtx, hoffPchan⟩ :=
      nums_goOn hi (some (.opening v)) v
    have hpos : 0 < s.num View.preCtx v := num_pos hi rfl
    have hknown := s.known_le v
    simp only [VchanThread.view, Option.bind_some, reduceCtorEq, if_true, if_false]
      at hholds hraw hfrees hopens hpreCtx hnoCtx hoffPchan
    constructor
    case id =>
      intro hzero
      simpa [modify] using id (by omega)
    all_goals
      simp [modify]
      omega
  · exact modify_frame rfl ⟨rfl, rfl, rfl⟩
  · exact h.clear_goOn hi (by rintro k w ⟨⟩ ⟨⟩)
  · rintro k w ⟨⟩ (⟨⟨⟩⟩ | ⟨⟨⟩⟩)

/-- The reference passes to the list of the context. -/
theorem Inv.opening (h : Inv s) (hi : s.threads.get i = some (.opening v)) :
    Inv (goOn { s with vchannels := s.vchannels ++ [v] } i (some (.opened v))) := by
  refine h.goOn_frame hi (cell_goOn v h hi ?_ ?_ ?_ rfl rfl ?_) ⟨rfl, rfl, rfl, rfl, rfl, rfl, rfl,
    rfl⟩ (fun _ ↦ ⟨rfl, rfl, rfl⟩) ?_ (fun _ _ _ _ _ _ hw ↦ List.mem_append_left _ hw) rfl rfl ?_
  · rintro w ⟨⟩
    rfl
  · rintro k w ⟨⟩ ⟨⟩
    rfl
  · intro w hw
    simp [Ne.symm hw]
  · obtain ⟨refs, life, died, place, ctxRef, ctx, opener, id⟩ := h.cell v
    obtain ⟨hholds, hraw, hfrees, hopens, hpreCtx, hnoCtx, hoffPchan⟩ :=
      nums_goOn hi (some (.opened v)) v
    simp only [VchanThread.view, Option.bind_some, reduceCtorEq, if_true, if_false]
      at hholds hraw hfrees hopens hpreCtx hnoCtx hoffPchan
    constructor
    case id =>
      intro hzero
      exact id (by omega)
    all_goals
      simp
      omega
  · exact h.clear_goOn hi (by rintro k w ⟨⟩ ⟨⟩)
  · rintro k w ⟨⟩ (⟨⟨⟩⟩ | ⟨⟨⟩⟩)
    exact List.mem_append_right _ List.mem_cons_self

/-! ## Putting a vchan -/

theorem put_eq (hfreed : s.freed v = 0) (after : AfterPut) :
    s.put v after =
      if (s.vchan v).refcount = 1 then
        ({ s.modify v fun vchan ↦ { vchan with refcount := vchan.refcount - 1 } with
          died := Function.update s.died v true }, some (.freeing v .purge after))
      else (s.modify v fun vchan ↦ { vchan with refcount := vchan.refcount - 1 },
        after.resume) := by
  unfold put
  rw [touch_singleton hfreed]
  split <;> rfl

/-- The thread holds a reference to `v`, and goes on to `after` when it has put it. -/
structure Putting (t : VchanThread) (v : ℕ) (after : AfterPut) : Prop where
  vchan : t.vchan = some v
  holds : t.view.holds = some v
  raw : t.view.raw = none
  frees : t.view.frees = none
  preCtx : t.view.preCtx = none
  noCtx : t.view.noCtx = none
  offPchan : t.view.offPchan = none
  offIdr : t.view.offIdr = none
  saved : t.view.saved = after.saved
  releases : t.view.releases = after.releases
  ctxFrees : t.view.ctxFrees = false

theorem Inv.put (h : Inv s) {after : AfterPut} (hi : s.threads.get i = some t)
    (ht : Putting t v after) : Inv ((s.put v after).1.goOn i (s.put v after).2) := by
  rw [put_eq (h.freed_of_holds hi ht.holds)]
  obtain ⟨refs, life, died, place, ctxRef, ctx, opener, id⟩ := h.cell v
  have hpos : 0 < s.num View.holds v := num_pos hi ht.holds
  have hknown := s.known_le v
  have hsaved : ∀ w, after.saved = some w → w ∈ s.vchannels :=
    fun w hw ↦ h.saved i t w hi (ht.saved.trans hw)
  have hown : ∀ w, t.vchan = some w → w = v := by
    intro w hw
    exact Option.some.inj (hw.symm.trans ht.vchan)
  split
  · rename_i hlast
    refine h.goOn_frame hi (cell_goOn v h hi hown ?_ ?_ rfl rfl ?_) ⟨rfl, rfl, rfl, rfl, rfl, rfl,
      rfl, rfl⟩ ?_ ?_ (fun _ _ _ _ _ _ hw ↦ hw) ht.releases.symm ht.ctxFrees.symm ?_
    · rintro k w ⟨⟩ ⟨⟩
      rfl
    · intro w hw
      simp [modify, hw]
    · obtain ⟨hholds, hraw, hfrees, hopens, hpreCtx, hnoCtx, hoffPchan⟩ :=
        nums_goOn hi (some (.freeing v .purge after)) v
      rw [ht.holds] at hholds
      rw [ht.raw] at hraw
      rw [ht.frees] at hfrees
      rw [ht.preCtx] at hpreCtx
      rw [ht.noCtx] at hnoCtx
      rw [ht.offPchan] at hoffPchan
      have hdied : s.died v = false := by
        cases hd : s.died v with
        | false => rfl
        | true =>
            rw [hd, Bool.toNat_true] at died
            omega
      rw [hdied] at died
      have hnew : (VchanThread.freeing v .purge after).view =
          { frees := some v, saved := after.saved, releases := after.releases } := by
        simp [VchanThread.view]
      simp only [hnew, Option.bind_some, reduceCtorEq, if_true, if_false, Bool.toNat_false]
        at hholds hraw hfrees hopens hpreCtx hnoCtx hoffPchan died
      constructor
      case id =>
        intro hzero
        simpa [modify] using id (by omega)
      case opener =>
        show (s.goOn i (some (.freeing v .purge after))).num View.opens v + s.vchannels.count v ≤
          s.known v
        omega
      all_goals
        simp [modify, hlast]
        omega
    · exact modify_frame rfl ⟨rfl, rfl, rfl⟩
    · exact h.clear_goOn hi (by rintro k w ⟨⟩ ⟨⟩)
    · rintro k w ⟨⟩ (⟨⟨⟩⟩ | hw)
      exact hsaved w hw
  · rename_i hmore
    refine h.goOn_frame hi (cell_goOn v h hi hown ?_ ?_ rfl rfl ?_) ⟨rfl, rfl, rfl, rfl, rfl, rfl,
      rfl, rfl⟩ ?_ ?_ (fun _ _ _ _ _ _ hw ↦ hw) (after.releases_resume.trans ht.releases.symm)
      (after.ctxFrees_resume.trans ht.ctxFrees.symm) ?_
    · intro k w hk hw
      rw [AfterPut.vchan_resume hk] at hw
      cases hw
    · intro w hw
      simp [modify, hw]
    · have hnum := num_resume hi after v
      simp only [View.fields, List.forall_mem_cons] at hnum
      obtain ⟨hholds, hraw, hfrees, hopens, hpreCtx, hnoCtx, hoffPchan, -⟩ := hnum
      rw [ht.holds] at hholds
      rw [ht.raw] at hraw
      rw [ht.frees] at hfrees
      rw [ht.preCtx] at hpreCtx
      rw [ht.noCtx] at hnoCtx
      rw [ht.offPchan] at hoffPchan
      simp only [reduceCtorEq, if_true, if_false] at hholds hraw hfrees hpreCtx hnoCtx hoffPchan
      constructor
      case id =>
        intro hzero
        simpa [modify] using id (by omega)
      case opener =>
        show (s.goOn i after.resume).num View.opens v + s.vchannels.count v ≤ s.known v
        omega
      all_goals
        simp [modify]
        omega
    · exact modify_frame rfl ⟨rfl, rfl, rfl⟩
    · refine h.clear_goOn hi ?_
      intro k w hk hkw
      have hsome := @VchanThread.vchan_of_field View.offIdr (by simp [View.fields]) k w hkw
      rw [AfterPut.vchan_resume hk] at hsome
      cases hsome
    · intro k w hk hw
      exact hsaved w (AfterPut.later_resume hk hw)

/-! ## Freeing a vchan -/

theorem offIdr_le_frees (s : VchanSystem) (v : ℕ) :
    s.num View.offIdr v ≤ s.num View.frees v + s.num View.frees v := by
  apply Pool.count_le_add
  intro k hk
  simpa using VchanThread.frees_of_offIdr (of_decide_eq_true hk)

/-- The one thread that frees a vchan is the only one that is about it. -/
theorem Inv.freeing (h : Inv s) (hi : s.threads.get i = some t) (hv : t.view.frees = some v) :
    (s.known v = 1 ∧ (s.vchan v).refcount = 0 ∧ s.freed v = 0 ∧ s.num View.raw v = 0 ∧
      s.num View.frees v = 1) ∧
    s.num View.offPchan v = (if t.view.offPchan = some v then 1 else 0) ∧
    s.num View.noCtx v = (if t.view.noCtx = some v then 1 else 0) ∧
    s.num View.offIdr v = (if t.view.offIdr = some v then 1 else 0) := by
  obtain ⟨refs, life, -⟩ := h.cell v
  have hpos := num_pos hi hv
  have hknown := s.known_le v
  -- without that thread, none is left
  have hraw := num_goOn hi none View.raw v
  have hfrees := num_goOn hi none View.frees v
  have hholds := num_goOn hi none View.holds v
  have hoff := num_goOn hi none View.offPchan v
  have hctx := num_goOn hi none View.noCtx v
  have hidr := num_goOn hi none View.offIdr v
  simp only [Option.bind_none, reduceCtorEq, if_false, Nat.add_zero]
    at hraw hfrees hholds hoff hctx hidr
  rw [if_pos hv] at hfrees
  have hle : (s.goOn i none).num View.offPchan v ≤
      (s.goOn i none).num View.raw v + (s.goOn i none).num View.frees v := by
    apply Pool.count_le_add
    intro k hk
    simpa using VchanThread.raw_or_frees_of_offPchan (of_decide_eq_true hk)
  have hleCtx : (s.goOn i none).num View.noCtx v ≤
      (s.goOn i none).count (fun view ↦ view.raw = some v || view.holds = some v) +
        (s.goOn i none).num View.frees v := by
    apply Pool.count_le_add
    intro k hk
    simpa using VchanThread.early_or_frees_of_noCtx (of_decide_eq_true hk)
  have hleHolds : (s.goOn i none).count (fun view ↦ view.raw = some v || view.holds = some v) ≤
      (s.goOn i none).num View.raw v + (s.goOn i none).num View.holds v := by
    apply Pool.count_le_add
    intro k hk
    simpa using hk
  have hleIdr := (s.goOn i none).offIdr_le_frees v
  refine ⟨⟨?_, ?_, ?_, ?_, ?_⟩, ?_, ?_, ?_⟩ <;> omega

section Freeing

variable {after : AfterPut} {stage : FreeStage}

theorem Inv.unlistPchan (h : Inv s) (hi : s.threads.get i = some (.freeing v .unlist after)) :
    Inv (goOn { s with pchannels := s.pchannels.erase v } i
      (some (.freeing v .ctxPut after))) := by
  obtain ⟨⟨hknown, hzero, hfreed, hraw, hfrees⟩, hoff, hctx, hidr⟩ := h.freeing hi rfl
  refine h.goOn_frame hi (cell_goOn v h hi ?_ ?_ ?_ rfl rfl ?_) ⟨rfl, rfl, rfl, rfl, rfl, rfl, rfl,
    rfl⟩ (fun _ ↦ ⟨rfl, rfl, rfl⟩) ?_ (fun _ _ _ _ _ _ hw ↦ hw) rfl rfl ?_
  · rintro w ⟨⟩
    rfl
  · rintro k w ⟨⟩ ⟨⟩
    rfl
  · intro w hw
    exact ⟨rfl, rfl, rfl, rfl, List.count_erase_of_ne hw⟩
  · obtain ⟨refs, life, died, place, ctxRef, ctx, opener, id⟩ := h.cell v
    obtain ⟨hholds', hraw', hfrees', hopens', hpreCtx', hnoCtx', hoffPchan'⟩ :=
      nums_goOn hi (some (.freeing v .ctxPut after)) v
    simp [VchanThread.view] at hoff hholds' hraw' hfrees' hopens' hpreCtx' hnoCtx' hoffPchan'
    constructor
    case id =>
      intro hz
      exact id (by omega)
    case place =>
      show (s.pchannels.erase v).count v +
        (s.goOn i (some (.freeing v .ctxPut after))).num View.offPchan v + s.freed v = _
      rw [List.count_erase_self]
      omega
    all_goals
      simp
      omega
  · exact h.clear_goOn hi (by rintro k w ⟨⟩ ⟨⟩)
  · rintro k w ⟨⟩ (⟨⟨⟩⟩ | hw)
    exact h.saved i _ w hi hw

/-- The thread that frees a vchan goes on without it being in `vchan_idr`. -/
theorem Inv.idrRemove (h : Inv s)
    (hi : s.threads.get i = some (.freeing v .idrRemove after)) :
    Inv (goOn { s with
      vchanIdr := Function.update s.vchanIdr (s.vchan v).pchan
        (Function.update (s.vchanIdr (s.vchan v).pchan) (habVcidGetId (s.vchan v).id) none) } i
      (some (.freeing v .pchanPut after))) := by
  obtain ⟨⟨hknown, hzero, hfreed, hraw, hfrees⟩, hoff, hctx, hidr⟩ := h.freeing hi rfl
  have hid : habVcidGetId (s.vchan v).id = (s.vchan v).idr := by
    rw [(h.cell v).id hraw hknown, habVcidGetId_habVcid]
  rw [hid]
  have hrel := count_goOn hi (some (.freeing v .pchanPut after)) View.releases
  have hfree := count_goOn hi (some (.freeing v .pchanPut after)) View.ctxFrees
  simp only [VchanThread.view, Option.any_some] at hrel hfree
  have hback := @Inv.later_goOn s i _ (some (.freeing v .pchanPut after)) s h hi rfl
    (fun _ _ _ _ _ _ hw ↦ hw) (by
      rintro k w ⟨⟩ (⟨⟨⟩⟩ | hw)
      exact h.saved i _ w hi hw)
  refine ⟨cell_goOn v h hi ?_ ?_ ?_ rfl rfl ?_, ?_, ?_, ?_, ?_, hback.1, hback.2, h.clean, h.kept⟩
  · rintro w ⟨⟩
    rfl
  · rintro k w ⟨⟩ ⟨⟩
    rfl
  · intro w hw
    exact ⟨rfl, rfl, rfl, rfl, rfl⟩
  · obtain ⟨refs, life, died, place, ctxRef, ctx, opener, id⟩ := h.cell v
    obtain ⟨hholds', hraw', hfrees', hopens', hpreCtx', hnoCtx', hoffPchan'⟩ :=
      nums_goOn hi (some (.freeing v .pchanPut after)) v
    simp [VchanThread.view] at hholds' hraw' hfrees' hopens' hpreCtx' hnoCtx' hoffPchan'
    constructor
    case id =>
      intro hz
      exact id (by omega)
    all_goals
      simp
      omega
  · intro p n w hw
    have hw' : s.vchanIdr p n = some w ∧ w ≠ v := by
      by_cases hp : p = (s.vchan v).pchan
      · subst hp
        simp only [goOn, Function.update_self] at hw
        by_cases hn : n = (s.vchan v).idr
        · subst hn
          simp at hw
        · rw [Function.update_of_ne hn] at hw
          refine ⟨hw, ?_⟩
          rintro rfl
          exact hn (h.idr _ _ _ hw).2.2.1.symm
      · simp only [goOn] at hw
        rw [Function.update_of_ne hp] at hw
        refine ⟨hw, ?_⟩
        rintro rfl
        exact hp (h.idr _ _ _ hw).2.1.symm
    obtain ⟨hw', hne⟩ := hw'
    obtain ⟨hlt, hp, hn, hclear⟩ := h.idr p n w hw'
    refine ⟨hlt, hp, hn, ?_⟩
    show (s.goOn i (some (.freeing v .pchanPut after))).num View.offIdr w + s.freed w = 0
    rw [num_goOn_of_ne (by simp [View.fields]) hi]
    · exact hclear
    · rintro ⟨⟩
      exact hne rfl
    · rintro k ⟨⟩ ⟨⟩
      exact hne rfl
  · show s.ctxRefcount = s.file.toNat + (s.goOn i _).count View.releases + s.ctxRefs
    have hcount := h.ctxCount
    omega
  · show min 1 s.ctxRefcount + (s.goOn i _).count View.ctxFrees + s.ctxFreed = 1
    have hlife := h.ctxLife
    omega
  · show s.file.toNat + (s.goOn i _).count View.releases ≤ 1
    have hone := h.oneRelease
    omega

theorem Inv.kfree (h : Inv s) (hi : s.threads.get i = some (.freeing v .kfree after)) :
    Inv (goOn { s with freed := Function.update s.freed v (s.freed v + 1) } i after.resume) := by
  obtain ⟨⟨hknown, hzero, hfreed, hraw, hfrees⟩, hoff, hctx, hidr⟩ := h.freeing hi rfl
  refine h.goOn_frame hi (cell_goOn v h hi ?_ ?_ ?_ rfl rfl ?_) ⟨rfl, rfl, rfl, rfl, rfl, rfl, rfl,
    rfl⟩ (fun _ ↦ ⟨rfl, rfl, rfl⟩) ?_ (fun _ _ _ _ _ _ hw ↦ hw) after.releases_resume
    after.ctxFrees_resume ?_
  · rintro w ⟨⟩
    rfl
  · intro k w hk hw
    rw [AfterPut.vchan_resume hk] at hw
    cases hw
  · intro w hw
    exact ⟨rfl, Function.update_of_ne hw _ _, rfl, rfl, rfl⟩
  · obtain ⟨refs, life, died, place, ctxRef, ctx, opener, id⟩ := h.cell v
    have hnum := num_resume hi after v
    simp only [View.fields, List.forall_mem_cons] at hnum
    obtain ⟨hholds', hraw', hfrees', hopens', hpreCtx', hnoCtx', hoffPchan', -⟩ := hnum
    simp [VchanThread.view] at hoff hctx hholds' hraw' hfrees' hopens' hpreCtx' hnoCtx' hoffPchan'
    constructor
    case id =>
      intro hz
      exact id (by omega)
    all_goals
      simp
      omega
  · intro p n w hw
    have hne : w ≠ v := by
      rintro rfl
      have hclear := (h.idr p n w hw).2.2.2
      simp [VchanThread.view] at hidr
      omega
    show _ + Function.update s.freed v _ w = 0
    rw [Function.update_of_ne hne, h.freed_of_idr hw]
    apply h.offIdr_goOn hi _ hw
    intro k w hk hkw
    have hsome := @VchanThread.vchan_of_field View.offIdr (by simp [View.fields]) k w hkw
    rw [AfterPut.vchan_resume hk] at hsome
    cases hsome
  · intro k w hk hw
    exact h.saved i _ w hi (AfterPut.later_resume hk hw)

end Freeing

end VchanSystem

end Hab
