import Hab.VchanContext

/-!
# The life of a vchan is safe

A vchan is freed once, when its last reference is put, and nobody looks at it afterwards,
as long as no vchan is taken off its context while a thread is to come back to it.  Two
threads do: `hab_vchan_open` reads `vchan->id` after the vchan is on the context, and the
walk of `hab_release` has the next vchan in `tmp` while it does not hold `ctx_lock`.
-/

namespace Hab

namespace VchanSystem

variable {s : VchanSystem} {i v : ℕ} {t : VchanThread}

/-- No `hab_vchan_open` is still to read the id of the vchan. -/
def unread (s : VchanSystem) (v : ℕ) : Bool :=
  s.threads.all fun t ↦ t.view.published ≠ some v

/-- No walk of `hab_release` has the vchan in `tmp`. -/
def unsaved (s : VchanSystem) (v : ℕ) : Bool :=
  s.threads.all fun t ↦ t.view.saved ≠ some v

/-- The vchan that the thread makes refer to the context finds it there, and the one that it
takes off the context is no longer needed there. -/
def mayGoOn (s : VchanSystem) : VchanThread → Bool
  | .counted _ => s.ctxRefcount ≠ 0
  | .releasing => s.vchannels.head?.all s.unread
  | .walking tmp => tmp.all s.unread
  | _ => true

/-- A vchan is taken off the context only where no thread is to come back to it, and
refers to the context only while that is there. -/
def careful (s : VchanSystem) : VchanAct → Bool
  | .close vcid => (s.onCtx vcid).all fun v ↦ s.unread v && s.unsaved v
  | .go i .next => (s.threads.get i).all s.mayGoOn
  | _ => true

theorem unread_iff : s.unread v = true ↔
    ∀ j k, s.threads.get j = some k → k.view.published ≠ some v := by
  rw [unread, Pool.all_eq_true]
  simp only [decide_eq_true_eq]

theorem unsaved_iff : s.unsaved v = true ↔
    ∀ j k, s.threads.get j = some k → k.view.saved ≠ some v := by
  rw [unsaved, Pool.all_eq_true]
  simp only [decide_eq_true_eq]

/-! ## Steps -/

theorem Putting.sending (v : ℕ) : Putting (.sending v) v .done :=
  ⟨rfl, rfl, rfl, rfl, rfl, rfl, rfl, rfl, rfl, rfl, rfl⟩

theorem Putting.receiving (v : ℕ) : Putting (.receiving v) v .done :=
  ⟨rfl, rfl, rfl, rfl, rfl, rfl, rfl, rfl, rfl, rfl, rfl⟩

theorem Putting.handling (v : ℕ) : Putting (.handling v) v .done :=
  ⟨rfl, rfl, rfl, rfl, rfl, rfl, rfl, rfl, rfl, rfl, rfl⟩

theorem Putting.opening (v : ℕ) : Putting (.opening v) v .done :=
  ⟨rfl, rfl, rfl, rfl, rfl, rfl, rfl, rfl, rfl, rfl, rfl⟩

theorem Putting.closing (v : ℕ) (after : AfterPut) : Putting (.closing v .put after) v after :=
  ⟨rfl, rfl, rfl, rfl, rfl, rfl, rfl, rfl, rfl, rfl, rfl⟩

/-- A thread looks at the vchan that it holds, and is counted as before. -/
theorem Inv.look (h : Inv s) {t' : VchanThread} (hi : s.threads.get i = some t)
    (hholds : t.view.holds = some v) (hview : t'.view = t.view) :
    Inv ((s.touch [v]).goOn i (some t')) := by
  rw [touch_singleton (h.freed_of_holds hi hholds)]
  exact h.goOn_of_view hi hview

/-- It changes a field of the vchan that nothing is counted by. -/
theorem Inv.mark (h : Inv s) {f : VchanCell → VchanCell} {t' : VchanThread}
    (hi : s.threads.get i = some t) (hholds : t.view.holds = some v)
    (hf : ∀ c, VchanCell.Same c (f c)) (hview : t'.view = t.view) :
    Inv (((s.touch [v]).modify v f).goOn i (some t')) := by
  rw [touch_singleton (h.freed_of_holds hi hholds)]
  have hmodified : Inv (s.modify v f) := by
    apply h.vchan
    intro w
    by_cases hw : w = v
    · subst hw
      rw [Function.update_self]
      exact hf (s.vchan w)
    · rw [Function.update_of_ne hw]
      exact ⟨rfl, rfl, rfl, rfl, rfl, rfl⟩
  exact hmodified.goOn_of_view hi hview

/-- The thread that had put the vchan into the context has read its id. -/
theorem Inv.returned (h : Inv s) (hi : s.threads.get i = some (.opened v)) :
    Inv (s.goOn i none) := by
  have hview : ∀ field ∈ View.fields, field (VchanThread.opened v).view = none := by
    intro field hfield
    simp only [View.fields, List.mem_cons, List.not_mem_nil, or_false] at hfield
    rcases hfield with rfl | rfl | rfl | rfl | rfl | rfl | rfl | rfl <;> rfl
  exact h.goOn_context hi (fun field hfield ↦ (hview field hfield).symm) (fun _ _ hk ↦ by cases hk)
    (Nat.le_refl 0) rfl rfl

variable {after : AfterPut}

theorem Inv.free (h : Inv s) {stage : FreeStage}
    (hi : s.threads.get i = some (.freeing v stage after)) :
    Inv ((s.free v stage after).1.goOn i (s.free v stage after).2) := by
  have hfreed : s.freed v = 0 := h.freed_of_frees hi rfl
  cases stage with
  | purge =>
      rw [VchanSystem.free, touch_singleton hfreed]
      exact h.goOn_of_view hi (by simp [VchanThread.view])
  | unlist =>
      rw [VchanSystem.free, touch_of_freed]
      · exact h.unlistPchan hi
      · intro w hw
        rcases List.mem_cons.mp hw with rfl | hw
        · exact hfreed
        · exact h.freed_of_mem_pchannels (List.mem_filter.mp hw).1
  | ctxPut =>
      rw [VchanSystem.free, touch_singleton hfreed]
      simp only [VchanSystem.ctxPut, decide_eq_true_eq]
      exact h.ctxPut hi
  | idrRemove =>
      rw [VchanSystem.free, VchanSystem.idrRemove, touch_singleton hfreed]
      exact h.idrRemove hi
  | pchanPut =>
      rw [VchanSystem.free, touch_onPchan h]
      exact h.goOn_of_view hi (by simp [VchanThread.view])
  | kfree => exact h.kfree hi

/-- A round of the walk of `hab_release`. -/
theorem Inv.walkFrom (h : Inv s) {tmp : Option ℕ} (hi : s.threads.get i = some t)
    (ht : t = .releasing ∧ tmp = s.vchannels.head? ∨ t = .walking tmp)
    (hunread : tmp.all s.unread = true) :
    Inv ((s.walkFrom tmp).1.goOn i (s.walkFrom tmp).2) := by
  cases tmp with
  | none =>
      apply h.goOn_of_view hi
      rcases ht with ⟨rfl, -⟩ | rfl <;> rfl
  | some v =>
      have hv : v ∈ s.vchannels := by
        rcases ht with ⟨-, hhead⟩ | rfl
        · exact List.mem_of_head? hhead.symm
        · exact h.saved i _ v hi rfl
      rw [VchanSystem.walkFrom, if_pos hv]
      apply h.take hi _ hv (unread_iff.mp hunread)
      rcases ht with ⟨rfl, -⟩ | rfl
      · exact .inl rfl
      · exact .inr rfl

/-- A call that has looked a vchan up by its id. -/
theorem Inv.fromvcid (h : Inv s) (vcid : UInt32) (ignoreRemote : Bool) {call : ℕ → VchanThread}
    (habout : ∀ v, (call v).vchan = some v) (hview : ∀ v, (call v).view = { holds := some v }) :
    Inv (spawn (s.habGetVchanFromvcid vcid ignoreRemote) call) := by
  unfold habGetVchanFromvcid
  rw [touch_vchannels h]
  cases hv : s.onCtx vcid with
  | none => exact h
  | some v =>
      by_cases hgone : ((!ignoreRemote && (s.vchan v).otherendClosed) || (s.vchan v).closed ||
        (s.vchan v).refcount = 0) = true
      · simp only [if_pos hgone]
        exact h
      · simp only [if_neg hgone]
        apply h.get _ (habout v) (hview v)
        intro hzero
        simp [hzero] at hgone

theorem Inv.habVchanGet (h : Inv s) (pchan : HabPchan) (vchanId sessionId : UInt32) :
    Inv (spawn (s.habVchanGet pchan vchanId sessionId) .handling) := by
  unfold VchanSystem.habVchanGet
  cases hv : s.vchanIdr pchan (habVcidGetId vchanId) with
  | none => exact h
  | some v =>
      simp only [touch_singleton (h.freed_of_idr hv)]
      split
      · exact h
      · rename_i halive
        apply h.get _ rfl rfl
        intro hzero
        simp [hzero] at halive

section Moves

variable {move : Move} {next : VchanSystem × Option VchanThread}

theorem same_otherendClosed (c : VchanCell) :
    VchanCell.Same c { c with otherendClosed := true } :=
  ⟨rfl, rfl, rfl, rfl, rfl, rfl⟩

theorem closing_next {stage : ClosingStage}
    (hstep : s.advance (.closing v stage after) move = some next) : move = .next := by
  cases move with
  | next => rfl
  | _ => cases stage <;> cases hstep

/-- `hab_vchan_close` sends the CLOSE, stops the vchan and puts its reference. -/
theorem Inv.closing (h : Inv s) {stage : ClosingStage}
    (hi : s.threads.get i = some (.closing v stage after))
    (hstep : s.advance (.closing v stage after) .next = some next) :
    Inv (next.1.goOn i next.2) := by
  cases stage with
  | notify =>
      cases hstep
      exact h.look hi rfl rfl
  | stop =>
      cases hstep
      exact h.mark hi rfl same_otherendClosed rfl
  | put =>
      cases hstep
      exact h.put hi (Putting.closing v after)

/-- A thread goes on to what it does next. -/
theorem Inv.advance_next (h : Inv s) (hi : s.threads.get i = some t) (hmay : s.mayGoOn t = true)
    (hstep : s.advance t .next = some next) : Inv (next.1.goOn i next.2) := by
  cases t with
  | allocated v openId =>
      cases hstep
      rw [touch_singleton (h.freed_of_raw hi rfl)]
      exact h.allocated hi
  | listed v =>
      cases hstep
      rw [touch_singleton (h.freed_of_raw hi rfl)]
      exact h.listed hi
  | counted v =>
      cases hstep
      exact h.counted hi (of_decide_eq_true hmay)
  | referring v =>
      cases hstep
      rw [touch_singleton (h.freed_of_holds hi rfl)]
      exact h.referring hi
  | opening v =>
      cases hstep
      rw [touch_singleton (h.freed_of_holds hi rfl)]
      exact h.opening hi
  | opened v =>
      cases hstep
      rw [touch_singleton (h.freed_of_mem_vchannels (h.published i _ v hi rfl))]
      exact h.returned hi
  | sending v =>
      cases hstep
      exact h.put hi (Putting.sending v)
  | leaked v => cases hstep
  | receiving v =>
      cases hstep
      exact h.put hi (Putting.receiving v)
  | handling v =>
      cases hstep
      exact h.put hi (Putting.handling v)
  | closing v stage after => exact h.closing hi hstep
  | freeing v stage after =>
      cases hstep
      exact h.free hi
  | ctxFreeing freeing after =>
      cases hstep
      cases freeing with
      | none => exact h.ctxFreed hi
      | some v => exact h.ctxFreed hi
  | releasing =>
      cases hstep
      exact h.walkFrom hi (.inl ⟨rfl, rfl⟩) hmay
  | walking tmp =>
      cases hstep
      exact h.walkFrom hi (.inr rfl) hmay
  | filePut =>
      cases hstep
      simp only [VchanSystem.ctxPut, decide_eq_true_eq]
      exact h.filePut hi

/-- A thread looks at what it works on, and stays where it is. -/
theorem Inv.advance_again (h : Inv s) (hi : s.threads.get i = some t)
    (hstep : s.advance t .again = some next) : Inv (next.1.goOn i next.2) := by
  cases t with
  | opening v | sending v | receiving v | handling v =>
      cases hstep
      exact h.look hi rfl rfl
  | ctxFreeing freeing after =>
      cases hstep
      rw [touch_vchannels h]
      exact h.goOn_of_view hi rfl
  | closing => cases closing_next hstep
  | _ => cases hstep

theorem Inv.advance (h : Inv s) (hi : s.threads.get i = some t)
    (hcareful : s.careful (.go i move) = true) (hstep : s.advance t move = some next) :
    Inv (next.1.goOn i next.2) := by
  cases move with
  | next =>
      rw [careful, hi] at hcareful
      exact h.advance_next hi hcareful hstep
  | again => exact h.advance_again hi hstep
  | pair otherendId =>
      cases t with
      | opening v =>
          cases hstep
          exact h.mark hi rfl (fun _ ↦ ⟨rfl, rfl, rfl, rfl, rfl, rfl⟩) rfl
      | closing => cases closing_next hstep
      | _ => cases hstep
  | fail =>
      cases t with
      | opening v =>
          cases hstep
          exact h.put hi (Putting.opening v)
      | closing => cases closing_next hstep
      | _ => cases hstep
  | tooSmall =>
      -- `hab_vchan_send` returns without a put
      cases t with
      | sending v =>
          cases hstep
          exact h.look hi rfl rfl
      | closing => cases closing_next hstep
      | _ => cases hstep
  | stop =>
      cases t with
      | handling v =>
          cases hstep
          exact h.mark hi rfl same_otherendClosed rfl
      | closing => cases closing_next hstep
      | _ => cases hstep
  | walkPchan pchan =>
      cases t with
      | ctxFreeing freeing after =>
          cases hstep
          rw [touch_onPchan h]
          exact h.goOn_of_view hi rfl
      | closing => cases closing_next hstep
      | _ => cases hstep

end Moves

theorem Inv.step (h : Inv s) {act : VchanAct} {s' : VchanSystem} (hcareful : s.careful act = true)
    (hstep : s.step act = some s') : Inv s' := by
  cases act with
  | alloc pchan idr openId =>
      rw [VchanSystem.step] at hstep
      split at hstep
      · cases hstep
        exact h.alloc pchan idr openId
      · cases hstep
  | send vcid =>
      cases hstep
      exact h.fromvcid vcid false (fun v ↦ rfl) fun v ↦ rfl
  | recv vcid =>
      cases hstep
      exact h.fromvcid vcid true (fun v ↦ rfl) fun v ↦ rfl
  | close vcid =>
      cases hstep
      rw [touch_vchannels h]
      cases hv : s.onCtx vcid with
      | none => exact h
      | some v =>
          rw [careful, hv, Option.all_some, Bool.and_eq_true] at hcareful
          obtain ⟨hunread, hunsaved⟩ := hcareful
          exact h.close (List.mem_of_find?_eq_some hv) fun j k hk ↦
            ⟨unread_iff.mp hunread j k hk, unsaved_iff.mp hunsaved j k hk⟩
  | release =>
      rw [VchanSystem.step] at hstep
      split at hstep
      · rename_i hfile
        cases hstep
        exact h.release hfile
      · cases hstep
  | message pchan vchanId sessionId =>
      cases hstep
      exact h.habVchanGet pchan vchanId sessionId
  | stopAll pchan =>
      cases hstep
      rw [touch_onPchan h]
      apply h.vchan
      intro v
      split <;> exact ⟨rfl, rfl, rfl, rfl, rfl, rfl⟩
  | go i move =>
      rw [VchanSystem.step] at hstep
      cases hi : s.threads.get i with
      | none =>
          rw [hi] at hstep
          cases hstep
      | some t =>
          rw [hi] at hstep
          obtain ⟨next, hadvance, rfl⟩ := Option.map_eq_some_iff.mp hstep
          exact h.advance hi hcareful hadvance

theorem Inv.start : Inv start := by
  refine ⟨?_, ?_, rfl, rfl, Nat.le_refl 1, ?_, ?_, rfl, rfl⟩
  · intro v
    have hknown : VchanSystem.start.known v = 0 := if_neg (Nat.not_lt_zero v)
    show Account _ (VchanSystem.start.known v) _ _ _ _ _
    rw [hknown]
    exact ⟨rfl, rfl, rfl, rfl, rfl, rfl, Nat.le_refl 0, fun _ hone ↦ by cases hone⟩
  · intro p n v hv
    cases hv
  · intro j k v hk
    cases hk
  · intro j k v hk
    cases hk

/-! ## Runs -/

structure Safe (s : VchanSystem) : Prop where
  once : ∀ v, s.freed v ≤ 1
  /-- What has been freed had come down to 0 before. -/
  dead : ∀ v, s.freed v ≠ 0 → s.died v = true ∧ (s.vchan v).refcount = 0
  clean : s.useAfterFree = false
  kept : s.revived = false
  /-- Nothing alive refers to a context that has been freed. -/
  ctx : s.ctxFreed ≠ 0 → ∀ v, (s.vchan v).ctx = true → (s.vchan v).refcount = 0

theorem VchanThread.preCtx_or_frees_of_noCtx {t : VchanThread} (hv : t.view.noCtx = some v) :
    t.view.preCtx = some v ∨ t.view.frees = some v := by
  cases t <;> simp_all [VchanThread.view]

/-- A vchan that refers to the context, and is alive, has a reference to it. -/
theorem Inv.ctxRef_of_ctx (h : Inv s) (hctx : (s.vchan v).ctx = true)
    (halive : (s.vchan v).refcount ≠ 0) : v < s.nextVchan ∧ (s.vchan v).ctxRef = true := by
  obtain ⟨refs, life, died, place, ctxRef, ctx, opener, id⟩ := h.cell v
  have hle : s.num View.noCtx v ≤ s.num View.preCtx v + s.num View.frees v := by
    apply Pool.count_le_add
    intro k hk
    simpa using VchanThread.preCtx_or_frees_of_noCtx (of_decide_eq_true hk)
  have hknown := s.known_le v
  rw [hctx, Bool.toNat_true] at ctx
  constructor
  · by_contra hlt
    have hzero : s.known v = 0 := if_neg hlt
    omega
  · cases hc : (s.vchan v).ctxRef with
    | true => rfl
    | false =>
        rw [hc, Bool.toNat_false] at ctxRef
        omega

theorem Inv.safe (h : Inv s) : Safe s := by
  refine ⟨?_, ?_, h.clean, h.kept, ?_⟩
  · intro v
    have hlife := (h.cell v).life
    have hknown := s.known_le v
    omega
  · intro v hv
    obtain ⟨refs, life, died, -⟩ := h.cell v
    have hknown := s.known_le v
    constructor
    · cases hd : s.died v with
      | true => rfl
      | false =>
          rw [hd, Bool.toNat_false] at died
          omega
    · omega
  · intro hfreed v hctx
    by_contra halive
    obtain ⟨hlt, hhas⟩ := h.ctxRef_of_ctx hctx halive
    have hpos : 0 < s.ctxRefs := Pool.countBelow_pos hlt rfl hhas
    have hcount := h.ctxCount
    have hlife := h.ctxLife
    omega

/-- Where no vchan is taken away from a thread that is to come back to it, the life of
every vchan is safe, and so is that of the context. -/
theorem safe_of_meets {acts : List VchanAct}
    (hmeets : Runs.Meets step (fun s act ↦ s.careful act = true) start acts)
    (hrun : Runs.exec step start acts = some s) : Safe s := by
  have hkeep (s : VchanSystem) (act : VchanAct) (s' : VchanSystem) (h : Inv s)
      (hcareful : s.careful act = true) (hstep : s.step act = some s') : Inv s' :=
    h.step hcareful hstep
  exact (Runs.invariant_of_meets hkeep Inv.start hmeets hrun).safe

/-- A vchan is opened up to the read of its id. -/
def openRun : List VchanAct :=
  .alloc (vcidPchan 0) (habVcidGetId 1) 1 :: List.replicate 5 (.go 0 .next)

/-- The vchan is closed, and its last reference put. -/
def closeRun (i : ℕ) : List VchanAct := .close 1 :: List.replicate 9 (.go i .next)

/-- A message is sent on a vchan; then it is closed, and the context released. -/
def wholeLife : List VchanAct :=
  openRun ++ [.go 0 .next, .send 1, .go 1 .again, .go 1 .next] ++ closeRun 2 ++
    [.release, .go 3 .next, .go 3 .next, .go 3 .next]

theorem safe_of_meets_wholeLife :
    ∃ s, Runs.exec step start wholeLife = some s ∧ (s.freed 0, s.ctxFreed) = (1, 1) ∧
      Safe s := by
  have hseen : (Runs.exec step start wholeLife).map (fun s ↦ (s.freed 0, s.ctxFreed)) =
      some (1, 1) := by
    decide
  obtain ⟨s, hrun, hfreed⟩ := Option.map_eq_some_iff.mp hseen
  refine ⟨s, hrun, hfreed, safe_of_meets (by decide) hrun⟩

/-- The vchan is closed and freed by a thread that has guessed its id, before
`hab_vchan_open` reads that. -/
theorem not_safe :
    ¬ ∀ (acts : List VchanAct) (s : VchanSystem),
      Runs.exec step start acts = some s → Safe s := by
  intro h
  have hseen : (Runs.exec step start (openRun ++ closeRun 1 ++ [.go 0 .next])).map
      useAfterFree = some true := by
    decide
  obtain ⟨s, hrun, hused⟩ := Option.map_eq_some_iff.mp hseen
  rw [(h _ s hrun).clean] at hused
  cases hused

end VchanSystem

end Hab
