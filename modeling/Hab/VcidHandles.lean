import Hab.Library.Registry
import Hab.Library.Runs
import Hab.Vchan

/-!
# Vcids as handles

A vchan is made and taken apart step by step, while other threads look it up by its id or
by its key in the `vchan_idr` of its pchan.  Here references are dropped by anybody at any
time, so nothing rests on who holds one: that no two live vchans have one id follows from
the order in which `hab_vchan_alloc` and `hab_vchan_free` do what they do.
-/

namespace Hab

namespace Handles

/-- What `hab_vchan_alloc` has done last. -/
inductive AllocStage where
  /-- `idr_alloc`. -/
  | numbered
  /-- The section of `vchans_lock`. -/
  | listed
  /-- `vchan->id` is set. -/
  | named
  /-- `kref_init`. -/
  | counted
  /-- `vchan->otherend_closed` is set, and the vchan is returned. -/
  | done
deriving DecidableEq

/-- What `hab_vchan_free` does next. -/
inductive FreeStage where
  /-- The section of `vchans_lock`. -/
  | unlist
  /-- The section of `vid_lock`. -/
  | idrRemove
  | kfree
  | freed
deriving DecidableEq

variable {π : Type*}

/-- `struct virtual_channel`, and how far its making and its end have come. -/
structure Vchan (π : Type*) where
  pchan : π
  /-- What `idr_alloc` returned. -/
  idr : Fin 4096
  /-- The context that asked for the vchan. -/
  ctx : ℕ
  id : UInt32
  sessionId : UInt32
  otherendId : UInt32
  refcount : ℕ
  closed : Bool
  otherendClosed : Bool
  alloc : AllocStage
  free : Option FreeStage

structure State (π : Type*) where
  vchan : ℕ → Vchan π
  nextVchan : ℕ
  /-- `ctx->vchannels`. -/
  onCtx : ℕ → List ℕ
  /-- `pchan->vchannels`. -/
  onPchan : π → List ℕ
  /-- `pchan->vchan_idr`. -/
  vchanIdr : π × Fin 4096 → Option ℕ

/-- The block that `hab_vchan_alloc` starts with is zeroed. -/
def newVchan (ctx : ℕ) (pchan : π) (idr : Fin 4096) (openId : UInt32) : Vchan π where
  pchan := pchan
  idr := idr
  ctx := ctx
  id := 0
  sessionId := openId
  otherendId := 0
  refcount := 0
  closed := false
  otherendClosed := false
  alloc := .numbered
  free := none

inductive Act (π : Type*) where
  /-- `hab_vchan_alloc` up to the section of `vid_lock`, where `idr_alloc` returns `idr`. -/
  | alloc (ctx : ℕ) (pchan : π) (idr : Fin 4096) (openId : UInt32)
  /-- `hab_vchan_alloc` goes on; `closed` is `pchan->closed`. -/
  | allocGo (v : ℕ) (closed : Bool)
  /-- The handshake sets `vchan->otherend_id`. -/
  | pair (v : ℕ) (otherendId : UInt32)
  /-- `hab_vchan_open` puts the vchan on its context. -/
  | opened (v : ℕ)
  | get (ctx : ℕ) (vcid : UInt32) (ignoreRemote : Bool)
  | recv (pchan : π) (vchanId sessionId : UInt32)
  | put (v : ℕ)
  | close (ctx : ℕ) (vcid : UInt32)
  /-- `hab_release` takes a vchan off its context. -/
  | release (ctx v : ℕ)
  /-- `hab_vchan_stop`. -/
  | stop (v : ℕ)
  /-- `hab_vchan_free` goes on. -/
  | freeGo (v : ℕ)

namespace State

def modify (s : State π) (v : ℕ) (f : Vchan π → Vchan π) : State π :=
  { s with vchan := Function.update s.vchan v (f (s.vchan v)) }

/-- `kref_get_unless_zero`. -/
def kref (s : State π) (v : ℕ) : Option ℕ × State π :=
  if (s.vchan v).refcount = 0 then (none, s)
  else (some v, s.modify v fun vchan ↦ { vchan with refcount := vchan.refcount + 1 })

def habGetVchanFromvcid (s : State π) (ctx : ℕ) (vcid : UInt32) (ignoreRemote : Bool) :
    Option ℕ × State π :=
  match (s.onCtx ctx).find? fun v ↦ (s.vchan v).id = vcid with
  | none => (none, s)
  | some v =>
      if (!ignoreRemote && (s.vchan v).otherendClosed) || (s.vchan v).closed then (none, s)
      else s.kref v

def habVchanGet (s : State π) (pchan : π) (vchanId sessionId : UInt32) : Option ℕ × State π :=
  match s.vchanIdr (pchan, habVcidGetId vchanId) with
  | none => (none, s)
  | some v =>
      if (s.vchan v).sessionId ≠ sessionId ∨ (s.vchan v).otherendId = 0 ∨
          (s.vchan v).otherendClosed ∨ (s.vchan v).closed then (none, s)
      else s.kref v

/-- `hab_vchan_put`: with the last reference `hab_vchan_free` starts. -/
def habVchanPut (s : State π) (v : ℕ) : State π :=
  s.modify v fun vchan ↦
    { vchan with
      refcount := vchan.refcount - 1
      free := if vchan.refcount = 1 then some .unlist else vchan.free }

/-- A vchan is taken off a context. -/
def unlist (s : State π) (ctx v : ℕ) : State π :=
  { s.modify v fun vchan ↦ { vchan with closed := true } with
    onCtx := Function.update s.onCtx ctx ((s.onCtx ctx).erase v) }

/-- The section of `ctx_lock` in `hab_vchan_close`. -/
def habVchanClose (s : State π) (ctx : ℕ) (vcid : UInt32) : State π :=
  match (s.onCtx ctx).find? fun v ↦ (s.vchan v).id = vcid with
  | none => s
  | some v => s.unlist ctx v

variable [DecidableEq π]

/-- `hab_vchan_alloc` up to the section of `vid_lock`. -/
def idrAlloc (s : State π) (ctx : ℕ) (pchan : π) (idr : Fin 4096) (openId : UInt32) : State π :=
  { s with
    vchan := Function.update s.vchan s.nextVchan (newVchan ctx pchan idr openId)
    nextVchan := s.nextVchan + 1
    vchanIdr := Function.update s.vchanIdr (pchan, idr) (some s.nextVchan) }

/-- The rest of `hab_vchan_alloc`; `ids` gives `habdev->id` and `dom_id` of a pchan. -/
def allocGo (ids : π → HabPchan) (s : State π) (v : ℕ) (closed : Bool) : Option (State π) :=
  let pchan := (s.vchan v).pchan
  match (s.vchan v).alloc with
  | .numbered =>
      some { s.modify v fun vchan ↦ { vchan with alloc := .listed } with
        onPchan := Function.update s.onPchan pchan (s.onPchan pchan ++ [v]) }
  | .listed =>
      some (s.modify v fun vchan ↦
        { vchan with id := habVcid (ids pchan) vchan.idr, alloc := .named })
  | .named => some (s.modify v fun vchan ↦ { vchan with refcount := 1, alloc := .counted })
  | .counted =>
      some (s.modify v fun vchan ↦ { vchan with otherendClosed := closed, alloc := .done })
  | .done => none

/-- `hab_vchan_free`. -/
def freeGo (s : State π) (v : ℕ) : Option (State π) :=
  let pchan := (s.vchan v).pchan
  match (s.vchan v).free with
  | none => none
  | some .unlist =>
      some { s.modify v fun vchan ↦ { vchan with free := some .idrRemove } with
        onPchan := Function.update s.onPchan pchan ((s.onPchan pchan).erase v) }
  | some .idrRemove =>
      some { s.modify v fun vchan ↦ { vchan with free := some .kfree } with
        vchanIdr := Function.update s.vchanIdr (pchan, habVcidGetId (s.vchan v).id) none }
  | some .kfree => some (s.modify v fun vchan ↦ { vchan with free := some .freed })
  | some .freed => none

def step (ids : π → HabPchan) (s : State π) : Act π → Option (State π)
  | .alloc ctx pchan idr openId =>
      if idr.val ≠ 0 ∧ s.vchanIdr (pchan, idr) = none then some (s.idrAlloc ctx pchan idr openId)
      else none
  | .allocGo v closed => if v < s.nextVchan then s.allocGo ids v closed else none
  | .pair v otherendId =>
      if v < s.nextVchan then
        some (s.modify v fun vchan ↦ { vchan with otherendId := otherendId })
      else none
  | .opened v =>
      let ctx := (s.vchan v).ctx
      if v < s.nextVchan ∧ (s.vchan v).alloc = .done then
        some { s with onCtx := Function.update s.onCtx ctx (s.onCtx ctx ++ [v]) }
      else none
  | .get ctx vcid ignoreRemote => some (s.habGetVchanFromvcid ctx vcid ignoreRemote).2
  | .recv pchan vchanId sessionId => some (s.habVchanGet pchan vchanId sessionId).2
  | .put v =>
      if v < s.nextVchan ∧ (s.vchan v).refcount ≠ 0 then some (s.habVchanPut v) else none
  | .close ctx vcid => some (s.habVchanClose ctx vcid)
  | .release ctx v => if v ∈ s.onCtx ctx then some (s.unlist ctx v) else none
  | .stop v =>
      if v < s.nextVchan then
        some (s.modify v fun vchan ↦ { vchan with otherendClosed := true })
      else none
  | .freeGo v => if v < s.nextVchan then s.freeGo v else none

/-- No vchan yet; what the cells have is never looked at. -/
def start (blank : Vchan π) : State π where
  vchan := fun _ ↦ blank
  nextVchan := 0
  onCtx := fun _ ↦ []
  onPchan := fun _ ↦ []
  vchanIdr := fun _ ↦ none

/-! ## The invariant -/

end State

variable {ids : π → HabPchan} {s : State π} {v w : ℕ}

namespace Vchan

/-- The vchan has not been taken out of the `vchan_idr` of its pchan. -/
def registered (vchan : Vchan π) : Bool :=
  vchan.free = none || vchan.free = some .unlist || vchan.free = some .idrRemove

def key (vchan : Vchan π) : π × Fin 4096 := (vchan.pchan, vchan.idr)

/-- A vchan has its id before it can have a reference, and no reference from the moment on
that `hab_vchan_free` has started. -/
structure Sound (ids : π → HabPchan) (vchan : Vchan π) : Prop where
  named : vchan.alloc ≠ .numbered → vchan.alloc ≠ .listed →
    vchan.id = habVcid (ids vchan.pchan) vchan.idr
  young : vchan.alloc ≠ .counted → vchan.alloc ≠ .done → vchan.refcount = 0 ∧ vchan.free = none
  counted : vchan.refcount ≠ 0 → vchan.free = none

variable {vchan : Vchan π}

theorem Sound.id_eq_of_old (h : vchan.Sound ids) (hold : vchan.refcount ≠ 0 ∨ vchan.free ≠ none) :
    vchan.id = habVcid (ids vchan.pchan) vchan.idr := by
  have hyoung := h.young
  apply h.named
  · intro hstage
    obtain ⟨hzero, hnone⟩ := hyoung (by rw [hstage]; decide) (by rw [hstage]; decide)
    exact hold.elim (fun hne ↦ hne hzero) fun hne ↦ hne hnone
  · intro hstage
    obtain ⟨hzero, hnone⟩ := hyoung (by rw [hstage]; decide) (by rw [hstage]; decide)
    exact hold.elim (fun hne ↦ hne hzero) fun hne ↦ hne hnone

theorem registered_of_live (h : vchan.Sound ids) (hlive : vchan.refcount ≠ 0) :
    vchan.registered = true := by
  simp [registered, h.counted hlive]

end Vchan

namespace State

/-- The entries of all `vchan_idr` are the vchans that were not taken out, each under the
number that it got, and those on a context are vchans. -/
structure Inv (ids : π → HabPchan) (s : State π) : Prop where
  exact : Registry.Exact s.vchanIdr (fun v ↦ (s.vchan v).key) fun v ↦
    v < s.nextVchan ∧ (s.vchan v).registered = true
  sound : ∀ v < s.nextVchan, (s.vchan v).Sound ids
  onCtx : ∀ ctx, ∀ v ∈ s.onCtx ctx, v < s.nextVchan

theorem Inv.start (blank : Vchan π) : Inv ids (start blank) := by
  refine ⟨?_, ?_, ?_⟩
  · intro k v
    simp [State.start]
  · intro v hv
    exact absurd hv (Nat.not_lt_zero v)
  · intro ctx v hv
    exact absurd hv List.not_mem_nil

/-- A vchan changes and keeps its key and its place in the registry. -/
theorem Inv.modify (h : Inv ids s) {f : Vchan π → Vchan π}
    (hsound : v < s.nextVchan → (f (s.vchan v)).Sound ids)
    (hkey : (f (s.vchan v)).key = (s.vchan v).key)
    (hregistered : v < s.nextVchan → (f (s.vchan v)).registered = (s.vchan v).registered) :
    Inv ids (s.modify v f) := by
  have hcell : ∀ w, (s.modify v f).vchan w = if w = v then f (s.vchan v) else s.vchan w :=
    fun w ↦ Function.update_apply s.vchan v (f (s.vchan v)) w
  refine ⟨h.exact.congr ?_ ?_, ?_, h.onCtx⟩
  · intro w
    refine and_congr_right fun hlt ↦ ?_
    rw [hcell]
    split_ifs with hw
    · rw [hw] at hlt
      rw [hw, hregistered hlt]
    · exact Iff.rfl
  · intro w _
    rw [hcell]
    split_ifs with hw
    · rw [hw, hkey]
    · rfl
  · intro w hw
    rw [hcell]
    split_ifs with heq
    · rw [heq] at hw
      exact hsound hw
    · exact h.sound w hw

/-- A vchan changes in what the invariant does not speak of. -/
theorem Inv.mark (h : Inv ids s) {f : Vchan π → Vchan π}
    (hf : ∀ vchan, (f vchan).key = vchan.key ∧ (f vchan).id = vchan.id ∧
      (f vchan).alloc = vchan.alloc ∧ (f vchan).refcount = vchan.refcount ∧
        (f vchan).free = vchan.free) : Inv ids (s.modify v f) := by
  obtain ⟨hkey, hid, halloc, hrefcount, hfree⟩ := hf (s.vchan v)
  obtain ⟨hpchan, hidr⟩ := Prod.mk.inj hkey
  apply h.modify
  · intro hv
    obtain ⟨hnamed, hyoung, hcounted⟩ := h.sound v hv
    refine ⟨?_, ?_, ?_⟩
    · rw [halloc, hid, hpchan, hidr]
      exact hnamed
    · rw [halloc, hrefcount, hfree]
      exact hyoung
    · rw [hrefcount, hfree]
      exact hcounted
  · exact hkey
  · intro _
    rw [Vchan.registered, Vchan.registered, hfree]

/-- The lists of the contexts and of the pchans change. -/
theorem Inv.lists (h : Inv ids s) {onCtx : ℕ → List ℕ} (onPchan : π → List ℕ)
    (hctx : ∀ ctx, ∀ v ∈ onCtx ctx, v < s.nextVchan) :
    Inv ids { s with onCtx := onCtx, onPchan := onPchan } :=
  ⟨h.exact, h.sound, hctx⟩

theorem Inv.find_onCtx (h : Inv ids s) {ctx : ℕ} {vcid : UInt32}
    (hfind : ((s.onCtx ctx).find? fun v ↦ (s.vchan v).id = vcid) = some v) :
    v < s.nextVchan ∧ (s.vchan v).id = vcid :=
  ⟨h.onCtx ctx v (List.mem_of_find?_eq_some hfind), by simpa using List.find?_some hfind⟩

/-! ## References -/

/-- A lookup returns a vchan whose reference count is not 0, or changes nothing. -/
theorem kref_cases (s : State π) (v : ℕ) :
    s.kref v = (none, s) ∨
      (s.vchan v).refcount ≠ 0 ∧
        s.kref v =
          (some v, s.modify v fun vchan ↦ { vchan with refcount := vchan.refcount + 1 }) := by
  rw [kref]
  split_ifs with hzero
  · exact Or.inl rfl
  · exact Or.inr ⟨hzero, rfl⟩

theorem Inv.kref (h : Inv ids s) (v : ℕ) : Inv ids (s.kref v).2 := by
  rcases kref_cases s v with hnone | ⟨hlive, hsome⟩
  · rw [hnone]
    exact h
  · have hcounted : Inv ids
        (s.modify v fun vchan ↦ { vchan with refcount := vchan.refcount + 1 }) := by
      refine h.modify ?_ rfl fun _ ↦ rfl
      intro hv
      have hsound := h.sound v hv
      refine ⟨hsound.named, ?_, fun _ ↦ hsound.counted hlive⟩
      intro hcounted hdone
      exact absurd (hsound.young hcounted hdone).1 hlive
    rw [hsome]
    exact hcounted

theorem habGetVchanFromvcid_cases (s : State π) (ctx : ℕ) (vcid : UInt32) (ignoreRemote : Bool) :
    s.habGetVchanFromvcid ctx vcid ignoreRemote = (none, s) ∨
      ∃ v, ((s.onCtx ctx).find? fun v ↦ (s.vchan v).id = vcid) = some v ∧
        s.habGetVchanFromvcid ctx vcid ignoreRemote = s.kref v := by
  unfold habGetVchanFromvcid
  cases hfind : (s.onCtx ctx).find? fun v ↦ (s.vchan v).id = vcid with
  | none => exact Or.inl rfl
  | some v =>
      simp only
      split_ifs with hclosed
      · exact Or.inl rfl
      · exact Or.inr ⟨v, rfl, rfl⟩

theorem habVchanGet_cases (s : State π) (pchan : π) (vchanId sessionId : UInt32) :
    s.habVchanGet pchan vchanId sessionId = (none, s) ∨
      ∃ v, s.habVchanGet pchan vchanId sessionId = s.kref v := by
  unfold habVchanGet
  cases hidr : s.vchanIdr (pchan, habVcidGetId vchanId) with
  | none => exact Or.inl rfl
  | some v =>
      simp only
      split_ifs with hskip
      · exact Or.inl rfl
      · exact Or.inr ⟨v, rfl⟩

/-- The entry in the registry stays when `hab_vchan_free` starts. -/
theorem Inv.habVchanPut (h : Inv ids s) (hlive : (s.vchan v).refcount ≠ 0) :
    Inv ids (s.habVchanPut v) := by
  apply h.modify
  · intro hv
    have hsound := h.sound v hv
    refine ⟨hsound.named, ?_, ?_⟩
    · intro hcounted hdone
      exact absurd (hsound.young hcounted hdone).1 hlive
    · intro hleft
      simp only at hleft ⊢
      rw [if_neg (by omega)]
      exact hsound.counted hlive
  · rfl
  · intro hv
    have hfree := (h.sound v hv).counted hlive
    simp only [Vchan.registered, hfree]
    split_ifs <;> rfl

theorem Inv.unlist (h : Inv ids s) (ctx v : ℕ) : Inv ids (s.unlist ctx v) := by
  have hclosed : Inv ids (s.modify v fun vchan ↦ { vchan with closed := true }) :=
    h.mark fun _ ↦ ⟨rfl, rfl, rfl, rfl, rfl⟩
  apply hclosed.lists
  intro ctx' w hw
  by_cases hctx : ctx' = ctx
  · rw [hctx, Function.update_self] at hw
    exact h.onCtx ctx w (List.mem_of_mem_erase hw)
  · rw [Function.update_of_ne hctx] at hw
    exact h.onCtx ctx' w hw

theorem Inv.habVchanClose (h : Inv ids s) (ctx : ℕ) (vcid : UInt32) :
    Inv ids (s.habVchanClose ctx vcid) := by
  unfold State.habVchanClose
  cases (s.onCtx ctx).find? fun v ↦ (s.vchan v).id = vcid with
  | none => exact h
  | some v => exact h.unlist ctx v

theorem Inv.opened (h : Inv ids s) (hv : v < s.nextVchan) (ctx : ℕ) :
    Inv ids { s with onCtx := Function.update s.onCtx ctx (s.onCtx ctx ++ [v]) } := by
  apply h.lists s.onPchan
  intro ctx' w hw
  by_cases hctx : ctx' = ctx
  · rw [hctx, Function.update_self] at hw
    rcases List.mem_append.mp hw with hw | hw
    · exact h.onCtx ctx w hw
    · rw [List.mem_singleton.mp hw]
      exact hv
  · rw [Function.update_of_ne hctx] at hw
    exact h.onCtx ctx' w hw

/-! ## Making a vchan -/

variable [DecidableEq π]

theorem Inv.idrAlloc (h : Inv ids s) (ctx : ℕ) {pchan : π} {idr : Fin 4096} (openId : UInt32)
    (hfree : s.vchanIdr (pchan, idr) = none) : Inv ids (s.idrAlloc ctx pchan idr openId) := by
  have hnew : (s.idrAlloc ctx pchan idr openId).vchan s.nextVchan =
      newVchan ctx pchan idr openId := Function.update_self _ _ _
  have hold : ∀ w, w ≠ s.nextVchan → (s.idrAlloc ctx pchan idr openId).vchan w = s.vchan w :=
    fun w hw ↦ Function.update_of_ne hw _ _
  refine ⟨?_, ?_, ?_⟩
  · -- the others keep their keys, and the key of the new one was free
    have hothers : Registry.Exact s.vchanIdr
        (fun v ↦ ((s.idrAlloc ctx pchan idr openId).vchan v).key)
        fun v ↦ v < s.nextVchan ∧ (s.vchan v).registered = true := by
      refine h.exact.congr (fun v ↦ Iff.rfl) ?_
      intro v hv
      rw [hold v (Nat.ne_of_lt hv.1)]
    have hadded := hothers.insert (v := s.nextVchan) (by rw [hnew]; exact hfree)
    rw [hnew] at hadded
    refine hadded.congr ?_ fun _ _ ↦ rfl
    intro v
    by_cases hv : v = s.nextVchan
    · rw [hv, hnew]
      exact iff_of_true ⟨Nat.lt_succ_self _, rfl⟩ (Or.inr rfl)
    · have hlt : v < s.nextVchan + 1 ↔ v < s.nextVchan := by omega
      rw [hold v hv, or_iff_left hv]
      exact and_congr_left fun _ ↦ hlt
  · intro v hv
    by_cases heq : v = s.nextVchan
    · rw [heq, hnew]
      exact ⟨fun hne ↦ absurd rfl hne, fun _ _ ↦ ⟨rfl, rfl⟩, fun _ ↦ rfl⟩
    · rw [hold v heq]
      exact h.sound v (Nat.lt_of_le_of_ne (Nat.le_of_lt_succ hv) heq)
  · intro ctx' v hv
    exact Nat.lt_succ_of_lt (h.onCtx ctx' v hv)

theorem Inv.allocGo (h : Inv ids s) {t : State π} {closed : Bool} (hv : v < s.nextVchan)
    (hstep : s.allocGo ids v closed = some t) : Inv ids t := by
  have hsound := h.sound v hv
  unfold State.allocGo at hstep
  cases hstage : (s.vchan v).alloc with
  | numbered =>
      rw [hstage] at hstep
      cases hstep
      obtain ⟨hzero, hnone⟩ := hsound.young (by rw [hstage]; decide) (by rw [hstage]; decide)
      have hlisted : Inv ids (s.modify v fun vchan ↦ { vchan with alloc := .listed }) := by
        refine h.modify (fun _ ↦ ?_) rfl fun _ ↦ rfl
        exact ⟨fun _ hne ↦ absurd rfl hne, fun _ _ ↦ ⟨hzero, hnone⟩, fun _ ↦ hnone⟩
      exact hlisted.lists _ h.onCtx
  | listed =>
      rw [hstage] at hstep
      cases hstep
      obtain ⟨hzero, hnone⟩ := hsound.young (by rw [hstage]; decide) (by rw [hstage]; decide)
      refine h.modify (fun _ ↦ ?_) rfl fun _ ↦ rfl
      exact ⟨fun _ _ ↦ rfl, fun _ _ ↦ ⟨hzero, hnone⟩, fun _ ↦ hnone⟩
  | named =>
      rw [hstage] at hstep
      cases hstep
      obtain ⟨-, hnone⟩ := hsound.young (by rw [hstage]; decide) (by rw [hstage]; decide)
      have hid := hsound.named (by rw [hstage]; decide) (by rw [hstage]; decide)
      refine h.modify (fun _ ↦ ?_) rfl fun _ ↦ rfl
      exact ⟨fun _ _ ↦ hid, fun hne ↦ absurd rfl hne, fun _ ↦ hnone⟩
  | counted =>
      rw [hstage] at hstep
      cases hstep
      have hid := hsound.named (by rw [hstage]; decide) (by rw [hstage]; decide)
      refine h.modify (fun _ ↦ ?_) rfl fun _ ↦ rfl
      exact ⟨fun _ _ ↦ hid, fun _ hne ↦ absurd rfl hne, hsound.counted⟩
  | done =>
      rw [hstage] at hstep
      exact absurd hstep (by simp)

/-! ## Taking it apart -/

theorem Inv.freeGo (h : Inv ids s) {t : State π} (hv : v < s.nextVchan)
    (hstep : s.freeGo v = some t) : Inv ids t := by
  have hsound := h.sound v hv
  have hdead : (s.vchan v).free ≠ none → (s.vchan v).refcount = 0 := by
    intro hfreeing
    by_contra hlive
    exact hfreeing (hsound.counted hlive)
  have hold : ∀ {free}, (s.vchan v).free ≠ none →
      Vchan.Sound ids { s.vchan v with free := free } := by
    intro free hfreeing
    refine ⟨hsound.named, ?_, fun hlive ↦ absurd (hdead hfreeing) hlive⟩
    intro hcounted hdone
    exact absurd (hsound.young hcounted hdone).2 hfreeing
  unfold State.freeGo at hstep
  cases hstage : (s.vchan v).free with
  | none =>
      rw [hstage] at hstep
      exact absurd hstep (by simp)
  | some stage =>
      have hfreeing : (s.vchan v).free ≠ none := by
        rw [hstage]
        exact Option.some_ne_none stage
      rw [hstage] at hstep
      cases stage with
      | unlist =>
          cases hstep
          have hunlisted : Inv ids
              (s.modify v fun vchan ↦ { vchan with free := some .idrRemove }) := by
            refine h.modify (fun _ ↦ hold hfreeing) rfl fun _ ↦ ?_
            simp [Vchan.registered, hstage]
          exact hunlisted.lists _ h.onCtx
      | idrRemove =>
          cases hstep
          -- the key that is removed is read from `vchan->id`
          have hkey : ((s.vchan v).pchan, habVcidGetId (s.vchan v).id) = (s.vchan v).key := by
            rw [hsound.id_eq_of_old (Or.inr hfreeing), habVcidGetId_habVcid]
            rfl
          have hregistered : (s.vchan v).registered = true := by simp [Vchan.registered, hstage]
          have hremoved := h.exact.remove ⟨hv, hregistered⟩
          have hcell : ∀ w, ((s.modify v fun vchan ↦ { vchan with free := some .kfree }).vchan w) =
              if w = v then { s.vchan v with free := some .kfree } else s.vchan w :=
            fun w ↦ Function.update_apply s.vchan v _ w
          refine ⟨?_, ?_, h.onCtx⟩
          · simp only
            rw [hkey]
            refine hremoved.congr ?_ ?_
            · intro w
              rw [hcell]
              split_ifs with hw
              · simp [Vchan.registered, hw]
              · simp only [hw, ne_eq, not_false_eq_true, and_true]
                exact Iff.rfl
            · intro w hw
              rw [hcell, if_neg hw.2]
          · intro w hw
            rw [hcell]
            split_ifs with heq
            · exact hold hfreeing
            · exact h.sound w hw
      | kfree =>
          cases hstep
          refine h.modify (fun _ ↦ hold hfreeing) rfl fun _ ↦ ?_
          simp [Vchan.registered, hstage]
      | freed => exact absurd hstep (by simp)

/-! ## Runs -/

theorem Inv.step {t : State π} {a : Act π} (h : Inv ids s) (hstep : s.step ids a = some t) :
    Inv ids t := by
  cases a with
  | alloc ctx pchan idr openId =>
      simp only [State.step] at hstep
      split_ifs at hstep with hfree
      cases hstep
      exact h.idrAlloc ctx openId hfree.2
  | allocGo v closed =>
      simp only [State.step] at hstep
      split_ifs at hstep with hv
      exact h.allocGo hv hstep
  | pair v otherendId =>
      simp only [State.step] at hstep
      split_ifs at hstep
      cases hstep
      exact h.mark fun _ ↦ ⟨rfl, rfl, rfl, rfl, rfl⟩
  | opened v =>
      simp only [State.step] at hstep
      split_ifs at hstep with hv
      cases hstep
      exact h.opened hv.1 (s.vchan v).ctx
  | get ctx vcid ignoreRemote =>
      cases hstep
      rcases habGetVchanFromvcid_cases s ctx vcid ignoreRemote with hnone | ⟨v, -, hkref⟩
      · rw [hnone]
        exact h
      · rw [hkref]
        exact h.kref v
  | recv pchan vchanId sessionId =>
      cases hstep
      rcases habVchanGet_cases s pchan vchanId sessionId with hnone | ⟨v, hkref⟩
      · rw [hnone]
        exact h
      · rw [hkref]
        exact h.kref v
  | put v =>
      simp only [State.step] at hstep
      split_ifs at hstep with hlive
      cases hstep
      exact h.habVchanPut hlive.2
  | close ctx vcid =>
      cases hstep
      exact h.habVchanClose ctx vcid
  | release ctx v =>
      simp only [State.step] at hstep
      split_ifs at hstep
      cases hstep
      exact h.unlist ctx v
  | stop v =>
      simp only [State.step] at hstep
      split_ifs at hstep
      cases hstep
      exact h.mark fun _ ↦ ⟨rfl, rfl, rfl, rfl, rfl⟩
  | freeGo v =>
      simp only [State.step] at hstep
      split_ifs at hstep with hv
      exact h.freeGo hv hstep

/-- A vchan that has a reference. -/
def Live (s : State π) (v : ℕ) : Prop := v < s.nextVchan ∧ (s.vchan v).refcount ≠ 0

omit [DecidableEq π] in
theorem Inv.id_eq (h : Inv ids s) (hv : s.Live v) :
    (s.vchan v).id = habVcid (ids (s.vchan v).pchan) (s.vchan v).idr :=
  (h.sound v hv.1).id_eq_of_old (Or.inl hv.2)

omit [DecidableEq π] in
/-- The id of a vchan tells its pchan and its key, and so the vchan. -/
theorem Inv.eq_of_id_eq (h : Inv ids s) (hids : Function.Injective ids) (hv : s.Live v)
    (hw : s.Live w) (hid : (s.vchan v).id = (s.vchan w).id) : v = w := by
  rw [h.id_eq hv, h.id_eq hw] at hid
  have hpchan : (s.vchan v).pchan = (s.vchan w).pchan := by
    have hpair := congrArg vcidPchan hid
    rw [vcidPchan_habVcid, vcidPchan_habVcid] at hpair
    exact hids hpair
  have hidr : (s.vchan v).idr = (s.vchan w).idr := by
    have hkey := congrArg habVcidGetId hid
    rwa [habVcidGetId_habVcid, habVcidGetId_habVcid] at hkey
  refine h.exact.key_injective ⟨hv.1, Vchan.registered_of_live (h.sound v hv.1) hv.2⟩
    ⟨hw.1, Vchan.registered_of_live (h.sound w hw.1) hw.2⟩ ?_
  rw [Vchan.key, Vchan.key, hpchan, hidr]

omit [DecidableEq π] in
/-- What a lookup by vcid returns is live and has the id. -/
theorem Inv.live_of_get (h : Inv ids s) {ctx : ℕ} {vcid : UInt32} {ignoreRemote : Bool}
    (hget : (s.habGetVchanFromvcid ctx vcid ignoreRemote).1 = some v) :
    s.Live v ∧ (s.vchan v).id = vcid := by
  rcases habGetVchanFromvcid_cases s ctx vcid ignoreRemote with hnone | ⟨w, hfind, hkref⟩
  · rw [hnone] at hget
    exact absurd hget.symm (Option.some_ne_none v)
  · obtain ⟨hw, hid⟩ := h.find_onCtx hfind
    rw [hkref] at hget
    rcases kref_cases s w with hnone | ⟨hlive, hsome⟩
    · rw [hnone] at hget
      exact absurd hget.symm (Option.some_ne_none v)
    · rw [hsome] at hget
      cases hget
      exact ⟨⟨hw, hlive⟩, hid⟩

/-- In every state that opens, closes and dropped references lead to, on any contexts and in
any order, no two vchans that have references have one id, all lookups of one vcid find one
vchan, and the key of a vchan in the `vchan_idr` of its pchan can be read off its id. -/
theorem vcids_unique (hids : Function.Injective ids) {blank : Vchan π} {as : List (Act π)}
    (h : Runs.exec (step ids) (start blank) as = some s) :
    (∀ v w, s.Live v → s.Live w → (s.vchan v).id = (s.vchan w).id → v = w) ∧
      (∀ vcid ctx ctx' ignore ignore' v w,
        (s.habGetVchanFromvcid ctx vcid ignore).1 = some v →
          (s.habGetVchanFromvcid ctx' vcid ignore').1 = some w → v = w) ∧
      ∀ v, s.Live v → ∀ pchan idr, s.vchanIdr (pchan, idr) = some v ↔
        pchan = (s.vchan v).pchan ∧ idr = habVcidGetId (s.vchan v).id := by
  have hinv : Inv ids s :=
    Runs.invariant_of_exec (fun _ _ _ hI hstep ↦ hI.step hstep) (Inv.start blank) h
  refine ⟨fun v w hv hw hid ↦ hinv.eq_of_id_eq hids hv hw hid, ?_, ?_⟩
  · intro vcid ctx ctx' ignore ignore' v w hget hget'
    obtain ⟨hv, hvid⟩ := hinv.live_of_get hget
    obtain ⟨hw, hwid⟩ := hinv.live_of_get hget'
    exact hinv.eq_of_id_eq hids hv hw (hvid.trans hwid.symm)
  · intro v hv pchan idr
    have hregistered := Vchan.registered_of_live (hinv.sound v hv.1) hv.2
    rw [hinv.exact, hinv.id_eq hv, habVcidGetId_habVcid]
    simp only [Vchan.key, Prod.mk.injEq]
    constructor
    · rintro ⟨-, hpchan, hidr⟩
      exact ⟨hpchan.symm, hidr.symm⟩
    · rintro ⟨hpchan, hidr⟩
      exact ⟨⟨hv.1, hregistered⟩, hpchan.symm, hidr.symm⟩

/-- Two contexts have a vchan each on one pchan. -/
theorem vcids_unique_two :
    ∃ s, Runs.exec (step id) (start (newVchan 0 (vcidPchan 0) 1 0))
        [.alloc 0 (vcidPchan 0) 1 7, .allocGo 0 false, .allocGo 0 false, .allocGo 0 false,
          .alloc 1 (vcidPchan 0) 2 8, .allocGo 1 false, .allocGo 1 false, .allocGo 1 false] =
          some s ∧
      s.Live 0 ∧ s.Live 1 ∧ (s.vchan 0).id ≠ (s.vchan 1).id := by
  refine ⟨_, rfl, ⟨by decide, by decide⟩, ⟨by decide, by decide⟩, ?_⟩
  intro hid
  have hrun : Runs.exec (step id) (start (newVchan 0 (vcidPchan 0) 1 0))
      [.alloc 0 (vcidPchan 0) 1 7, .allocGo 0 false, .allocGo 0 false, .allocGo 0 false,
        .alloc 1 (vcidPchan 0) 2 8, .allocGo 1 false, .allocGo 1 false, .allocGo 1 false] =
    some _ := rfl
  have hunique := vcids_unique Function.injective_id hrun
  exact absurd (hunique.1 0 1 ⟨by decide, by decide⟩ ⟨by decide, by decide⟩ hid) (by decide)

end State

end Handles

end Hab
