import Hab.ExportLists

/-!
# The reclaim list and its worker (`hab_linux.c`, `hab_msg.c`, `hab_ctx_free`)

A context that ends leaves the exports that are still imported on `reclaim_list`, and
schedules the worker.  The UNIMPORT that comes later schedules it again only if the
vchan that it came on is closed.
-/

set_option linter.unusedSectionVars false

namespace Hab

variable {π : Type*} [DecidableEq π]

/-- The descriptor that the next lock section of a call destroys. -/
def ExportStage.destroys (vm : ExportVm π) (ok : Bool) : ExportStage π → Option ℕ
  | .added _ e => if ok then none else some e
  | .revoked _ e | .gone _ e => (vm.desc e).ctx.map fun _ ↦ e
  | .reclaimed e _ => some e
  | _ => none

/-- The call has just put a descriptor on `reclaim_list` when its next lock section is
over, and schedules the worker. -/
def ExportStage.schedules : ExportStage π → Bool
  | .spared _ _ => true
  | _ => false

def ExportStage.isTaken : ExportStage π → Bool
  | .taken _ _ => true
  | _ => false

/-- An exporting VM with its reclaim work. -/
structure ReclaimSystem (π : Type*) where
  sys : ExportSystem π
  /-- `reclaim_work` is pending. -/
  scheduled : Bool
  /-- How often each descriptor has been destroyed; no code reads this. -/
  releases : ℕ → ℕ

/-- What may happen next. -/
inductive ReclaimAct (π : Type*) where
  /-- An UNIMPORT arrives for the vchan at `v`, which may be closed. -/
  | recvUnimport (p : π) (v : ℕ) (id : UInt32)
  /-- A worker thread runs `reclaim_cleanup`. -/
  | reclaimCleanup
  /-- A call in progress runs its next lock section. -/
  | advance (i : ℕ) (ok : Bool)
  /-- Anything else on the export side. -/
  | other (act : ExportAct π)

namespace ReclaimSystem

/-- `hab_vchan_get`: a vchan of the pchan is at `v`. -/
def vchanExist (s : ReclaimSystem π) (p : π) (v : ℕ) : Bool :=
  s.sys.vm.vchans.any fun vchan ↦ vchan.addr = v ∧ vchan.pchan = p

/-- Work that is scheduled while the worker runs is run again afterwards. -/
def step (s : ReclaimSystem π) : ReclaimAct π → Option (ReclaimSystem π)
  | .recvUnimport p v id => do
      let sys ← s.sys.step (.recvUnimport p id)
      some { s with sys := sys, scheduled := s.scheduled || !s.vchanExist p v }
  | .reclaimCleanup =>
      if s.scheduled then do
        let sys ← s.sys.step .reclaim
        some { s with sys := sys, scheduled := false }
      else none
  | .advance i ok => do
      let stage ← s.sys.calls.get i
      let sys ← s.sys.step (.advance i ok)
      some
        { sys := sys
          scheduled := s.scheduled || stage.schedules
          releases :=
            match stage.destroys s.sys.vm ok with
            | none => s.releases
            | some e => Function.update s.releases e (s.releases e + 1) }
  | .other act =>
      match act with
      | .reclaim | .advance _ _ | .recvUnimport _ _ => none
      | act => do
          let sys ← s.sys.step act
          some { s with sys := sys }

def start (memProto : π → Bool) : ReclaimSystem π :=
  ⟨⟨.start memProto, .empty⟩, false, fun _ ↦ 0⟩

/-- The reclaim work is scheduled or running. -/
def AtWork (s : ReclaimSystem π) : Prop :=
  s.scheduled = true ∨ ∃ i stage, s.sys.calls.get i = some stage ∧ stage.isReclaim = true

/-- No descriptor waits for a worker that does not come, and none is destroyed twice. -/
structure NoOrphan (s : ReclaimSystem π) : Prop where
  worked : ∀ e ∈ s.sys.vm.reclaimList, (s.sys.vm.desc e).remoteImported = false → s.AtWork
  once : ∀ e, s.releases e ≤ 1

end ReclaimSystem

/-- The descriptor is on an `exp_whse` or on `reclaim_list`. -/
def ExportVm.Listed (vm : ExportVm π) (e : ℕ) : Prop :=
  (∃ c, e ∈ (vm.ctx c).expWhse) ∨ e ∈ vm.reclaimList

namespace ExportSystem

/-- A `hab_mem_unexport` has taken the id out of the table, and comes to take the
descriptor off its list. -/
def Taken (s : ExportSystem π) (e : ℕ) : Prop :=
  ∃ i vchan, s.calls.get i = some (.taken vchan e)

end ExportSystem

namespace ReclaimSystem

/-- The condition on a step: no UNIMPORT over a vchan that exists clears the flag of a
descriptor on `reclaim_list`, unless the worker comes anyway; and `hab_mem_unexport` and the
two other ways to release a descriptor do not meet. -/
def Careful (s : ReclaimSystem π) : ReclaimAct π → Prop
  | .recvUnimport p v id =>
      ∀ e ∈ s.sys.vm.reclaimList, s.sys.vm.expidIdr p id = some e →
        (s.sys.vm.desc e).remoteImported = true → s.vchanExist p v = true → s.scheduled = true
  | .reclaimCleanup => ∀ e ∈ s.sys.vm.reclaimable, ¬ s.sys.Taken e
  | .advance i _ =>
      ∀ c e rest, s.sys.calls.get i = some (.freeing c) → (s.sys.vm.ctx c).expWhse = e :: rest →
        ¬ s.sys.Taken e
  | .other (.unexport c v id) =>
      ∀ vchan e, s.sys.vm.getVchan c v = some vchan →
        s.sys.vm.expidIdr vchan.pchan id = some e → s.sys.vm.Listed e
  | _ => True

end ReclaimSystem

/-! ## Who owns a context -/

namespace ExportSystem

/-- A context outlives its vchans, and these the calls on them. -/
structure Homes (s : ExportSystem π) : Prop where
  listed : ∀ c, ∀ e ∈ (s.vm.ctx c).expWhse, (s.vm.ctx c).live = true
  vchans : ∀ vchan ∈ s.vm.vchans, (s.vm.ctx vchan.ctx).live = true
  ending : ∀ i stage c, s.calls.get i = some stage → stage.frees c = true →
    ∀ vchan ∈ s.vm.vchans, vchan.ctx ≠ c
  building : ∀ i stage vchan e, s.calls.get i = some stage →
    stage = .added vchan e ∨ stage = .granted vchan e ∨ stage = .sent vchan e →
      vchan ∈ s.vm.vchans

theorem homes_start (memProto : π → Bool) : Homes ⟨.start memProto, .empty⟩ := by
  constructor
  · intro c e he
    cases he
  · intro vchan h
    cases h
  · intro i stage c h
    cases h
  · intro i stage vchan e h
    cases h

variable {s : ExportSystem π} {i : ℕ} {stage : ExportStage π} {vm' : ExportVm π}
  {stage' : Option (ExportStage π)}

theorem Homes.advance (h : Homes s) (hget : s.calls.get i = some stage)
    (hruns : ExportStage.Runs s.vm stage vm' stage') : Homes ⟨vm', s.calls.set i stage'⟩ := by
  have hi := Pool.lt_next hget
  have hvchans := hruns.frame.vchans
  have hlive : ∀ c, (s.vm.ctx c).live = true →
      (∃ e, e ∈ (vm'.ctx c).expWhse) ∨ (∃ vchan ∈ s.vm.vchans, vchan.ctx = c) →
        (vm'.ctx c).live = true := by
    intro c hc hused
    rcases hruns.live hc with hc | ⟨rfl, hnil, rfl⟩
    · exact hc
    · exfalso
      rcases hused with ⟨e, he⟩ | ⟨vchan, hmem, hctx⟩
      · rcases hruns.expWhse he with he | ⟨vchan, hstage | hstage, -⟩
        · rw [hnil] at he
          cases he
        · cases hstage
        · cases hstage
      · exact h.ending i _ c hget (by simp [ExportStage.frees]) vchan hmem hctx
  constructor
  · intro c e he
    refine hlive c ?_ (Or.inl ⟨e, he⟩)
    rcases hruns.expWhse he with he | ⟨vchan, hstage, rfl, -⟩
    · exact h.listed c e he
    · exact h.vchans vchan (h.building i stage vchan e hget (Or.inr hstage))
  · intro vchan hmem
    rw [hvchans] at hmem
    exact hlive vchan.ctx (h.vchans vchan hmem) (Or.inr ⟨vchan, hmem, rfl⟩)
  · intro j k c hk hfrees vchan hmem
    rw [hvchans] at hmem
    rcases (Pool.get_set hi).mp hk with ⟨rfl, hnow⟩ | ⟨-, hnow⟩
    · exact h.ending j stage c hget (hruns.frees hnow hfrees) vchan hmem
    · exact h.ending j k c hnow hfrees vchan hmem
  · intro j k vchan e hk hbuild
    rw [hvchans]
    rcases (Pool.get_set hi).mp hk with ⟨rfl, hnow⟩ | ⟨-, hnow⟩
    · have hbefore : stage = .added vchan e ∨ stage = .granted vchan e := by
        rcases hbuild with rfl | rfl | rfl <;> cases hruns <;> cases hnow
        · exact Or.inl rfl
        · exact Or.inr rfl
      exact h.building j stage vchan e hget (hbefore.imp_right Or.inl)
    · exact h.building j k vchan e hnow hbuild

/-- A step that starts no call may only take away vchans and descriptors. -/
theorem Homes.vm_of (h : Homes s) (hlive : ∀ c, (vm'.ctx c).live = (s.vm.ctx c).live)
    (hwhse : ∀ c, (vm'.ctx c).expWhse = (s.vm.ctx c).expWhse) (hvchans : vm'.vchans = s.vm.vchans) :
    Homes { s with vm := vm' } where
  listed c e he := (hlive c).trans (h.listed c e (hwhse c ▸ he))
  vchans vchan hmem := (hlive _).trans (h.vchans vchan (hvchans ▸ hmem))
  ending j k c hk hfrees vchan hmem := h.ending j k c hk hfrees vchan (hvchans ▸ hmem)
  building j k vchan e hk hbuild := by
    rw [hvchans]
    exact h.building j k vchan e hk hbuild

theorem Homes.spawn (h : Homes s) {k : ExportStage π}
    (hfrees : ∀ c, k.frees c = true → ∀ vchan ∈ s.vm.vchans, vchan.ctx ≠ c)
    (hbuild : ∀ vchan e, k = .added vchan e ∨ k = .granted vchan e ∨ k = .sent vchan e →
      vchan ∈ s.vm.vchans) :
    Homes { s with calls := s.calls.spawn k } where
  listed := h.listed
  vchans := h.vchans
  ending _ m c hm hc := by
    refine Pool.forall_spawn (P := fun _ m ↦ m.frees c = true → _) (hfrees c) ?_ hm hc
    exact fun j m hm hc ↦ h.ending j m c hm hc
  building _ m vchan e hm hb := by
    refine Pool.forall_spawn (P := fun _ m ↦ (m = _ ∨ m = _ ∨ m = _) → _) (hbuild vchan e) ?_ hm hb
    exact fun j m hm hb ↦ h.building j m vchan e hm hb

/-- A context that is made has no exports and no vchans. -/
theorem Homes.ctxAlloc (h : Homes s) (c : ℕ) :
    Homes { s with vm := s.vm.setCtx c ⟨true, [], 0⟩ } := by
  refine ⟨fun c' e he ↦ ?_, fun vchan hmem ↦ ?_, h.ending, h.building⟩
  · by_cases hc : c' = c
    · subst hc
      simp [ExportVm.setCtx]
    · simp only [ExportVm.setCtx, Function.update_of_ne hc] at he ⊢
      exact h.listed c' e he
  · by_cases hc : vchan.ctx = c
    · simp [ExportVm.setCtx, hc]
    · simpa [ExportVm.setCtx, hc] using h.vchans vchan hmem

/-- A vchan is opened on a context that is there and that nobody frees. -/
theorem Homes.openVchan (h : Homes s) {vchan : ExportVchan π}
    (hlive : (s.vm.ctx vchan.ctx).live = true)
    (hcalls : s.calls.all (fun stage ↦ !stage.frees vchan.ctx) = true) :
    Homes { s with vm := { s.vm with vchans := vchan :: s.vm.vchans } } := by
  refine ⟨h.listed, fun other hmem ↦ ?_, fun j k c hk hfrees other hmem ↦ ?_,
    fun j k other e hk hb ↦ List.mem_cons_of_mem _ (h.building j k other e hk hb)⟩
  · rcases List.mem_cons.mp hmem with rfl | hmem
    · exact hlive
    · exact h.vchans other hmem
  · rcases List.mem_cons.mp hmem with rfl | hmem
    · intro hctx
      subst hctx
      have hnot := Pool.all_eq_true.mp hcalls j k hk
      rw [hfrees] at hnot
      cases hnot
    · exact h.ending j k c hk hfrees other hmem

/-- A vchan is freed while no call works on it. -/
theorem Homes.freeVchan (h : Homes s) {v : ℕ}
    (hall : s.calls.all (fun stage ↦ !stage.holds v) = true) :
    Homes { s with
      vm := { s.vm with vchans := s.vm.vchans.filter (fun vchan ↦ vchan.addr ≠ v) } } := by
  refine ⟨h.listed, fun other hmem ↦ h.vchans other (List.mem_filter.mp hmem).1,
    fun j k c hk hfrees other hmem ↦ h.ending j k c hk hfrees other (List.mem_filter.mp hmem).1,
    fun j k other e hk hb ↦ List.mem_filter.mpr ⟨h.building j k other e hk hb, ?_⟩⟩
  have hnot := Pool.all_eq_true.mp hall j k hk
  rcases hb with rfl | rfl | rfl <;> simpa [ExportStage.holds] using hnot

theorem Homes.step {s s' : ExportSystem π} {act : ExportAct π} (h : Homes s)
    (hstep : s.step act = some s') : Homes s' := by
  cases act with
  | «export» c v id payloadCount =>
      obtain ⟨vchan, hvchan, hnext⟩ := Option.bind_eq_some_iff.mp hstep
      split at hnext
      · cases hnext
      · cases hnext
        have hspawn := h.spawn (k := .added vchan s.vm.nextDesc) (fun c hc ↦ by cases hc)
          fun vchan' e hb ↦ by
            rcases hb with hb | hb | hb <;> cases hb
            exact List.mem_of_find?_eq_some hvchan
        exact hspawn.vm_of (fun _ ↦ rfl) (fun _ ↦ rfl) rfl
  | unexport c v id =>
      obtain ⟨vchan, -, hnext⟩ := Option.bind_eq_some_iff.mp hstep
      split at hnext
      · cases hnext
        exact h
      · rename_i e vm' htake
        cases hnext
        obtain ⟨-, -, -, -, rfl⟩ := ExportVm.takeUnexport_ok htake
        have hspawn := h.spawn (k := .taken vchan e) (fun c hc ↦ by cases hc)
          fun _ _ hb ↦ by rcases hb with hb | hb | hb <;> cases hb
        exact hspawn.vm_of (fun _ ↦ rfl) (fun _ ↦ rfl) rfl
  | ctxFree c =>
      simp only [ExportSystem.step] at hstep
      split at hstep
      · rename_i hok
        cases hstep
        refine h.spawn (fun c' hc' ↦ ?_) fun _ _ hb ↦ by rcases hb with hb | hb | hb <;> cases hb
        simp only [ExportStage.frees, decide_eq_true_eq] at hc'
        exact hc' ▸ hok.2.1
      · cases hstep
  | reclaim =>
      simp only [ExportSystem.step] at hstep
      split at hstep
      · cases hstep
        have hspawn := h.spawn (k := .reclaiming s.vm.reclaimable) (fun c hc ↦ by cases hc)
          fun _ _ hb ↦ by rcases hb with hb | hb | hb <;> cases hb
        exact hspawn.vm_of (fun _ ↦ rfl) (fun _ ↦ rfl) rfl
      · cases hstep
  | advance i ok =>
      obtain ⟨stage, hget, hnext⟩ := Option.bind_eq_some_iff.mp hstep
      obtain ⟨⟨vm', stage'⟩, hrun, hnext⟩ := Option.bind_eq_some_iff.mp hnext
      cases hnext
      exact h.advance hget (ExportStage.runs_of_run hrun)
  | recvImport v data sent =>
      obtain ⟨vchan, -, hnext⟩ := Option.bind_eq_some_iff.mp hstep
      cases hnext
      unfold ExportVm.recvImport
      split <;> exact h.vm_of (fun _ ↦ rfl) (fun _ ↦ rfl) rfl
  | recvUnimport p id =>
      cases hstep
      unfold ExportVm.habRecvUnimportMsg
      split
      · exact h
      · split
        · exact h.vm_of (fun _ ↦ rfl) (fun _ ↦ rfl) rfl
        · exact h
  | ctxAlloc c =>
      simp only [ExportSystem.step] at hstep
      split at hstep
      · cases hstep
      · cases hstep
        exact h.ctxAlloc c
  | openVchan vchan =>
      simp only [ExportSystem.step] at hstep
      split at hstep
      · rename_i hok
        cases hstep
        exact h.openVchan hok.1 hok.2.2
      · cases hstep
  | freeVchan v =>
      simp only [ExportSystem.step] at hstep
      split at hstep
      · rename_i hall
        cases hstep
        exact h.freeVchan hall
      · cases hstep
  | negotiate p newProto =>
      cases hstep
      exact h.vm_of (fun _ ↦ rfl) (fun _ ↦ rfl) rfl

/-! ## Ids and unexports -/

/-- A descriptor has at most one id, and none once a `hab_mem_unexport` has taken it. -/
structure Entries (s : ExportSystem π) : Prop where
  allocated : ∀ p id e, s.vm.expidIdr p id = some e → e < s.vm.nextDesc
  unique : ∀ p id q id' e, s.vm.expidIdr p id = some e → s.vm.expidIdr q id' = some e →
    q = p ∧ id' = id
  taken : ∀ i vchan e, s.calls.get i = some (.taken vchan e) → e < s.vm.nextDesc ∧
    ∀ p id, s.vm.expidIdr p id ≠ some e
  once : ∀ i j vchan vchan' e, s.calls.get i = some (.taken vchan e) →
    s.calls.get j = some (.taken vchan' e) → i = j

theorem entries_start (memProto : π → Bool) : Entries ⟨.start memProto, .empty⟩ := by
  constructor
  · intro p id e h
    cases h
  · intro p id q id' e h
    cases h
  · intro i vchan e h
    cases h
  · intro i j vchan vchan' e h
    cases h

/-- A step after which the tables hold no more, and no further descriptor is taken. -/
theorem Entries.of_le {s' : ExportSystem π} (h : Entries s)
    (hidr : ∀ p id e, s'.vm.expidIdr p id = some e → s.vm.expidIdr p id = some e)
    (hnext : s'.vm.nextDesc = s.vm.nextDesc)
    (htaken : ∀ i vchan e, s'.calls.get i = some (.taken vchan e) →
      s.calls.get i = some (.taken vchan e)) : Entries s' where
  allocated p id e he := hnext ▸ h.allocated p id e (hidr p id e he)
  unique p id q id' e he he' := h.unique p id q id' e (hidr p id e he) (hidr q id' e he')
  taken i vchan e hk := by
    obtain ⟨hlt, hnone⟩ := h.taken i vchan e (htaken i vchan e hk)
    exact ⟨hnext ▸ hlt, fun p id he ↦ hnone p id (hidr p id e he)⟩
  once i j vchan vchan' e hk hk' :=
    h.once i j vchan vchan' e (htaken i vchan e hk) (htaken j vchan' e hk')

theorem Entries.export (h : Entries s) (vchan : ExportVchan π) (id payloadCount : UInt32) :
    Entries ⟨s.vm.habmemAddExport vchan id payloadCount,
      s.calls.spawn (.added vchan s.vm.nextDesc)⟩ := by
  have hidr : ∀ q id' e, (s.vm.habmemAddExport vchan id payloadCount).expidIdr q id' = some e →
      (q = vchan.pchan ∧ id' = id ∧ e = s.vm.nextDesc) ∨
        (e < s.vm.nextDesc ∧ s.vm.expidIdr q id' = some e) := by
    intro q id' e he
    rcases ExportVm.setIdr_some_eq_some.mp he with hnew | ⟨-, hold⟩
    · exact Or.inl hnew
    · exact Or.inr ⟨h.allocated q id' e hold, hold⟩
  constructor
  · intro q id' e he
    rcases hidr q id' e he with ⟨-, -, rfl⟩ | ⟨hlt, -⟩
    · exact Nat.lt_succ_self _
    · exact Nat.lt_succ_of_lt hlt
  · intro p id₀ q id₁ e he he'
    rcases hidr p id₀ e he with ⟨rfl, rfl, rfl⟩ | ⟨hlt, he⟩ <;>
      rcases hidr q id₁ _ he' with ⟨rfl, rfl, heq⟩ | ⟨hlt', he'⟩
    · exact ⟨rfl, rfl⟩
    · exact absurd hlt' (Nat.lt_irrefl _)
    · exact absurd hlt (heq ▸ Nat.lt_irrefl _)
    · exact h.unique p id₀ q id₁ e he he'
  · intro j vchan' e hk
    obtain ⟨hlt, hnone⟩ := h.taken j vchan' e (Pool.get_of_spawn hk nofun)
    refine ⟨Nat.lt_succ_of_lt hlt, fun q id' he ↦ ?_⟩
    rcases hidr q id' e he with ⟨-, -, rfl⟩ | ⟨-, he⟩
    · exact Nat.lt_irrefl _ hlt
    · exact hnone q id' he
  · intro j j' vchan₀ vchan₁ e hk hk'
    exact h.once j j' vchan₀ vchan₁ e (Pool.get_of_spawn hk nofun) (Pool.get_of_spawn hk' nofun)

theorem Entries.unexport (h : Entries s) {p : π} {id : UInt32} {e : ℕ} (vchan : ExportVchan π)
    (hentry : s.vm.expidIdr p id = some e) :
    Entries ⟨s.vm.setIdr p id none, s.calls.spawn (.taken vchan e)⟩ := by
  have hidr : ∀ q id' e', (s.vm.setIdr p id none).expidIdr q id' = some e' →
      e' ≠ e ∧ s.vm.expidIdr q id' = some e' := by
    intro q id' e' he'
    obtain ⟨hother, hold⟩ := ExportVm.setIdr_none_eq_some.mp he'
    refine ⟨?_, hold⟩
    rintro rfl
    exact hother (h.unique p id q id' e' hentry hold)
  -- whoever has taken the descriptor took its entry
  have hnew : ∀ j vchan' e', (s.calls.spawn (.taken vchan e)).get j = some (.taken vchan' e') →
      (j = s.calls.next ∧ e' = e) ∨ (e' ≠ e ∧ s.calls.get j = some (.taken vchan' e')) := by
    intro j vchan' e' hk
    rcases Pool.get_spawn.mp hk with ⟨hj, heq⟩ | hold
    · cases heq
      exact Or.inl ⟨hj, rfl⟩
    · refine Or.inr ⟨?_, hold⟩
      rintro rfl
      exact (h.taken j vchan' e' hold).2 p id hentry
  constructor
  · intro q id' e' he'
    exact h.allocated q id' e' (hidr q id' e' he').2
  · intro q id₀ q' id₁ e' he' he''
    exact h.unique q id₀ q' id₁ e' (hidr q id₀ e' he').2 (hidr q' id₁ e' he'').2
  · intro j vchan' e' hk
    rcases hnew j vchan' e' hk with ⟨-, rfl⟩ | ⟨-, hk⟩
    · exact ⟨h.allocated p id e' hentry, fun q id' he ↦ (hidr q id' e' he).1 rfl⟩
    · obtain ⟨hlt, hnone⟩ := h.taken j vchan' e' hk
      exact ⟨hlt, fun q id' he ↦ hnone q id' (hidr q id' e' he).2⟩
  · intro j j' vchan₀ vchan₁ e' hk hk'
    rcases hnew j vchan₀ e' hk with ⟨rfl, rfl⟩ | ⟨hne, hk⟩ <;>
      rcases hnew j' vchan₁ _ hk' with ⟨rfl, heq⟩ | ⟨hne', hk'⟩
    · rfl
    · exact absurd rfl hne'
    · exact absurd heq hne
    · exact h.once j j' vchan₀ vchan₁ e' hk hk'

theorem Entries.advance (h : Entries s) (hget : s.calls.get i = some stage)
    (hruns : ExportStage.Runs s.vm stage vm' stage') : Entries ⟨vm', s.calls.set i stage'⟩ := by
  refine h.of_le (fun _ _ _ he ↦ hruns.expidIdr he) hruns.frame.nextDesc fun j vchan e hk ↦ ?_
  rcases (Pool.get_set (Pool.lt_next hget)).mp hk with ⟨rfl, hnow⟩ | ⟨-, hk⟩
  · subst hnow
    cases hruns
  · exact hk

theorem Entries.step {s s' : ExportSystem π} {act : ExportAct π} (h : Entries s)
    (hstep : s.step act = some s') : Entries s' := by
  cases act with
  | «export» c v id payloadCount =>
      obtain ⟨vchan, -, hnext⟩ := Option.bind_eq_some_iff.mp hstep
      split at hnext
      · cases hnext
      · cases hnext
        exact h.export vchan id payloadCount
  | unexport c v id =>
      obtain ⟨vchan, -, hnext⟩ := Option.bind_eq_some_iff.mp hstep
      split at hnext
      · cases hnext
        exact h
      · rename_i e vm' htake
        cases hnext
        obtain ⟨hentry, -, -, -, rfl⟩ := ExportVm.takeUnexport_ok htake
        exact h.unexport vchan hentry
  | ctxFree c =>
      simp only [ExportSystem.step] at hstep
      split at hstep
      · cases hstep
        exact h.of_le (fun _ _ _ he ↦ he) rfl fun _ _ _ hk ↦ Pool.get_of_spawn hk (by rintro ⟨⟩)
      · cases hstep
  | reclaim =>
      simp only [ExportSystem.step] at hstep
      split at hstep
      · cases hstep
        exact h.of_le (fun _ _ _ he ↦ he) rfl fun _ _ _ hk ↦ Pool.get_of_spawn hk (by rintro ⟨⟩)
      · cases hstep
  | advance i ok =>
      obtain ⟨stage, hget, hnext⟩ := Option.bind_eq_some_iff.mp hstep
      obtain ⟨⟨vm', stage'⟩, hrun, hnext⟩ := Option.bind_eq_some_iff.mp hnext
      cases hnext
      exact h.advance hget (ExportStage.runs_of_run hrun)
  | recvImport v data sent =>
      obtain ⟨vchan, -, hnext⟩ := Option.bind_eq_some_iff.mp hstep
      cases hnext
      unfold ExportVm.recvImport
      split <;> exact h.of_le (fun _ _ _ he ↦ he) rfl fun _ _ _ hk ↦ hk
  | recvUnimport p id =>
      cases hstep
      unfold ExportVm.habRecvUnimportMsg
      split
      · exact h
      · split
        · exact h.of_le (fun _ _ _ he ↦ he) rfl fun _ _ _ hk ↦ hk
        · exact h
  | ctxAlloc c =>
      simp only [ExportSystem.step] at hstep
      split at hstep
      · cases hstep
      · cases hstep
        exact h.of_le (fun _ _ _ he ↦ he) rfl fun _ _ _ hk ↦ hk
  | openVchan vchan =>
      simp only [ExportSystem.step] at hstep
      split at hstep
      · cases hstep
        exact h.of_le (fun _ _ _ he ↦ he) rfl fun _ _ _ hk ↦ hk
      · cases hstep
  | freeVchan v =>
      simp only [ExportSystem.step] at hstep
      split at hstep
      · cases hstep
        exact h.of_le (fun _ _ _ he ↦ he) rfl fun _ _ _ hk ↦ hk
      · cases hstep
  | negotiate p newProto =>
      cases hstep
      exact h.of_le (fun _ _ _ he ↦ he) rfl fun _ _ _ hk ↦ hk

end ExportSystem

/-! ## Where a descriptor may be -/

namespace ExportVm

variable {vm vm' : ExportVm π} {e : ℕ}

/-- How often the lists have the descriptor. -/
def copies (vm : ExportVm π) (e : ℕ) : ℕ :=
  vm.reclaimList.count e + (vm.ctx (vm.log e).exporter).expWhse.count e

theorem copies_eq (hlog : (vm'.log e).exporter = (vm.log e).exporter)
    (hreclaim : vm'.reclaimList = vm.reclaimList)
    (hwhse : ∀ c, (vm'.ctx c).expWhse = (vm.ctx c).expWhse) : vm'.copies e = vm.copies e := by
  rw [copies, copies, hlog, hreclaim, hwhse]

theorem copies_unlink_of_ne {e' : ℕ} (hne : e ≠ e') : (vm.unlink e').copies e = vm.copies e := by
  simp only [copies, unlink]
  rw [List.count_erase_of_ne hne, List.count_erase_of_ne hne]

/-- Off one list at least. -/
theorem copies_unlink (hlisted : vm.Listed e)
    (hwhse : ∀ c, e ∈ (vm.ctx c).expWhse → (vm.log e).exporter = c) :
    (vm.unlink e).copies e + 1 ≤ vm.copies e := by
  simp only [copies, unlink, List.count_erase_self]
  rcases hlisted with ⟨c, hc⟩ | hreclaim
  · obtain rfl := hwhse c hc
    have hpos := List.count_pos_iff.mpr hc
    omega
  · have hpos := List.count_pos_iff.mpr hreclaim
    omega

theorem copies_linkExport_le (vm : ExportVm π) (c e e' : ℕ) :
    (vm.linkExport c e').copies e ≤ vm.copies e + if e' = e then 1 else 0 := by
  simp only [copies, linkExport, setCtx]
  by_cases hc : (vm.log e).exporter = c
  · rw [hc, Function.update_self, List.count_append, List.count_singleton]
    simp only [beq_iff_eq]
    split <;> omega
  · rw [Function.update_of_ne hc]
    exact Nat.le_add_right _ _

theorem Listed.unlink {e' : ℕ} (h : vm.Listed e) (hne : e ≠ e') : (vm.unlink e').Listed e := by
  rcases h with ⟨c, hc⟩ | hreclaim
  · exact Or.inl ⟨c, (List.mem_erase_of_ne hne).mpr hc⟩
  · exact Or.inr ((List.mem_erase_of_ne hne).mpr hreclaim)

theorem Listed.linkExport (h : vm.Listed e) (c e' : ℕ) : (vm.linkExport c e').Listed e := by
  refine h.imp_left fun ⟨c', hc'⟩ ↦ ⟨c', ?_⟩
  by_cases hne : c' = c
  · subst hne
    simp only [ExportVm.linkExport, setCtx, Function.update_self]
    exact List.mem_append_left _ hc'
  · simpa only [ExportVm.linkExport, setCtx, Function.update_of_ne hne] using hc'

theorem lists_recvImport (vm : ExportVm π) (vchan : ExportVchan π) (data : HabImportData)
    (sent : Bool) :
    ((∀ c, ((vm.recvImport vchan data sent).ctx c).expWhse = (vm.ctx c).expWhse) ∧
      (vm.recvImport vchan data sent).reclaimList = vm.reclaimList) ∧
    ∀ e, ((vm.recvImport vchan data sent).desc e).remoteImported = false →
      (vm.desc e).remoteImported = false := by
  unfold recvImport
  split
  · exact ⟨⟨fun _ ↦ rfl, rfl⟩, fun _ h ↦ h⟩
  · rename_i e' _
    refine ⟨⟨fun _ ↦ rfl, rfl⟩, fun e h ↦ ?_⟩
    by_cases hne : e = e'
    · subst hne
      simp [habSendImportAck, setDesc, setLog] at h
    · simpa [habSendImportAck, setDesc, setLog, hne] using h

/-- `list_move` takes what it moves off `reclaim_list`. -/
theorem count_takeReclaimable (vm : ExportVm π) (e : ℕ) :
    vm.takeReclaimable.reclaimList.count e + vm.reclaimable.count e = vm.reclaimList.count e := by
  simp only [takeReclaimable, reclaimable, List.count_reverse]
  induction vm.reclaimList with
  | nil => rfl
  | cons e' rest ih =>
      cases hflag : (vm.desc e').remoteImported with
      | true =>
          simp only [List.filter_cons, hflag, List.count_cons]
          simp only [if_true, not_true_eq_false, decide_false, Bool.false_eq_true, if_false,
            List.count_cons]
          omega
      | false =>
          simp only [List.filter_cons, hflag, List.count_cons]
          simp only [Bool.false_eq_true, if_false, not_false_eq_true, decide_true, if_true,
            List.count_cons]
          omega

end ExportVm

namespace ExportStage

variable {vm vm' : ExportVm π} {stage : ExportStage π} {stage' : Option (ExportStage π)} {e : ℕ}

/-- How often a call has the descriptor in hand, off the lists. -/
def hand (e : ℕ) : ExportStage π → ℕ
  | .added _ e' | .granted _ e' | .sent _ e' | .unlinked _ e' | .revoked _ e' | .spared _ e'
  | .chosen _ e' | .dropped _ e' | .gone _ e' => if e' = e then 1 else 0
  | .linked _ _ | .taken _ _ | .freeing _ => 0
  | .reclaiming freeList => freeList.count e
  | .reclaimed e' freeList => (if e' = e then 1 else 0) + freeList.count e

/-- Does the next lock section destroy this descriptor? -/
def releases (vm : ExportVm π) (ok : Bool) (stage : ExportStage π) (e : ℕ) : ℕ :=
  if stage.destroys vm ok = some e then 1 else 0

theorem releases_map_le (o : Option ℕ) (e e' : ℕ) :
    (if (o.map fun _ ↦ e') = some e then 1 else 0) ≤ if e' = e then 1 else 0 := by
  cases o with
  | none => simp
  | some c => simp

/-- A lock section passes the descriptor on from a list to the call, back, or to its
destruction. -/
theorem hand_of_run {ok : Bool} (hrun : stage.run vm ok = some (vm', stage'))
    (htaken : ∀ vchan e, stage = .taken vchan e → vm.Listed e)
    (hwhse : ∀ c, e ∈ (vm.ctx c).expWhse → (vm.log e).exporter = c) :
    vm'.copies e + stage'.elim 0 (hand e) + stage.releases vm ok e ≤
      vm.copies e + stage.hand e := by
  have hruns := runs_of_run hrun
  have hlog := hruns.frame.exporter e
  cases hruns with
  | granted vchan e' =>
      cases ok with
      | true => simp [releases, destroys, hand]
      | false =>
          obtain ⟨-, -, hnext⟩ := Option.map_eq_some_iff.mp hrun
          cases congrArg Prod.snd hnext
  | notGranted vchan e' =>
      rw [ExportVm.copies_eq hlog rfl fun _ ↦ rfl]
      cases ok <;> simp [releases, destroys, hand]
  | linked vchan e' =>
      have hlinked := vm.copies_linkExport_le vchan.ctx e e'
      simpa [releases, destroys, hand] using hlinked
  | sent vchan e' => simp [releases, destroys, hand]
  | notLinked vchan e' => simp [releases, destroys]
  | acked vchan e' =>
      have hlinked := (vm.setLocal vchan vchan.ctx e').copies_linkExport_le vchan.ctx e e'
      have hsame : (vm.setLocal vchan vchan.ctx e').copies e = vm.copies e := rfl
      rw [hsame] at hlinked
      simpa [releases, destroys, hand] using hlinked
  | notAcked vchan e' => simp [releases, destroys]
  | published vchan e' =>
      rw [ExportVm.copies_eq hlog rfl fun _ ↦ rfl]
      simp [releases, destroys, hand]
  | unlinked vchan e' =>
      by_cases hne : e = e'
      · subst hne
        have hcopies := ExportVm.copies_unlink (htaken vchan e rfl) hwhse
        simpa [releases, destroys, hand] using hcopies
      · rw [ExportVm.copies_unlink_of_ne hne]
        simp [releases, destroys, hand, Ne.symm hne]
  | revoked vchan e' =>
      rw [ExportVm.copies_eq hlog rfl fun _ ↦ rfl]
      simp [releases, destroys, hand]
  | removed vchan e' =>
      rw [ExportVm.copies_eq hlog (ExportVm.reclaimList_habmemRemoveExport vm e')
        (ExportVm.expWhse_habmemRemoveExport vm e')]
      exact Nat.add_le_add_left (releases_map_le _ e e') _
  | freed c hnil =>
      rw [ExportVm.copies_eq hlog rfl (vm.expWhse_setCtx_self rfl)]
      simp [releases, destroys, hand]
  | spared c e' rest hhead =>
      by_cases hne : e = e'
      · subst hne
        have hmem : e ∈ (vm.ctx c).expWhse := hhead ▸ List.mem_cons_self
        have hcopies := ExportVm.copies_unlink (Or.inl ⟨c, hmem⟩) hwhse
        simpa [releases, destroys, hand] using hcopies
      · rw [ExportVm.copies_unlink_of_ne hne]
        simp [releases, destroys, hand, Ne.symm hne]
  | chosen c e' rest hhead =>
      by_cases hne : e = e'
      · subst hne
        have hmem : e ∈ (vm.ctx c).expWhse := hhead ▸ List.mem_cons_self
        have hcopies := ExportVm.copies_unlink (Or.inl ⟨c, hmem⟩) hwhse
        simpa [releases, destroys, hand] using hcopies
      · rw [ExportVm.copies_unlink_of_ne hne]
        simp [releases, destroys, hand, Ne.symm hne]
  | reclaimLater c e' =>
      simp only [ExportVm.copies, ExportVm.reclaimLater, List.count_append, List.count_singleton]
      simp only [beq_iff_eq, releases, destroys, hand, Option.elim, reduceCtorEq, if_false]
      split <;> omega
  | dropped c e' =>
      rw [ExportVm.copies_eq hlog rfl fun _ ↦ rfl]
      simp [releases, destroys, hand]
  | gone c e' p hp =>
      rw [ExportVm.copies_eq hlog rfl fun _ ↦ rfl]
      simp [releases, destroys, hand]
  | next c e' =>
      rw [ExportVm.copies_eq hlog (ExportVm.reclaimList_habmemRemoveExport vm e')
        (ExportVm.expWhse_habmemRemoveExport vm e')]
      exact Nat.add_le_add_left (releases_map_le _ e e') _
  | reclaimEnd => simp [releases, destroys]
  | reclaimed e' freeList p hp =>
      rw [ExportVm.copies_eq hlog rfl fun _ ↦ rfl]
      simp only [releases, destroys, hand, Option.elim, reduceCtorEq, if_false, List.count_cons]
      simp only [beq_iff_eq]
      omega
  | reclaimNext e' freeList =>
      rw [ExportVm.copies_eq hlog rfl fun _ ↦ rfl]
      simp only [releases, destroys, hand, Option.elim, Option.some.injEq]
      omega

end ExportStage

/-- A lock section takes off the lists only what the call then has in hand. -/
theorem ExportStage.Runs.listed {vm vm' : ExportVm π} {stage : ExportStage π}
    {stage' : Option (ExportStage π)} (h : Runs vm stage vm' stage') {e : ℕ} (he : vm.Listed e)
    (htaken : ∀ vchan, stage ≠ .taken vchan e)
    (hhead : ∀ c rest, stage = .freeing c → (vm.ctx c).expWhse ≠ e :: rest) : vm'.Listed e := by
  have hkeep : (∀ c, (vm'.ctx c).expWhse = (vm.ctx c).expWhse) →
      vm'.reclaimList = vm.reclaimList → vm'.Listed e := by
    intro hwhse hreclaim
    simpa only [ExportVm.Listed, hwhse, hreclaim] using he
  cases h with
  | linked vchan e' => exact he.linkExport vchan.ctx e'
  | acked vchan e' =>
      have hset : (vm.setLocal vchan vchan.ctx e').Listed e := he
      exact hset.linkExport vchan.ctx e'
  | unlinked vchan e' => exact he.unlink fun heq ↦ htaken vchan (heq ▸ rfl)
  | spared c e' rest hwhse => exact he.unlink fun heq ↦ hhead c rest rfl (heq ▸ hwhse)
  | chosen c e' rest hwhse => exact he.unlink fun heq ↦ hhead c rest rfl (heq ▸ hwhse)
  | freed c hnil => exact hkeep (vm.expWhse_setCtx_self rfl) rfl
  | removed vchan e' =>
      exact hkeep (vm.expWhse_habmemRemoveExport e') (vm.reclaimList_habmemRemoveExport e')
  | next c e' =>
      exact hkeep (vm.expWhse_habmemRemoveExport e') (vm.reclaimList_habmemRemoveExport e')
  | reclaimLater c e' => exact he.imp_right fun hmem ↦ List.mem_append_left _ hmem
  | _ => exact hkeep (fun _ ↦ rfl) rfl

/-! ## The invariant -/

namespace ReclaimSystem

/-- In how many places the descriptor is, counting its destructions. -/
def tokens (s : ReclaimSystem π) (e : ℕ) : ℕ :=
  s.releases e + s.sys.vm.copies e + s.sys.calls.sum (ExportStage.hand e)

structure Inv (s : ReclaimSystem π) : Prop where
  lists : s.sys.Private
  homes : s.sys.Homes
  entries : s.sys.Entries
  taken : ∀ e, s.sys.Taken e → s.sys.vm.Listed e
  tokens : ∀ e, s.tokens e ≤ if e < s.sys.vm.nextDesc then 1 else 0
  waits : ∀ e ∈ s.sys.vm.reclaimList, (s.sys.vm.desc e).remoteImported = false →
    s.scheduled = true

theorem inv_start (memProto : π → Bool) : Inv (start memProto) where
  lists := ExportSystem.private_start memProto
  homes := ExportSystem.homes_start memProto
  entries := ExportSystem.entries_start memProto
  taken e h := by
    obtain ⟨i, vchan, h⟩ := h
    cases h
  tokens e := Nat.zero_le _
  waits e he := by cases he

theorem Inv.noOrphan {s : ReclaimSystem π} (h : Inv s) : s.NoOrphan where
  worked e he hflag := Or.inl (h.waits e he hflag)
  once e := by
    have htokens := h.tokens e
    rw [ReclaimSystem.tokens] at htokens
    split at htokens <;> omega

variable {s : ReclaimSystem π} {sys' : ExportSystem π} {act : ExportAct π}

/-- A step that puts nothing on a list and starts no call with a descriptor. -/
theorem Inv.idle (h : Inv s) (scheduled : Bool) (hstep : s.sys.step act = some sys')
    (hnext : sys'.vm.nextDesc = s.sys.vm.nextDesc)
    (hreclaim : sys'.vm.reclaimList = s.sys.vm.reclaimList)
    (hlisted : ∀ e, s.sys.vm.Listed e → sys'.vm.Listed e)
    (hcopies : ∀ e, sys'.vm.copies e ≤ s.sys.vm.copies e)
    (hwaits : ∀ e ∈ s.sys.vm.reclaimList, (sys'.vm.desc e).remoteImported = false →
      scheduled = true)
    (hcalls : sys'.calls = s.sys.calls ∨ ∃ c, sys'.calls = s.sys.calls.spawn (.freeing c)) :
    Inv { s with sys := sys', scheduled := scheduled } where
  lists := h.lists.step hstep
  homes := h.homes.step hstep
  entries := h.entries.step hstep
  taken e he := by
    obtain ⟨i, vchan, hget⟩ := he
    refine hlisted e (h.taken e ⟨i, vchan, ?_⟩)
    rcases hcalls with hsame | ⟨c, hspawn⟩
    · rwa [← hsame]
    · rw [hspawn] at hget
      exact Pool.get_of_spawn hget nofun
  tokens e := by
    have hsum : sys'.calls.sum (ExportStage.hand e) = s.sys.calls.sum (ExportStage.hand e) := by
      rcases hcalls with hsame | ⟨c, hspawn⟩
      · rw [hsame]
      · rw [hspawn, Pool.sum_spawn]
        rfl
    refine Nat.le_trans ?_ (hnext ▸ h.tokens e)
    rw [ReclaimSystem.tokens, ReclaimSystem.tokens, hsum]
    exact Nat.add_le_add_right (Nat.add_le_add_left (hcopies e) _) _
  waits e he hclear := hwaits e (hreclaim ▸ he) hclear

theorem Inv.export (h : Inv s) {vchan : ExportVchan π} {id payloadCount : UInt32}
    (hstep : s.sys.step act = some ⟨s.sys.vm.habmemAddExport vchan id payloadCount,
      s.sys.calls.spawn (.added vchan s.sys.vm.nextDesc)⟩) :
    Inv { s with sys := ⟨s.sys.vm.habmemAddExport vchan id payloadCount,
      s.sys.calls.spawn (.added vchan s.sys.vm.nextDesc)⟩ } where
  lists := h.lists.step hstep
  homes := h.homes.step hstep
  entries := h.entries.step hstep
  taken e he := by
    obtain ⟨i, vchan', hget⟩ := he
    exact h.taken e ⟨i, vchan', Pool.get_of_spawn hget nofun⟩
  tokens e := by
    have htokens := h.tokens e
    have hnext : (s.sys.vm.habmemAddExport vchan id payloadCount).nextDesc =
        s.sys.vm.nextDesc + 1 := rfl
    simp only [ReclaimSystem.tokens, Pool.sum_spawn] at htokens ⊢
    by_cases hne : e = s.sys.vm.nextDesc
    · -- nothing has the new descriptor but the call that built it
      subst hne
      have hwhse : ∀ c, (s.sys.vm.ctx c).expWhse.count s.sys.vm.nextDesc = 0 := by
        intro c
        refine List.count_eq_zero.mpr fun hmem ↦ ?_
        exact Nat.lt_irrefl _ (h.lists.allocated _ (Or.inl ⟨c, hmem⟩))
      rw [if_neg (Nat.lt_irrefl _)] at htokens
      rw [hnext, if_pos (Nat.lt_succ_self _)]
      have hcopies : (s.sys.vm.habmemAddExport vchan id payloadCount).copies s.sys.vm.nextDesc =
          s.sys.vm.copies s.sys.vm.nextDesc :=
        congrArg₂ (· + ·) rfl ((hwhse _).trans (hwhse _).symm)
      simp only [hcopies, ExportStage.hand, if_true]
      omega
    · have hcopies : (s.sys.vm.habmemAddExport vchan id payloadCount).copies e =
          s.sys.vm.copies e :=
        ExportVm.copies_eq
          (congrArg ExportLog.exporter (ExportSystem.log_habmemAddExport _ _ _ _ hne)) rfl
          fun _ ↦ rfl
      simp only [hcopies, hnext, ExportStage.hand, if_neg (Ne.symm hne)]
      refine Nat.le_trans htokens ?_
      split <;> split <;> omega
  waits e he hclear := by
    have hne : e ≠ s.sys.vm.nextDesc :=
      Nat.ne_of_lt (h.lists.allocated e (Or.inr (Or.inl he)))
    refine h.waits e he ?_
    rw [← ExportSystem.desc_habmemAddExport s.sys.vm vchan id payloadCount hne]
    exact hclear

theorem Inv.unexport (h : Inv s) {vchan : ExportVchan π} {p : π} {id : UInt32} {e : ℕ}
    (hlisted : s.sys.vm.Listed e)
    (hstep : s.sys.step act = some ⟨s.sys.vm.setIdr p id none, s.sys.calls.spawn (.taken vchan e)⟩) :
    Inv { s with sys := ⟨s.sys.vm.setIdr p id none, s.sys.calls.spawn (.taken vchan e)⟩ } where
  lists := h.lists.step hstep
  homes := h.homes.step hstep
  entries := h.entries.step hstep
  taken e' he' := by
    obtain ⟨i, vchan', hget⟩ := he'
    rcases Pool.get_spawn.mp hget with ⟨-, heq⟩ | hold
    · cases heq
      exact hlisted
    · exact h.taken e' ⟨i, vchan', hold⟩
  tokens e' := by
    have htokens := h.tokens e'
    have hcopies : (s.sys.vm.setIdr p id none).copies e' = s.sys.vm.copies e' := rfl
    simp only [ReclaimSystem.tokens, Pool.sum_spawn, hcopies, ExportStage.hand] at htokens ⊢
    exact htokens
  waits := h.waits

theorem Inv.reclaim (h : Inv s) (hcareful : s.Careful .reclaimCleanup)
    (hstep : s.sys.step act = some
      ⟨s.sys.vm.takeReclaimable, s.sys.calls.spawn (.reclaiming s.sys.vm.reclaimable)⟩) :
    Inv { s with
      sys := ⟨s.sys.vm.takeReclaimable, s.sys.calls.spawn (.reclaiming s.sys.vm.reclaimable)⟩
      scheduled := false } where
  lists := h.lists.step hstep
  homes := h.homes.step hstep
  entries := h.entries.step hstep
  taken e he := by
    obtain ⟨i, vchan', hget⟩ := he
    have htaken : s.sys.Taken e := ⟨i, vchan', Pool.get_of_spawn hget nofun⟩
    rcases h.taken e htaken with hwhse | hmem
    · exact Or.inl hwhse
    · refine Or.inr (List.mem_filter.mpr ⟨hmem, ?_⟩)
      by_contra hflag
      refine hcareful e (List.mem_reverse.mpr (List.mem_filter.mpr ⟨hmem, ?_⟩)) htaken
      simpa using hflag
  tokens e := by
    have htokens := h.tokens e
    have hmoved := s.sys.vm.count_takeReclaimable e
    have hcopies : s.sys.vm.takeReclaimable.copies e = s.sys.vm.takeReclaimable.reclaimList.count e +
        (s.sys.vm.ctx (s.sys.vm.log e).exporter).expWhse.count e := rfl
    simp only [ReclaimSystem.tokens, Pool.sum_spawn, hcopies, ExportStage.hand] at htokens ⊢
    refine Nat.le_trans ?_ htokens
    rw [ExportVm.copies]
    omega
  waits e he hclear := by
    have hflag := (List.mem_filter.mp he).2
    change (s.sys.vm.desc e).remoteImported = false at hclear
    rw [hclear] at hflag
    cases hflag

theorem Inv.advance (h : Inv s) {i : ℕ} {ok : Bool} {stage : ExportStage π}
    {vm' : ExportVm π} {stage' : Option (ExportStage π)} (hget : s.sys.calls.get i = some stage)
    (hcareful : s.Careful (.advance i ok)) (hrun : stage.run s.sys.vm ok = some (vm', stage')) :
    Inv
      { sys := ⟨vm', s.sys.calls.set i stage'⟩
        scheduled := s.scheduled || stage.schedules
        releases :=
          match stage.destroys s.sys.vm ok with
          | none => s.releases
          | some e => Function.update s.releases e (s.releases e + 1) } where
  lists := h.lists.advance hget (ExportStage.runs_of_run hrun)
  homes := h.homes.advance hget (ExportStage.runs_of_run hrun)
  entries := h.entries.advance hget (ExportStage.runs_of_run hrun)
  taken e he := by
    have hruns := ExportStage.runs_of_run hrun
    obtain ⟨j, vchan, hj⟩ := he
    rcases (Pool.get_set (Pool.lt_next hget)).mp hj with ⟨-, hnow⟩ | ⟨hne, hold⟩
    · subst hnow
      cases hruns
    · refine hruns.listed (h.taken e ⟨j, vchan, hold⟩) ?_ ?_
      · rintro vchan' rfl
        exact hne (h.entries.once j i vchan vchan' e hold hget)
      · rintro c rest rfl hwhse
        exact hcareful c e rest hget hwhse ⟨j, vchan, hold⟩
  tokens e := by
    have htokens := h.tokens e
    have hhand := ExportStage.hand_of_run (e := e) hrun
      (fun vchan e' heq ↦ h.taken e' ⟨i, vchan, heq ▸ hget⟩) fun c he ↦ h.lists.listed c e he
    have hsum : (s.sys.calls.set i stage').sum (ExportStage.hand e) + _ = _ :=
      Pool.sum_set hget stage'
    have hnext := (ExportStage.runs_of_run hrun).frame.nextDesc
    have hreleases : (match stage.destroys s.sys.vm ok with
        | none => s.releases
        | some e' => Function.update s.releases e' (s.releases e' + 1)) e =
          s.releases e + stage.releases s.sys.vm ok e := by
      rw [ExportStage.releases]
      cases stage.destroys s.sys.vm ok with
      | none => rfl
      | some e' =>
          by_cases hne : e = e'
          · subst hne
            simp
          · simp [hne, Ne.symm hne]
    simp only [ReclaimSystem.tokens] at htokens ⊢
    rw [hreleases, hnext]
    refine Nat.le_trans ?_ htokens
    omega
  waits e he hclear := by
    have hruns := ExportStage.runs_of_run hrun
    rw [hruns.remoteImported] at hclear
    rcases hruns.reclaimList he with hold | ⟨c, rfl⟩
    · simp [h.waits e hold hclear]
    · simp [ExportStage.schedules]

theorem Inv.recvUnimport (h : Inv s) {p : π} {v : ℕ} {id : UInt32}
    (hcareful : s.Careful (.recvUnimport p v id)) :
    Inv { s with
      sys := { s.sys with vm := s.sys.vm.habRecvUnimportMsg p id }
      scheduled := s.scheduled || !s.vchanExist p v } := by
  have hstep : s.sys.step (.recvUnimport p id) =
      some { s.sys with vm := s.sys.vm.habRecvUnimportMsg p id } := rfl
  have hold : ∀ e ∈ s.sys.vm.reclaimList, (s.sys.vm.desc e).remoteImported = false →
      (s.scheduled || !s.vchanExist p v) = true := by
    intro e he hflag
    simp [h.waits e he hflag]
  have hsame := ExportSystem.leaves_habRecvUnimportMsg s.sys p id
  unfold ExportVm.habRecvUnimportMsg at hstep hsame ⊢
  cases hentry : s.sys.vm.expidIdr p id with
  | none =>
      rw [hentry] at hstep
      exact h.idle _ hstep rfl rfl (fun _ he ↦ he) (fun _ ↦ Nat.le_refl _) hold (Or.inl rfl)
  | some e =>
      rw [hentry] at hstep hsame
      simp only at hstep hsame ⊢
      split at hstep
      · rename_i hmatch
        rw [if_pos hmatch] at hsame ⊢
        refine h.idle _ hstep rfl rfl (fun _ he ↦ he)
          (fun e' ↦ Nat.le_of_eq (ExportVm.copies_eq (hsame.exporter e') rfl fun _ ↦ rfl)) ?_
          (Or.inl rfl)
        intro e' he' hflag
        by_cases hset : (s.sys.vm.desc e').remoteImported = true
        · by_cases hne : e' = e
          · subst hne
            cases hexist : s.vchanExist p v with
            | true => simp [hcareful e' he' hentry hset hexist]
            | false => simp
          · simp [ExportVm.setLog, ExportVm.setDesc, hne, hset] at hflag
        · exact hold e' he' (by simpa using hset)
      · rename_i hmatch
        rw [if_neg hmatch]
        exact h.idle _ hstep rfl rfl (fun _ he ↦ he) (fun _ ↦ Nat.le_refl _) hold (Or.inl rfl)

theorem Inv.other (h : Inv s) (hcareful : s.Careful (.other act))
    (hcall : ∀ i ok, act ≠ .advance i ok) (hreclaim : act ≠ .reclaim)
    (hunimport : ∀ p id, act ≠ .recvUnimport p id) (hstep : s.sys.step act = some sys') :
    Inv { s with sys := sys' } := by
  have hstep' := hstep
  cases act with
  | «export» c v id payloadCount =>
      obtain ⟨vchan, -, hnext⟩ := Option.bind_eq_some_iff.mp hstep
      split at hnext
      · cases hnext
      · cases hnext
        exact h.export hstep'
  | unexport c v id =>
      obtain ⟨vchan, hvchan, hnext⟩ := Option.bind_eq_some_iff.mp hstep
      split at hnext
      · cases hnext
        exact h
      · rename_i e vm' htake
        cases hnext
        obtain ⟨hentry, -, -, -, rfl⟩ := ExportVm.takeUnexport_ok htake
        exact h.unexport (hcareful vchan e hvchan hentry) hstep'
  | ctxFree c =>
      simp only [ExportSystem.step] at hstep
      split at hstep
      · cases hstep
        exact h.idle s.scheduled hstep' rfl rfl (fun _ he ↦ he) (fun _ ↦ Nat.le_refl _) h.waits
          (Or.inr ⟨c, rfl⟩)
      · cases hstep
  | reclaim => exact absurd rfl hreclaim
  | advance i ok => exact absurd rfl (hcall i ok)
  | recvUnimport p id => exact absurd rfl (hunimport p id)
  | recvImport v data sent =>
      obtain ⟨vchan, -, hnext⟩ := Option.bind_eq_some_iff.mp hstep
      cases hnext
      have hleaves := ExportSystem.leaves_recvImport s.sys vchan data sent
      obtain ⟨hlists, hflags⟩ := ExportVm.lists_recvImport s.sys.vm vchan data sent
      refine h.idle s.scheduled hstep' hleaves.nextDesc hlists.2 (fun e he ↦ ?_)
        (fun e ↦ Nat.le_of_eq (ExportVm.copies_eq (hleaves.exporter e) hlists.2 hlists.1))
        (fun e he hflag ↦ h.waits e he (hflags e hflag)) (Or.inl rfl)
      simpa only [ExportVm.Listed, hlists.1, hlists.2] using he
  | ctxAlloc c =>
      simp only [ExportSystem.step] at hstep
      split at hstep
      · cases hstep
      · rename_i hlive
        cases hstep
        have hempty : ∀ e, e ∉ (s.sys.vm.ctx c).expWhse := fun e he ↦ hlive (h.homes.listed c e he)
        have hwhse := s.sys.vm.expWhse_setCtx_self (c := c) (x := ⟨true, [], 0⟩)
          (List.eq_nil_iff_forall_not_mem.mpr hempty).symm
        refine h.idle s.scheduled hstep' rfl rfl (fun e he ↦ ?_)
          (fun e ↦ Nat.le_of_eq (ExportVm.copies_eq rfl rfl hwhse)) h.waits (Or.inl rfl)
        rcases he with ⟨c', hc'⟩ | he
        · exact Or.inl ⟨c', (hwhse c').symm ▸ hc'⟩
        · exact Or.inr he
  | openVchan vchan =>
      simp only [ExportSystem.step] at hstep
      split at hstep
      · cases hstep
        exact h.idle s.scheduled hstep' rfl rfl (fun _ he ↦ he) (fun _ ↦ Nat.le_refl _) h.waits
          (Or.inl rfl)
      · cases hstep
  | freeVchan v =>
      simp only [ExportSystem.step] at hstep
      split at hstep
      · cases hstep
        exact h.idle s.scheduled hstep' rfl rfl (fun _ he ↦ he) (fun _ ↦ Nat.le_refl _) h.waits
          (Or.inl rfl)
      · cases hstep
  | negotiate p newProto =>
      cases hstep
      exact h.idle s.scheduled hstep' rfl rfl (fun _ he ↦ he) (fun _ ↦ Nat.le_refl _) h.waits
        (Or.inl rfl)

theorem Inv.step {s s' : ReclaimSystem π} {act : ReclaimAct π} (h : Inv s)
    (hcareful : s.Careful act) (hstep : s.step act = some s') : Inv s' := by
  cases act with
  | recvUnimport p v id =>
      cases hstep
      exact h.recvUnimport hcareful
  | reclaimCleanup =>
      simp only [ReclaimSystem.step] at hstep
      split at hstep
      · obtain ⟨sys', hsys, hnext⟩ := Option.bind_eq_some_iff.mp hstep
        cases hnext
        have hsys' := hsys
        simp only [ExportSystem.step] at hsys
        split at hsys
        · cases hsys
          exact h.reclaim hcareful hsys'
        · cases hsys
      · cases hstep
  | advance i ok =>
      obtain ⟨stage, hget, hnext⟩ := Option.bind_eq_some_iff.mp hstep
      obtain ⟨sys', hsys, hnext⟩ := Option.bind_eq_some_iff.mp hnext
      cases hnext
      obtain ⟨stage₀, hget₀, hsys⟩ := Option.bind_eq_some_iff.mp hsys
      obtain ⟨⟨vm', stage'⟩, hrun, hsys⟩ := Option.bind_eq_some_iff.mp hsys
      cases hsys
      obtain rfl : stage = stage₀ := Option.some.inj (hget.symm.trans hget₀)
      exact h.advance hget hcareful hrun
  | other act =>
      cases act with
      | reclaim => cases hstep
      | advance i ok => cases hstep
      | recvUnimport p id => cases hstep
      | negotiate p newProto =>
          cases hstep
          exact h.other hcareful (fun _ _ hact ↦ by cases hact) (fun hact ↦ by cases hact)
            (fun _ _ hact ↦ by cases hact) rfl
      | _ =>
          obtain ⟨sys', hsys, hnext⟩ := Option.bind_eq_some_iff.mp hstep
          cases hnext
          exact h.other hcareful (fun _ _ hact ↦ by cases hact) (fun hact ↦ by cases hact)
            (fun _ _ hact ↦ by cases hact) hsys

/-! ## Runs -/

theorem noOrphan_of_exec (memProto : π → Bool) (acts : List (ReclaimAct π)) {s : ReclaimSystem π}
    (hmeets : Runs.Meets step Careful (start memProto) acts)
    (hexec : Runs.exec step (start memProto) acts = some s) : s.NoOrphan := by
  have hinv : Inv s := Runs.invariant_of_meets
    (fun _ _ _ hs hcareful hstep ↦ hs.step hcareful hstep)
    (inv_start memProto) hmeets hexec
  exact hinv.noOrphan

theorem not_taken (hall : s.sys.calls.all (fun stage ↦ !stage.isTaken) = true) (e : ℕ) :
    ¬ s.sys.Taken e := by
  rintro ⟨i, vchan, hget⟩
  cases Pool.all_eq_true.mp hall i _ hget

theorem not_atWork (hscheduled : s.scheduled = false)
    (hall : s.sys.calls.all (fun stage ↦ !stage.isReclaim) = true) : ¬ s.AtWork := by
  rintro (hwork | ⟨i, stage, hget, hreclaim⟩)
  · rw [hscheduled] at hwork
    cases hwork
  · have hnot := Pool.all_eq_true.mp hall i stage hget
    rw [hreclaim] at hnot
    cases hnot

/-- An export that is still imported when its context ends; the worker finds nothing to
do, and then the UNIMPORT comes for the vchan at `v`. -/
def importedAtEnd (v : ℕ) : List (ReclaimAct Unit) :=
  [.other (.ctxAlloc 0), .other (.openVchan ⟨0, 0, ()⟩), .other (.ctxAlloc 1),
    .other (.openVchan ⟨1, 1, ()⟩), .other (.export 0 0 1 4), .advance 0 true, .advance 0 true,
    .advance 0 true, .other (.recvImport 0 ⟨1, 4⟩ true), .other (.freeVchan 0),
    .other (.ctxFree 0), .advance 1 true, .advance 1 true, .advance 1 true, .reclaimCleanup,
    .advance 2 true, .recvUnimport () v 1]

/-- Over the vchan that carried the import, which is closed. -/
theorem noOrphan_of_exec_importedAtEnd :
    ∃ s, Runs.exec step (start fun _ ↦ true) (importedAtEnd 0) = some s ∧ s.NoOrphan := by
  refine ⟨_, rfl, noOrphan_of_exec (fun _ ↦ true) (importedAtEnd 0) ?_ rfl⟩
  refine ⟨trivial, trivial, trivial, trivial, trivial, ?_, ?_, ?_, trivial, trivial, trivial, ?_,
    ?_, ?_, ?_, ?_, ?_, trivial⟩
  · exact fun c e rest _ _ ↦ not_taken (by decide) e
  · exact fun c e rest _ _ ↦ not_taken (by decide) e
  · exact fun c e rest _ _ ↦ not_taken (by decide) e
  · exact fun c e rest _ _ ↦ not_taken (by decide) e
  · exact fun c e rest _ _ ↦ not_taken (by decide) e
  · exact fun c e rest _ _ ↦ not_taken (by decide) e
  · exact fun e _ ↦ not_taken (by decide) e
  · exact fun c e rest _ _ ↦ not_taken (by decide) e
  · intro e _ _ _ hexist
    cases hexist

/-- Over another vchan of the pchan, no one schedules the worker. -/
theorem not_forall_noOrphan :
    ¬ ∀ (memProto : Unit → Bool) (acts : List (ReclaimAct Unit)) (s : ReclaimSystem Unit),
      Runs.exec step (start memProto) acts = some s → s.NoOrphan := by
  intro h
  obtain ⟨s, hs⟩ : ∃ s, Runs.exec step (start fun _ ↦ true) (importedAtEnd 1) = some s := ⟨_, rfl⟩
  have hno := h _ _ s hs
  cases hs
  exact not_atWork (by decide) (by decide) (hno.worked 0 (by decide) (by decide))

end ReclaimSystem

end Hab
