import Hab.ExportLists
import Hab.Compress

/-!
# Local addresses in the messages of an exporter

EXPORT and IMPORT_ACK carry the descriptor as it lies in memory.  `hab_send_import_ack`
clears the three pointers to the context, the vchan and the pchan before it sends, and
leaves the links of the list that the descriptor is on.  `habmem_export_vchan` clears
nothing: whether the pointers are set was decided by `habmem_add_export`, when
`pchan->mem_proto` may have been another.
-/

set_option linter.unusedSectionVars false

namespace Hab

variable {π : Type*} [DecidableEq π]

/-- Where the kernel has put what a descriptor can point to. -/
structure Placement (π : Type*) where
  vchan : ℕ → UInt64
  ctx : ℕ → UInt64
  pchan : π → UInt64
  /-- `&export->node`. -/
  node : ℕ → UInt64
  /-- `&ctx->exp_whse`. -/
  expWhse : ℕ → UInt64
  /-- `&hab_driver.reclaim_list`. -/
  reclaimList : UInt64
  /-- `&free_list`, on the stack of `reclaim_cleanup`. -/
  freeList : UInt64

/-- The rest of a descriptor, as `habmem_add_export_compress` has filled it in. -/
structure ExportContents where
  readonly : Int32
  vcidLocal : UInt32
  vcidRemote : UInt32
  domidLocal : Int32
  domidRemote : Int32
  payload : List UInt8
  payloadSize : UInt32
  /-- A buffer of less than 4 GiB has fewer than 2^20 pages, and no more regions. -/
  bounded : exportDescSize + payloadSize.toNat < 2 ^ 32

/-- `next` and `prev` of a node on a list with its head at `head`. -/
def neighbours (head : UInt64) (node : ℕ → UInt64) (list : List ℕ) (e : ℕ) : UInt64 × UInt64 :=
  let k := list.idxOf e
  (((list[k + 1]?).map node).getD head,
    if k = 0 then head else ((list[k - 1]?).map node).getD head)

/-- What `list_del` leaves in a node. -/
def listPoison : UInt64 × UInt64 := (0xdead000000000100, 0xdead000000000122)

/-- What the reclaim worker has moved to its own list. -/
def ExportStage.freeList : ExportStage π → List ℕ
  | .reclaiming freeList | .reclaimed _ freeList => freeList
  | _ => []

/-- The messages that carry a descriptor. -/
inductive ExportMessage (π : Type*) where
  | export (vchan : ExportVchan π) (e : ℕ)
  | importAck (vchan : ExportVchan π) (e : ℕ)

namespace ExportSystem

/-- `free_list`; there is one reclaim worker. -/
def freeList (s : ExportSystem π) : List ℕ :=
  (List.range s.calls.next).flatMap fun i ↦ ((s.calls.get i).map ExportStage.freeList).getD []

/-- The `list_head` in a descriptor.  `exp_whse` is the one of its exporter. -/
def links (s : ExportSystem π) (α : Placement π) (e : ℕ) : UInt64 × UInt64 :=
  let c := (s.vm.log e).exporter
  if e ∈ (s.vm.ctx c).expWhse then neighbours (α.expWhse c) α.node (s.vm.ctx c).expWhse e
  else if e ∈ s.vm.reclaimList then neighbours α.reclaimList α.node s.vm.reclaimList e
  else if e ∈ s.freeList then neighbours α.freeList α.node s.freeList e
  else if (s.vm.desc e).expState = .exporting then (0, 0)
  else listPoison

/-- The descriptor as it lies in memory.  `import_index`, `flags` and `kva` stay as
`vzalloc` has left them. -/
def raw (s : ExportSystem π) (contents : ℕ → ExportContents) (α : Placement π) (e : ℕ) :
    RawExportDesc where
  exportId := (s.vm.desc e).exportId
  readonly := (contents e).readonly
  importIndex := 0
  vchan := ((s.vm.desc e).vchan.map α.vchan).getD 0
  ctx := ((s.vm.desc e).ctx.map α.ctx).getD 0
  pchan := ((s.vm.desc e).pchan.map α.pchan).getD 0
  vcidLocal := (contents e).vcidLocal
  vcidRemote := (contents e).vcidRemote
  domidLocal := (contents e).domidLocal
  domidRemote := (contents e).domidRemote
  flags := 0
  nodeNext := (s.links α e).1
  nodePrev := (s.links α e).2
  kva := 0
  payloadCount := (s.vm.desc e).payloadCount.toInt32
  payload := (contents e).payload

/-- A message that the next lock section can send: EXPORT by `habmem_export_vchan` in the
legacy protocol, IMPORT_ACK in answer to an IMPORT. -/
def Sends (s : ExportSystem π) : ExportMessage π → Prop
  | .export vchan e =>
      s.vm.memProto vchan.pchan = false ∧ ∃ i, s.calls.get i = some (.granted vchan e)
  | .importAck vchan e =>
      ∃ v data, s.vchanAt v = some vchan ∧ s.vm.acknowledged vchan.pchan data = some e

/-- The payload that `physical_channel_send` puts on the wire. -/
def payload (s : ExportSystem π) (contents : ℕ → ExportContents) (α : Placement π) :
    ExportMessage π → List UInt8
  | .export _ e =>
      (s.raw contents α e).bytes.take (UInt32.ofNat exportDescSize + (contents e).payloadSize).toNat
  | .importAck _ e =>
      RawExportSuper.importAck
        { payloadSize := 0
          expState := (s.vm.desc e).expState
          remoteImported := true
          exp := s.raw contents α e }

/-- The descriptor has neighbours. -/
def OnList (s : ExportSystem π) (e : ℕ) : Prop :=
  (∃ c, e ∈ (s.vm.ctx c).expWhse) ∨ e ∈ s.vm.reclaimList ∨ e ∈ s.freeList

/-- The condition on a message: what is sent as EXPORT was also made under the legacy
protocol, and what is acknowledged is on no list. -/
def Clean (s : ExportSystem π) : ExportMessage π → Prop
  | .export _ e => (s.vm.log e).newProto = false
  | .importAck _ e => ¬ s.OnList e

end ExportSystem

/-! ## Links -/

/-- The kernel a cache line further up. -/
def Placement.shift (α : Placement π) : Placement π where
  vchan v := α.vchan v + 64
  ctx c := α.ctx c + 64
  pchan p := α.pchan p + 64
  node e := α.node e + 64
  expWhse c := α.expWhse c + 64
  reclaimList := α.reclaimList + 64
  freeList := α.freeList + 64

theorem getD_map_add (o : Option ℕ) (node : ℕ → UInt64) (head d : UInt64) :
    (o.map fun e ↦ node e + d).getD (head + d) = (o.map node).getD head + d := by
  cases o <;> rfl

theorem neighbours_shift (head d : UInt64) (node : ℕ → UInt64) (list : List ℕ) (e : ℕ) :
    (neighbours (head + d) (fun e ↦ node e + d) list e).1 = (neighbours head node list e).1 + d :=
  getD_map_add _ node head d

namespace ExportSystem

variable {s : ExportSystem π} {e : ℕ}

theorem mem_freeList {s : ExportSystem π} {e : ℕ} (h : e ∈ s.freeList) :
    ∃ i stage, s.calls.get i = some stage ∧ stage.handles e = true := by
  obtain ⟨i, -, he⟩ := List.mem_flatMap.mp h
  cases hget : s.calls.get i with
  | none =>
      rw [hget] at he
      cases he
  | some stage =>
      rw [hget] at he
      refine ⟨i, stage, hget, ?_⟩
      cases stage with
      | reclaiming freeList => exact decide_eq_true he
      | reclaimed e' freeList => exact decide_eq_true he
      | _ => cases he

theorem Released.of_onList (h : s.OnList e) : s.Released e := by
  rcases h with hc | hreclaim | hfree
  · exact Or.inl hc
  · exact Or.inr (Or.inl hreclaim)
  · exact Or.inr (Or.inr (mem_freeList hfree))

/-- Without neighbours, the links do not depend on where things are. -/
theorem links_of_not_onList (h : ¬ s.OnList e) (α β : Placement π) :
    s.links α e = s.links β e := by
  have hc : ∀ c, e ∉ (s.vm.ctx c).expWhse := fun c hc ↦ h (Or.inl ⟨c, hc⟩)
  have hreclaim : e ∉ s.vm.reclaimList := fun hr ↦ h (Or.inr (Or.inl hr))
  have hfree : e ∉ s.freeList := fun hf ↦ h (Or.inr (Or.inr hf))
  simp only [links, hc, hreclaim, hfree, if_false]

/-- With neighbours, they move with them. -/
theorem links_shift (hs : s.Private) (h : s.OnList e) (α : Placement π) :
    (s.links α.shift e).1 = (s.links α e).1 + 64 := by
  simp only [links]
  split
  · exact neighbours_shift _ _ _ _ _
  · rename_i hc
    split
    · exact neighbours_shift _ _ _ _ _
    · rename_i hreclaim
      split
      · exact neighbours_shift _ _ _ _ _
      · rename_i hfree
        rcases h with ⟨c, he⟩ | he | he
        · rw [hs.listed c e he] at hc
          exact absurd he hc
        · exact absurd he hreclaim
        · exact absurd he hfree

/-! ## Payloads -/

/-- Bytes that begin with a descriptor hold every field of it. -/
theorem fields_eq_of_take {d d' : RawExportDesc} {n : ℕ} (hn : payloadOffset ≤ n)
    (h : d.bytes.take n = d'.bytes.take n) : d.fields = d'.fields := by
  have hfields (x : RawExportDesc) : (x.bytes.take n).take payloadOffset =
      Bytes.layout x.fields := by
    rw [List.take_take, Nat.min_eq_left hn, RawExportDesc.bytes]
    exact List.take_left' (RawExportDesc.length_layout_fields _)
  have hlayout := congrArg (List.take payloadOffset) h
  rw [hfields d, hfields d'] at hlayout
  exact Bytes.layout_injective rfl (RawExportDesc.fields_lt _) (RawExportDesc.fields_lt _) hlayout

theorem nodeNext_of_importAck {d d' : RawExportDesc} {state state' : ExportState}
    (h : RawExportSuper.importAck ⟨0, state, true, d⟩ =
      RawExportSuper.importAck ⟨0, state', true, d'⟩) : d.nodeNext = d'.nodeNext := by
  have heq : RawExportDesc.fields { d with pchan := 0, vchan := 0, ctx := 0 } =
      RawExportDesc.fields { d' with pchan := 0, vchan := 0, ctx := 0 } :=
    fields_eq_of_take (n := exportDescSize) (by decide) h
  have hnext := congrArg (fun fields ↦ (fields[11]?).map Prod.snd) heq
  simpa [RawExportDesc.fields, UInt64.toNat_inj] using hnext

/-- An EXPORT holds the pointer to the vchan. -/
theorem vchan_of_export {contents : ExportContents} {d d' : RawExportDesc}
    (h : d.bytes.take (UInt32.ofNat exportDescSize + contents.payloadSize).toNat =
      d'.bytes.take (UInt32.ofNat exportDescSize + contents.payloadSize).toNat) :
    d.vchan = d'.vchan := by
  have hsize : payloadOffset ≤ (UInt32.ofNat exportDescSize + contents.payloadSize).toNat := by
    have hbounded := contents.bounded
    rw [UInt32.toNat_add, show (UInt32.ofNat exportDescSize).toNat = exportDescSize from rfl,
      Nat.mod_eq_of_lt hbounded]
    exact (show payloadOffset ≤ exportDescSize by decide).trans (Nat.le_add_right _ _)
  have hvchan := congrArg (fun fields ↦ (fields[3]?).map Prod.snd) (fields_eq_of_take hsize h)
  simpa [RawExportDesc.fields, UInt64.toNat_inj] using hvchan

/-- What a descriptor says once its pointers are gone depends on the links only. -/
theorem payload_of_links {contents : ℕ → ExportContents} {α β : Placement π}
    (h : s.links α e = s.links β e) (vchan : ExportVchan π) :
    s.payload contents α (.importAck vchan e) = s.payload contents β (.importAck vchan e) := by
  simp only [payload, RawExportSuper.importAck, raw, h]

/-- A descriptor that was made under the legacy protocol points nowhere while it is
sent. -/
theorem raw_of_fresh (hfresh : s.vm.Fresh e) (hlegacy : (s.vm.log e).newProto = false)
    (hprivate : ¬ s.OnList e) (contents : ℕ → ExportContents) (α β : Placement π) :
    s.raw contents α e = s.raw contents β e := by
  obtain ⟨hvchan, hctx, hpchan⟩ := hfresh.pointers hlegacy
  simp only [raw, hvchan, hctx, hpchan, Option.map_none, Option.getD_none,
    links_of_not_onList hprivate α β]

/-- A descriptor that was made under the new protocol points to its vchan. -/
theorem vchan_raw_shift (hfresh : s.vm.Fresh e) (hnew : (s.vm.log e).newProto = true)
    (contents : ℕ → ExportContents) (α : Placement π) :
    (s.raw contents α.shift e).vchan = (s.raw contents α e).vchan + 64 := by
  obtain ⟨v, hvchan⟩ := Option.ne_none_iff_exists'.mp (hfresh.vchan hnew)
  simp only [raw, hvchan, Option.map_some, Option.getD_some, Placement.shift]

/-- A message for an export is the same wherever the kernel has put things exactly if it
meets the condition. -/
theorem payload_eq_iff {memProto : π → Bool}
    (hs : Runs.Reachable step ⟨.start memProto, .empty⟩ s) {m : ExportMessage π}
    (hm : s.Sends m) (contents : ℕ → ExportContents) (α : Placement π) :
    (∀ β, s.payload contents β m = s.payload contents α m) ↔ s.Clean m := by
  have hs := private_of_reachable hs
  cases m with
  | «export» vchan e =>
      obtain ⟨-, i, hget⟩ := hm
      obtain ⟨hprivate, hfresh⟩ := hs.building i _ vchan.pchan e hget rfl
      have hlist : ¬ s.OnList e := fun hlist ↦ hprivate (Released.of_onList hlist)
      constructor
      · intro hsame
        by_contra hnew
        have hmoved := vchan_of_export (hsame α.shift)
        rw [vchan_raw_shift hfresh (by simpa [Clean] using hnew)] at hmoved
        simp at hmoved
      · intro hlegacy β
        simp only [payload, raw_of_fresh hfresh hlegacy hlist contents β α]
  | importAck vchan e =>
      constructor
      · intro hsame hlist
        have hnext := nodeNext_of_importAck (hsame α.shift)
        have hmoved : (s.links α e).1 + 64 = (s.links α e).1 :=
          (links_shift hs hlist α).symm.trans hnext
        simp at hmoved
      · intro hlist β
        exact payload_of_links (links_of_not_onList hlist β α) vchan

/-- One page table, whatever it says. -/
def plainContents (_ : ℕ) : ExportContents := ⟨0, 0, 0, 0, 0, [], 0, by decide⟩

/-- A context with a vchan that exports four pages: its id is in the table. -/
def addedExport : List (ExportAct Unit) :=
  [.ctxAlloc 0, .openVchan ⟨0, 0, ()⟩, .export 0 0 1 4, .advance 0 true]

/-- Everything at one address. -/
def allAt (a : UInt64) : Placement Unit :=
  ⟨fun _ ↦ a, fun _ ↦ a, fun _ ↦ a, fun _ ↦ a, fun _ ↦ a, a, a⟩

theorem payload_eq_iff_addedExport :
    ∃ s, Runs.exec step ⟨.start fun _ ↦ false, .empty⟩ addedExport = some s ∧
      ∀ β, s.payload plainContents β (.export ⟨0, 0, ()⟩ 0) =
        s.payload plainContents (allAt 0) (.export ⟨0, 0, ()⟩ 0) := by
  refine ⟨_, rfl, (payload_eq_iff (m := .export ⟨0, 0, ()⟩ 0) ⟨addedExport, rfl⟩ ?_
    plainContents _).mpr rfl⟩
  exact ⟨rfl, 0, rfl⟩

/-- The IMPORT_ACK for an export that is linked on `exp_whse` depends on where the head of
the list is; and so does, on where the vchan is, the EXPORT of a descriptor that was made
before another open has gone back to the legacy protocol. -/
theorem not_forall_payload_eq :
    (¬ ∀ (memProto : Unit → Bool) (s : ExportSystem Unit),
      Runs.Reachable step ⟨.start memProto, .empty⟩ s → ∀ vchan e, s.Sends (.importAck vchan e) →
        ∀ contents α β, s.payload contents α (.importAck vchan e) =
          s.payload contents β (.importAck vchan e)) ∧
    ¬ ∀ (memProto : Unit → Bool) (s : ExportSystem Unit),
      Runs.Reachable step ⟨.start memProto, .empty⟩ s → ∀ vchan e, s.Sends (.export vchan e) →
        ∀ contents α β, s.payload contents α (.export vchan e) =
          s.payload contents β (.export vchan e) := by
  constructor
  · intro h
    obtain ⟨s, hs⟩ : ∃ s : ExportSystem Unit, Runs.exec step ⟨.start fun _ ↦ true, .empty⟩
        (addedExport ++ [.advance 0 true, .advance 0 true]) = some s := ⟨_, rfl⟩
    have hsends : s.Sends (.importAck ⟨0, 0, ()⟩ 0) := by
      cases hs
      exact ⟨0, ⟨1, 4⟩, rfl, by decide⟩
    have hsame := h _ s ⟨_, hs⟩ _ _ hsends plainContents (allAt 0) (allAt 64)
    cases hs
    exact absurd hsame (by decide)
  · intro h
    obtain ⟨s, hs⟩ : ∃ s : ExportSystem Unit, Runs.exec step ⟨.start fun _ ↦ true, .empty⟩
        (addedExport ++ [.negotiate () false]) = some s := ⟨_, rfl⟩
    have hsends : s.Sends (.export ⟨0, 0, ()⟩ 0) := by
      cases hs
      exact ⟨rfl, 0, rfl⟩
    have hsame := h _ s ⟨_, hs⟩ _ _ hsends plainContents (allAt 0) (allAt 64)
    cases hs
    exact absurd hsame (by decide)

end ExportSystem

end Hab
