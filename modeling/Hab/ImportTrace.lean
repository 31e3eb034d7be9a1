import Hab.ImportSafety

/-!
# Imports and the answers to them (`hab_mimex.c`, `hab_msg.c`)

The answer to an IMPORT finds the call that waits for it by export id and vchan ids,
and comes whether that call still waits or not.  Here each descriptor and each entry
of `imp_rxq` is kept together with the request that has brought it about.  All pchans
are of the new protocol.
-/

namespace Hab

open Runs

/-- The ids of the answer to an import on a vchan. -/
def expectedAck (vchan : ImportVchan) (exportId : UInt32) : HabImportAck :=
  ⟨exportId, vchan.id, vchan.otherendId, false⟩

/-- The walk of `hab_import_ack_find` over a queue whose entries name the requests they
answer. -/
def ackScanTraced (expect : HabImportAck) :
    List (HabImportAckRecvd × ℕ) → Option (HabImportAck × ℕ) × List (HabImportAckRecvd × ℕ)
  | [] => (none, [])
  | (a, k) :: rest =>
      if a.ack.answers expect then (some (a.ack, k), rest)
      else
        let next := ackScanTraced expect rest
        (next.1,
          if a.age + 1 > qAgeThreshold then next.2 else ({ a with age := a.age + 1 }, k) :: next.2)

/-- The entries that the walk passes over. -/
def passedOver (expect : HabImportAck) (q : List HabImportAckRecvd) : List HabImportAckRecvd :=
  q.takeWhile fun a ↦ !a.ack.answers expect

namespace ImportStage

/-- The call waits for an answer with these ids. -/
def waitsFor (ack : HabImportAck) : ImportStage → Bool
  | .waiting vchan param => ack.answers (expectedAck vchan param.exportId)
  | _ => false

/-- A message is being handled that has not brought its entry in `imp_rxq` about yet. -/
def answering : ImportStage → Bool
  | .queueing _ _ _ | .rejected _ _ => true
  | _ => false

/-- The call may look for a descriptor of this key. -/
def seeks (key : UInt32 × HabPchan) : ImportStage → Bool
  | .acked vchan param scanImpWhse => scanImpWhse && (param.exportId, vchan.pchan) = key
  | .finding vchan param => (param.exportId, vchan.pchan) = key
  | _ => false

end ImportStage

/-- The importing side of a context, with what has become of its requests.  A request
goes by the number of its call of `hab_mem_import`.  Only the first field is in the
source. -/
structure ImportTrace where
  sys : ImportSystem
  request : ℕ → Option (ImportVchan × HabImport)
  /-- The other end may still answer. -/
  outstanding : ℕ → Bool
  /-- An IMPORT_ACK has arrived. -/
  importAck : ℕ → Bool
  /-- An UNIMPORT has been sent for the descriptor that came. -/
  unimport : ℕ → Bool
  /-- The call has returned 0. -/
  succeeded : ℕ → Bool
  /-- The request that the message answers which a call handles. -/
  answers : ℕ → ℕ
  /-- The request that has brought a descriptor about. -/
  producer : ℕ → ℕ
  /-- `imp_rxq`, each entry with the request it answers. -/
  impRxq : List (HabImportAckRecvd × ℕ)
  /-- The calls whose wait took an entry, with the request it answers. -/
  taken : List (ℕ × ℕ)
  /-- The vchans so far. -/
  named : List ℕ

/-- What may happen next. -/
inductive ImportTraceAct where
  /-- Anything but an answer to an IMPORT; `sent` is whether an UNIMPORT can be sent, if
  one is. -/
  | own (act : ImportAct) (sent : Bool)
  /-- The IMPORT_ACK to a request arrives. -/
  | importAck (k : ℕ) (msg : ExportMsg) (read allocDesc allocAck : Bool)
  /-- The IMPORT_ACK_FAIL to a request arrives. -/
  | importAckFail (k : ℕ) (exportId : UInt32) (alloc : Bool)
  /-- No answer to a request will come. -/
  | unanswered (k : ℕ)

namespace ImportTrace

/-- On a pchan of the new protocol descriptors come as answers only, and no vchan is given
the name of another. -/
def enabled (s : ImportTrace) : ImportAct → Bool
  | .recvExport _ _ _ _ _ | .recvImportAckFail _ _ _ => false
  | .openVchan vchan => !s.named.contains vchan.addr
  | _ => true

/-- What a step of a call means for the requests. -/
def noteAdvance (s : ImportTrace) (i : ℕ) (ok sent : Bool) : ImportStage → ImportTrace
  | .queueing _ ack _ => { s with impRxq := s.impRxq ++ [(⟨ack, 0⟩, s.answers i)] }
  | .rejected vchan e =>
      { s with
        impRxq := s.impRxq ++
          if ok then [(⟨expectedAck vchan (s.sys.vm.desc e).exportId, 0⟩, s.answers i)] else []
        unimport := Function.update s.unimport (s.answers i) (s.unimport (s.answers i) || sent) }
  | .waiting vchan param =>
      let scan := ackScanTraced (expectedAck vchan param.exportId) s.impRxq
      { s with
        impRxq := scan.2
        taken := s.taken ++ scan.1.toList.map fun ack ↦ (i, ack.2) }
  | .mapped _ _ => { s with succeeded := Function.update s.succeeded i true }
  | .undoing _ e =>
      { s with
        unimport := Function.update s.unimport (s.producer e)
          (s.unimport (s.producer e) || sent) }
  | _ => s

/-- What a step that leads to `next` means for the requests. -/
def note (s : ImportTrace) (sent : Bool) (next : ImportSystem) : ImportAct → ImportTrace
  | .import _ _ _ =>
      match next.calls.get s.sys.calls.next with
      | some (.waiting vchan param) =>
          { s with
            request := Function.update s.request s.sys.calls.next (some (vchan, param))
            outstanding := Function.update s.outstanding s.sys.calls.next true }
      | _ => s
  | .advance i ok =>
      match s.sys.calls.get i with
      | some stage => s.noteAdvance i ok sent stage
      | none => s
  | .openVchan vchan => { s with named := vchan.addr :: s.named }
  | _ => s

def run (s : ImportTrace) : ImportTraceAct → Option ImportTrace
  | .own act sent =>
      if s.enabled act then
        (s.sys.step act).map fun next ↦ { s.note sent next act with sys := next }
      else none
  | .importAck k msg read allocDesc allocAck =>
      match s.request k, s.outstanding k with
      | some (vchan, _), true =>
          let received := { s with
            outstanding := Function.update s.outstanding k false
            importAck := Function.update s.importAck k true }
          match s.sys.step (.recvExport vchan.addr msg read allocDesc allocAck) with
          -- there is no such vchan any more, and the message is dropped
          | none => some received
          | some next =>
              some
                { received with
                  sys := next
                  answers := Function.update s.answers s.sys.calls.next k
                  producer := Function.update s.producer s.sys.vm.nextDesc k }
      | _, _ => none
  | .importAckFail k exportId alloc =>
      match s.request k, s.outstanding k with
      | some (vchan, _), true =>
          let received := { s with outstanding := Function.update s.outstanding k false }
          match s.sys.recvVchan vchan.addr with
          | none => some received
          | some vchan =>
              some
                { received with
                  sys := { s.sys with vm := s.sys.vm.queueFail vchan exportId alloc }
                  impRxq := s.impRxq ++
                    if alloc then [(⟨expectedAck vchan exportId, 0⟩, k)] else [] }
      | _, _ => none
  | .unanswered k =>
      if s.outstanding k then
        some { s with outstanding := Function.update s.outstanding k false }
      else none

def start : ImportTrace where
  sys := .start fun _ ↦ true
  request := fun _ ↦ none
  outstanding := fun _ ↦ false
  importAck := fun _ ↦ false
  unimport := fun _ ↦ false
  succeeded := fun _ ↦ false
  answers := fun _ ↦ 0
  producer := fun _ ↦ 0
  impRxq := []
  taken := []
  named := []

/-! ## What is left of a request -/

/-- The `hab_mem_import` of the request has failed, and what was on its way for it has
been handled. -/
structure Settled (s : ImportTrace) (k : ℕ) : Prop where
  requested : s.request k ≠ none
  returned : s.sys.calls.get k = none
  failed : s.succeeded k = false
  arrived : s.outstanding k = false
  handled : ∀ i stage, s.sys.calls.get i = some stage → stage.answering = true → s.answers i ≠ k

/-- Nothing is left of the request. -/
structure Undone (s : ImportTrace) (k : ℕ) : Prop where
  impWhse : ∀ e ∈ s.sys.vm.impWhse, s.producer e ≠ k
  impRxq : ∀ a ∈ s.impRxq, a.2 ≠ k
  unimport : s.importAck k = true → s.unimport k = true

/-- Failed imports leave nothing behind, and imports are answered by their own acks. -/
structure LeavesNothing (s : ImportTrace) : Prop where
  undone : ∀ k, s.Settled k → s.Undone k
  own : ∀ entry ∈ s.taken, entry.1 = entry.2
  /-- The queue with the requests is the queue. -/
  queue : s.impRxq.map Prod.fst = s.sys.vm.impRxq

/-- The call waits for an answer with these ids. -/
def awaits (s : ImportTrace) (k : ℕ) (ack : HabImportAck) : Bool :=
  (s.sys.calls.get k).any (ImportStage.waitsFor ack)

/-- The condition on a step of a call. -/
def timelyAdvance (s : ImportTrace) (i : ℕ) (ok sent : Bool) : ImportStage → Bool
  -- what goes into the queue is waited for
  | .queueing _ ack _ => s.awaits (s.answers i) ack
  | .rejected vchan e =>
      sent && (!ok || s.awaits (s.answers i) (expectedAck vchan (s.sys.vm.desc e).exportId))
  -- no ack that came with a descriptor is dropped for its age
  | .waiting vchan param =>
      (passedOver (expectedAck vchan param.exportId) s.sys.vm.impRxq).all fun a ↦
        !a.ack.impWhseAdded || a.age < qAgeThreshold
  -- the other end has not closed before the ack that was taken is looked at
  | .acked vchan _ scanImpWhse => !scanImpWhse || !s.sys.vm.otherendClosed vchan.addr
  -- the UNIMPORT of a rollback can be sent
  | .undoing _ e => sent || (s.sys.vm.desc e).importState ≠ .init
  | _ => true

/-- The condition on a step. -/
def timely (s : ImportTrace) : ImportTraceAct → Bool
  | .own (.import v param sent) _ =>
      -- no two calls wait for answers with the same ids
      param.sizebytes.toNat % pageSize ≠ 0 || !sent ||
        (s.sys.vm.getVchan v false).all fun vchan ↦
          s.sys.calls.all fun stage ↦ !stage.waitsFor (expectedAck vchan param.exportId)
  | .own (.advance i ok) sent => (s.sys.calls.get i).all (s.timelyAdvance i ok sent)
  | .importAck k msg read allocDesc allocAck =>
      -- the descriptor is read and goes into the warehouse, or is rejected
      (s.request k).all fun request ↦
        (s.sys.recvVchan request.1.addr).any fun vchan ↦
          !msg.badSize && allocDesc && read &&
            (msg.malformed || !allocAck ||
              (s.sys.vm.habRbExpFind msg.exportId vchan.pchan).isNone)
  | .importAckFail k exportId alloc =>
      !alloc ||
        (s.request k).all fun request ↦
          (s.sys.recvVchan request.1.addr).all fun vchan ↦
            s.awaits k (expectedAck vchan exportId)
  | _ => true

end ImportTrace

/-! ## The walk over the queue -/

section Scan

variable {expect : HabImportAck} {q : List (HabImportAckRecvd × ℕ)}

/-- With the requests left out it is the walk over `imp_rxq`. -/
theorem ackScanTraced_fst (expect : HabImportAck) (q : List (HabImportAckRecvd × ℕ)) :
    (ackScanTraced expect q).1.map Prod.fst = (ImportVm.ackScan expect (q.map Prod.fst)).1 ∧
      (ackScanTraced expect q).2.map Prod.fst =
        (ImportVm.ackScan expect (q.map Prod.fst)).2 := by
  induction q with
  | nil => exact ⟨rfl, rfl⟩
  | cons a rest ih =>
      obtain ⟨a, k⟩ := a
      simp only [ackScanTraced, List.map_cons, ImportVm.ackScan]
      split
      · exact ⟨rfl, rfl⟩
      · refine ⟨ih.1, ?_⟩
        split
        · exact ih.2
        · rw [List.map_cons, ih.2]

/-- What the walk takes is in the queue and is the ack that is expected. -/
theorem mem_of_ackScanTraced {ack : HabImportAck} {k : ℕ}
    (h : (ackScanTraced expect q).1 = some (ack, k)) :
    ack.answers expect = true ∧ ∃ x, (x, k) ∈ q ∧ x.ack = ack := by
  induction q with
  | nil => cases h
  | cons a rest ih =>
      obtain ⟨a, j⟩ := a
      rw [ackScanTraced] at h
      split at h
      · rename_i ha
        cases h
        exact ⟨ha, a, List.mem_cons_self, rfl⟩
      · obtain ⟨hack, x, hx, heq⟩ := ih h
        exact ⟨hack, x, List.mem_cons_of_mem _ hx, heq⟩

theorem ackScanTraced_eq_none (h : (ackScanTraced expect q).1 = none) {x : HabImportAckRecvd}
    {k : ℕ} (hx : (x, k) ∈ q) : x.ack.answers expect = false := by
  induction q with
  | nil => cases hx
  | cons a rest ih =>
      obtain ⟨a, j⟩ := a
      rw [ackScanTraced] at h
      split at h
      · cases h
      · rename_i ha
        rcases List.mem_cons.mp hx with heq | hx
        · cases heq
          simpa using ha
        · exact ih h hx

/-- What the walk leaves was there before, if younger. -/
theorem mem_of_mem_ackScanTraced {y : HabImportAckRecvd} {k : ℕ}
    (h : (y, k) ∈ (ackScanTraced expect q).2) : ∃ x, (x, k) ∈ q ∧ x.ack = y.ack := by
  induction q with
  | nil => cases h
  | cons a rest ih =>
      obtain ⟨a, j⟩ := a
      have hrest : (y, k) ∈ (ackScanTraced expect rest).2 →
          ∃ x, (x, k) ∈ (a, j) :: rest ∧ x.ack = y.ack := by
        intro hy
        obtain ⟨x, hx, heq⟩ := ih hy
        exact ⟨x, List.mem_cons_of_mem _ hx, heq⟩
      rw [ackScanTraced] at h
      split at h
      · exact ⟨y, List.mem_cons_of_mem _ h, rfl⟩
      · simp only at h
        split at h
        · exact hrest h
        · rcases List.mem_cons.mp h with heq | hy
          · cases heq
            exact ⟨a, List.mem_cons_self, rfl⟩
          · exact hrest hy

theorem mem_snd_of_ackScanTraced {k : ℕ}
    (h : k ∈ (ackScanTraced expect q).2.map Prod.snd) : k ∈ q.map Prod.snd := by
  obtain ⟨⟨y, k⟩, hy, rfl⟩ := List.mem_map.mp h
  obtain ⟨x, hx, -⟩ := mem_of_mem_ackScanTraced hy
  exact List.mem_map.mpr ⟨(x, k), hx, rfl⟩

/-- A request has at most one entry, which is taken or left. -/
theorem nodup_ackScanTraced (h : (q.map Prod.snd).Nodup) :
    ((ackScanTraced expect q).2.map Prod.snd).Nodup ∧
      ∀ ack k, (ackScanTraced expect q).1 = some (ack, k) →
        k ∉ (ackScanTraced expect q).2.map Prod.snd := by
  induction q with
  | nil => exact ⟨List.nodup_nil, fun _ _ hnone ↦ by cases hnone⟩
  | cons a rest ih =>
      obtain ⟨a, j⟩ := a
      rw [List.map_cons, List.nodup_cons] at h
      obtain ⟨hj, hrest⟩ := h
      rw [ackScanTraced]
      split
      · refine ⟨hrest, ?_⟩
        rintro ack k ⟨⟩
        exact hj
      · obtain ⟨hnodup, htaken⟩ := ih hrest
        simp only
        split
        · exact ⟨hnodup, htaken⟩
        · refine ⟨?_, ?_⟩
          · rw [List.map_cons, List.nodup_cons]
            exact ⟨fun hmem ↦ hj (mem_snd_of_ackScanTraced hmem), hnodup⟩
          · intro ack k hack hmem
            rw [List.map_cons, List.mem_cons] at hmem
            rcases hmem with hkj | hmem
            · obtain ⟨-, x, hx, -⟩ := mem_of_ackScanTraced hack
              exact hj (List.mem_map.mpr ⟨(x, k), hx, hkj⟩)
            · exact htaken ack k hack hmem

/-- An ack that came with a descriptor is taken or left, unless it is passed over once too
often. -/
theorem mem_ackScanTraced {x : HabImportAckRecvd} {k : ℕ} (hx : (x, k) ∈ q)
    (hadded : x.ack.impWhseAdded = true)
    (hyoung : (passedOver expect (q.map Prod.fst)).all (fun a ↦
      !a.ack.impWhseAdded || a.age < qAgeThreshold) = true) :
    (ackScanTraced expect q).1 = some (x.ack, k) ∨
      ∃ y, (y, k) ∈ (ackScanTraced expect q).2 ∧ y.ack = x.ack := by
  induction q with
  | nil => cases hx
  | cons a rest ih =>
      obtain ⟨a, j⟩ := a
      rw [ackScanTraced]
      split
      · rcases List.mem_cons.mp hx with heq | hx
        · cases heq
          exact .inl rfl
        · exact .inr ⟨x, hx, rfl⟩
      · rename_i ha
        simp only [passedOver, List.map_cons, List.takeWhile_cons, ha, Bool.not_false, if_true,
          List.all_cons, Bool.and_eq_true] at hyoung
        simp only
        rcases List.mem_cons.mp hx with heq | hx
        · cases heq
          have hage : x.age < qAgeThreshold := by simpa [hadded] using hyoung.1
          rw [if_neg (by omega)]
          exact .inr ⟨_, List.mem_cons_self, rfl⟩
        · rcases ih hx hyoung.2 with htaken | ⟨y, hy, heq⟩
          · exact .inl htaken
          · refine .inr ⟨y, ?_, heq⟩
            split
            · exact hy
            · exact List.mem_cons_of_mem _ hy

end Scan

end Hab
