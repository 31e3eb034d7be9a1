import Hab.Frame
import Hab.Library.Pool
import Hab.Library.Runs

/-!
# Waiting for an EXPORT_ACK

By the legacy protocol an exporter waits until the ack for its export is in `exp_rxq`.
The vchans of a context share this queue, and every waiter walks over all of it.
-/

namespace Hab

structure HabExportAck where
  exportId : UInt32
  vcidLocal : UInt32
  vcidRemote : UInt32
deriving DecidableEq

structure HabExportAckRecvd where
  ack : HabExportAck
  age : ℤ
deriving DecidableEq

/-- What `hab_export_ack_find` returns, what it leaves in the queue and what it frees. -/
structure AckFind where
  ret : Bool
  rxq : List HabExportAckRecvd
  freed : List HabExportAckRecvd
deriving DecidableEq

def habExportAckFind (expect : HabExportAck) (otherendClosed : Bool) :
    List HabExportAckRecvd → AckFind
  | [] => ⟨false, [], []⟩
  | a :: rest =>
      if a.ack = expect ∨ otherendClosed then ⟨true, rest, [a]⟩
      else
        let next := habExportAckFind expect otherendClosed rest
        let a := { a with age := a.age + 1 }
        if a.age > qAgeThreshold then { next with freed := a :: next.freed }
        else { next with rxq := a :: next.rxq }

/-- A call of `hab_export_ack_find`, and how its vchan stood. -/
structure AckScan where
  expect : HabExportAck
  otherendClosed : Bool
  find : AckFind

/-- What is claimed of a call: it takes nothing but its own ack or an aged one, and it
reports completion if its vchan is remotely closed. -/
structure AckScan.Right (scan : AckScan) : Prop where
  own : ∀ a ∈ scan.find.freed, a.ack = scan.expect ∨ qAgeThreshold < a.age
  completes : scan.otherendClosed = true → scan.find.ret = true

/-- A thread in `hab_export_ack_wait`, on a vchan. -/
structure AckWaiter where
  vchan : ℕ
  expect : HabExportAck
  found : Bool
deriving DecidableEq

/-- The acks of one context and the threads that wait for them. -/
structure ExportAcks where
  expRxq : List HabExportAckRecvd
  otherendClosed : ℕ → Bool
  waiting : Pool AckWaiter
  /-- What the waits have returned. -/
  returns : List (Option Errno)
  scans : List AckScan

inductive AckAct where
  /-- `hab_export_ack_wait`. -/
  | wait (vchan : ℕ) (expect : HabExportAck)
  /-- A waiter looks at the queue. -/
  | find (i : ℕ)
  /-- Its time is up, or a signal comes. -/
  | giveUp (i : ℕ)
  /-- It returns after it was told of completion. -/
  | finish (i : ℕ)
  /-- An EXPORT_ACK arrives; `read` says whether all of it can be read. -/
  | receive (vchan : ℕ) (ack : HabExportAck) (sizebytes : ℕ) (alloc read : Bool)
  /-- The vchan is closed by the other end. -/
  | stop (vchan : ℕ)

namespace ExportAcks

def habReceiveCreateExportAck (s : ExportAcks) (ack : HabExportAck) (sizebytes : ℕ)
    (alloc read : Bool) : Option Errno × ExportAcks :=
  if !alloc then (some .enomem, s)
  else if exportAckSize < sizebytes then (some .einval, s)
  else if !read then (some .eio, s)
  else if sizebytes = exportAckSize then (none, { s with expRxq := s.expRxq ++ [⟨ack, 0⟩] })
  else (some .einval, s)

/-- A waiter evaluates the condition of its wait. -/
def look (s : ExportAcks) (i : ℕ) (w : AckWaiter) : ExportAcks :=
  let find := habExportAckFind w.expect (s.otherendClosed w.vchan) s.expRxq
  { s with
    expRxq := find.rxq
    waiting := s.waiting.set i (some { w with found := find.ret })
    scans := s.scans ++ [⟨w.expect, s.otherendClosed w.vchan, find⟩] }

def step (s : ExportAcks) : AckAct → Option ExportAcks
  | .wait vchan expect => some { s with waiting := s.waiting.spawn ⟨vchan, expect, false⟩ }
  | .find i =>
      match s.waiting.get i with
      | none => none
      | some w => if w.found then none else some (s.look i w)
  | .giveUp i =>
      match s.waiting.get i with
      | none => none
      | some w =>
          if w.found then none
          else
            some { s with
              waiting := s.waiting.set i none
              returns := s.returns ++ [some .eagain] }
  | .finish i =>
      match s.waiting.get i with
      | none => none
      | some w =>
          if w.found then
            some { s with
              waiting := s.waiting.set i none
              returns := s.returns ++ [if s.otherendClosed w.vchan then some .enodev else none] }
          else none
  | .receive vchan ack sizebytes alloc read =>
      if s.otherendClosed vchan then none
      else some (s.habReceiveCreateExportAck ack sizebytes alloc read).2
  | .stop vchan =>
      some { s with otherendClosed := Function.update s.otherendClosed vchan true }

def start : ExportAcks := ⟨[], fun _ ↦ false, .empty, [], []⟩

/-- A waiter on a vchan that is remotely closed finds its own ack at the head of the
queue. -/
def Undisturbed (s : ExportAcks) : AckAct → Prop
  | .find i =>
      ∀ w, s.waiting.get i = some w → s.otherendClosed w.vchan = true →
        (s.expRxq.head?.map HabExportAckRecvd.ack) = some w.expect
  | _ => True

end ExportAcks

/-! ## One scan -/

variable {expect : HabExportAck} {otherendClosed : Bool} {rxq : List HabExportAckRecvd}

/-- What is left in the queue has not aged out. -/
theorem age_le_of_mem_rxq (hage : ∀ a ∈ rxq, a.age ≤ qAgeThreshold) :
    ∀ a ∈ (habExportAckFind expect otherendClosed rxq).rxq, a.age ≤ qAgeThreshold := by
  induction rxq with
  | nil =>
      intro a ha
      cases ha
  | cons b rest ih =>
      have hrest : ∀ a ∈ rest, a.age ≤ qAgeThreshold := by
        intro a ha
        exact hage a (List.mem_cons_of_mem b ha)
      rw [habExportAckFind]
      split
      · exact hrest
      · intro a ha
        dsimp only at ha
        split at ha
        · exact ih hrest a ha
        next hfresh =>
          rcases List.mem_cons.mp ha with rfl | ha
          · exact Int.not_lt.mp hfresh
          · exact ih hrest a ha

/-- On an open vchan the scan takes its own ack, or aged ones. -/
theorem freed_of_open : ∀ a ∈ (habExportAckFind expect false rxq).freed,
    a.ack = expect ∨ qAgeThreshold < a.age := by
  induction rxq with
  | nil =>
      intro a ha
      cases ha
  | cons b rest ih =>
      rw [habExportAckFind]
      split
      next hmatch =>
        intro a ha
        rw [List.mem_singleton.mp ha]
        left
        simpa using hmatch
      next =>
        intro a ha
        dsimp only at ha
        split at ha
        next haged =>
          rcases List.mem_cons.mp ha with rfl | ha
          · exact .inr haged
          · exact ih a ha
        next => exact ih a ha

/-- On a closed vchan it takes what is at the head, whose ever it is. -/
theorem habExportAckFind_closed :
    habExportAckFind expect true rxq = ⟨!rxq.isEmpty, rxq.tail, rxq.head?.toList⟩ := by
  cases rxq with
  | nil => rfl
  | cons a rest => rw [habExportAckFind, if_pos (.inr rfl)]; rfl

/-- A scan is right exactly if the vchan is open, or its own ack is at the head. -/
theorem right_iff (hage : ∀ a ∈ rxq, a.age ≤ qAgeThreshold) :
    AckScan.Right ⟨expect, otherendClosed, habExportAckFind expect otherendClosed rxq⟩ ↔
      (otherendClosed = true → rxq.head?.map HabExportAckRecvd.ack = some expect) := by
  cases otherendClosed with
  | false => exact iff_of_true ⟨freed_of_open, by simp⟩ (by simp)
  | true =>
      rw [habExportAckFind_closed]
      cases rxq with
      | nil =>
          refine iff_of_false ?_ (by simp)
          intro hright
          exact absurd (hright.completes rfl) (by simp)
      | cons a rest =>
          have hle := hage a List.mem_cons_self
          constructor
          · intro hright _
            rcases hright.own a (List.mem_singleton_self a) with hmatch | haged
            · exact congrArg some hmatch
            · exact absurd hle (Int.not_le.mpr haged)
          · intro hhead
            have hmatch : a.ack = expect := Option.some.inj (hhead rfl)
            refine ⟨?_, fun _ ↦ rfl⟩
            intro b hb
            rw [List.mem_singleton.mp hb]
            exact .inl hmatch

/-! ## Runs -/

namespace ExportAcks

variable {s t : ExportAcks}

/-- No ack in the queue has aged out. -/
def Fresh (s : ExportAcks) : Prop := ∀ a ∈ s.expRxq, a.age ≤ qAgeThreshold

theorem Fresh.receive (h : s.Fresh) (ack : HabExportAck) (sizebytes : ℕ) (alloc read : Bool) :
    (s.habReceiveCreateExportAck ack sizebytes alloc read).2.Fresh := by
  rw [habReceiveCreateExportAck]
  split_ifs <;> try exact h
  intro a ha
  rcases List.mem_append.mp ha with ha | ha
  · exact h a ha
  · rw [List.mem_singleton.mp ha]
    exact Int.natCast_nonneg 1000000

theorem Fresh.step (h : s.Fresh) {act : AckAct} (hstep : s.step act = some t) : t.Fresh := by
  cases act with
  | wait vchan expect =>
      cases hstep
      exact h
  | find i =>
      rw [ExportAcks.step] at hstep
      split at hstep
      next => cases hstep
      next w hw =>
        split at hstep <;> cases hstep
        exact age_le_of_mem_rxq h
  | giveUp i =>
      rw [ExportAcks.step] at hstep
      split at hstep
      next => cases hstep
      next w hw =>
        split at hstep <;> cases hstep
        exact h
  | finish i =>
      rw [ExportAcks.step] at hstep
      split at hstep
      next => cases hstep
      next w hw =>
        split at hstep <;> cases hstep
        exact h
  | receive vchan ack sizebytes alloc read =>
      rw [ExportAcks.step] at hstep
      split at hstep <;> cases hstep
      exact h.receive ack sizebytes alloc read
  | stop vchan =>
      cases hstep
      exact h

theorem scans_habReceiveCreateExportAck (ack : HabExportAck) (sizebytes : ℕ) (alloc read : Bool) :
    (s.habReceiveCreateExportAck ack sizebytes alloc read).2.scans = s.scans := by
  rw [habReceiveCreateExportAck]
  split_ifs <;> rfl

/-- All scans were right exactly if they were before and the step disturbs none. -/
theorem right_step (hfresh : s.Fresh) {act : AckAct} (hstep : s.step act = some t) :
    (∀ scan ∈ t.scans, scan.Right) ↔ s.Undisturbed act ∧ ∀ scan ∈ s.scans, scan.Right := by
  have hsame : t.scans = s.scans → s.Undisturbed act →
      ((∀ scan ∈ t.scans, scan.Right) ↔
        s.Undisturbed act ∧ ∀ scan ∈ s.scans, scan.Right) := by
    intro hscans hguard
    rw [hscans]
    exact (and_iff_right hguard).symm
  cases act with
  | wait vchan expect =>
      cases hstep
      exact hsame rfl trivial
  | find i =>
      rw [ExportAcks.step] at hstep
      split at hstep
      next => cases hstep
      next w hw =>
        split at hstep <;> cases hstep
        have hscan : (∀ scan ∈ (s.look i w).scans, scan.Right) ↔ _ :=
          List.forall_mem_append
        rw [hscan, List.forall_mem_singleton, right_iff hfresh, and_comm]
        refine and_congr_left fun _ ↦ ?_
        simp only [Undisturbed, hw, Option.some.injEq, forall_eq']
  | giveUp i | finish i =>
      rw [ExportAcks.step] at hstep
      split at hstep
      next => cases hstep
      next w hw =>
        split at hstep <;> cases hstep
        exact hsame rfl trivial
  | receive vchan ack sizebytes alloc read =>
      rw [ExportAcks.step] at hstep
      split at hstep <;> cases hstep
      exact hsame (scans_habReceiveCreateExportAck _ _ _ _) trivial
  | stop vchan =>
      cases hstep
      exact hsame rfl trivial

/-- The waiters leave each other's acks alone and learn of the close of their vchan exactly
in the runs in which no waiter on a closed vchan looks at the queue unless its own ack is
at the head. -/
theorem right_iff_of_exec {acts : List AckAct} (hrun : Runs.exec step start acts = some s) :
    (∀ scan ∈ s.scans, scan.Right) ↔ Runs.Meets step Undisturbed start acts := by
  have hstart : start.Fresh := by
    intro a ha
    cases ha
  refine Runs.iff_meets_of_exec (J := Fresh) (I := fun u ↦ ∀ scan ∈ u.scans, scan.Right)
    ?_ ?_ hstart ?_ hrun
  · intro u act v hu huv
    exact hu.step huv
  · intro u act v hu huv
    exact right_step hu huv
  · intro scan hscan
    cases hscan

/-- Two vchans of a context export; the ack of each comes, and both find it. -/
def bothFound : List AckAct :=
  [.wait 0 ⟨1, 1, 1⟩, .wait 1 ⟨2, 2, 2⟩, .receive 1 ⟨2, 2, 2⟩ 12 true true, .find 0,
    .receive 0 ⟨1, 1, 1⟩ 12 true true, .find 0, .find 1, .finish 0, .finish 1]

theorem right_iff_of_exec_bothFound :
    ∃ s, Runs.exec step start bothFound = some s ∧ s.returns = [none, none] ∧
      ∀ scan ∈ s.scans, scan.Right := by
  have hseen : (Runs.exec step start bothFound).map (fun s ↦ s.returns) =
      some [none, none] := by
    decide
  obtain ⟨s, hrun, hreturns⟩ := Option.map_eq_some_iff.mp hseen
  refine ⟨s, hrun, hreturns, (right_iff_of_exec hrun).mpr ?_⟩
  refine ⟨trivial, trivial, trivial, ?_, trivial, ?_, ?_, trivial, trivial, trivial⟩ <;>
    · intro w _ hclosed
      cases hclosed

/-- A waiter on a closed vchan takes the ack of another vchan. -/
def closedTakes : List AckAct :=
  [.wait 0 ⟨1, 1, 1⟩, .wait 1 ⟨2, 2, 2⟩, .receive 1 ⟨2, 2, 2⟩ 12 true true, .stop 0, .find 0]

theorem not_right :
    ¬ ∀ acts s, Runs.exec step start acts = some s → ∀ scan ∈ s.scans, scan.Right := by
  have hseen : (Runs.exec step start closedTakes).map (fun s ↦
      s.scans.map fun scan ↦ (scan.expect, scan.find.freed)) =
        some [(⟨1, 1, 1⟩, [⟨⟨2, 2, 2⟩, 0⟩])] := by
    decide
  obtain ⟨s, hrun, hscans⟩ := Option.map_eq_some_iff.mp hseen
  intro h
  obtain ⟨scan, hscan, hfields⟩ := List.map_eq_singleton_iff.mp hscans
  rw [Prod.mk.injEq] at hfields
  have hown := (h closedTakes s hrun scan (hscan ▸ List.mem_singleton_self scan)).own
    ⟨⟨2, 2, 2⟩, 0⟩
  rw [hfields.1, hfields.2] at hown
  exact absurd (hown (List.mem_singleton_self _)) (by decide)

end ExportAcks

end Hab
