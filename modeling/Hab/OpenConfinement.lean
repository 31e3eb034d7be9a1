import Hab.Library.Runs
import Hab.Open

/-!
# Which opens a received cancel touches

The queue of a device mixes the requests of all VMs.  A cancel is confined to
its pchan when it leaves the requests of every other pchan in place and every
open of another VM gets the answers it would have got without the cancel, also
where a local listener takes an INIT of any VM.  That is so exactly when the
cancel removes a request and that came in on its own pchan, or when it cannot be
queued for those who wait.
-/

namespace Hab

open Runs

variable {π : Type*} [DecidableEq π]

/-- The requests that came in on the other pchans, in their order. -/
def HabDevice.others (dev : HabDevice π) (p : π) : List (HabOpenNode π) :=
  dev.openqList.filter (fun node ↦ node.request.pchan ≠ p)

/-- What happens in an open of another VM than the one behind `p`: a request of
that VM arrives, or a local wait bound to that VM looks for one. -/
inductive OtherOpenCall (p : π) where
  | add (q : { q // q ≠ p }) (requestType : HabPayloadType) (alloc : Bool)
      (read : Option HabOpenSendData) (now : ℤ)
  | find (q : { q // q ≠ p }) (env : FindEnv π) (listen : HabOpenRequest Unit)

/-- What such a call returns: its return value and the request it got. -/
inductive OtherOpenAnswer (π : Type*) where
  | added (ret : Option Errno)
  | found (ret : Bool) (recvRequest : Option (HabOpenNode π))
deriving DecidableEq

/-- The listen request bound to a pchan. -/
def HabOpenRequest.bindTo (listen : HabOpenRequest Unit) (q : π) : HabOpenRequest (Option π) :=
  { listen with pchan := some q }

namespace OtherOpenCall

variable {p : π}

def run (dev : HabDevice π) : OtherOpenCall p → OtherOpenAnswer π × HabDevice π
  | .add q requestType alloc read now =>
      let (ret, dev) := habOpenRequestAdd dev q requestType alloc read now
      (.added ret, dev)
  | .find q env listen =>
      let ((ret, recvRequest), dev) := habOpenRequestFind env (listen.bindTo q.val) dev
      (.found ret recvRequest, dev)

/-- A wait bound to another pchan sees the requests of the others only. -/
theorem others_scan (dev : HabDevice π) (q : { q // q ≠ p }) (listen : HabOpenRequest Unit)
    (now : ℤ) :
    (Scan.scan (fun node ↦ node.request.answers (listen.bindTo q.val))
        (fun node ↦ node.age < now) (dev.others p)).taken =
          (dev.scan (listen.bindTo q.val) now).taken ∧
      (Scan.scan (fun node ↦ node.request.answers (listen.bindTo q.val))
        (fun node ↦ node.age < now) (dev.others p)).kept =
          (dev.afterScan (listen.bindTo q.val) now).others p := by
  simp only [HabDevice.others, HabDevice.openqList_afterScan]
  apply Scan.scan_filter
  intro node hhit
  simp only [HabOpenRequest.answers, HabOpenRequest.bindTo, Bool.and_eq_true, Bool.or_eq_true,
    decide_eq_true_eq, reduceCtorEq, false_or, Option.some.injEq] at hhit
  obtain ⟨-, hq⟩ := hhit
  simp only [ne_eq, decide_not, Bool.not_eq_true', decide_eq_false_iff_not]
  rw [← hq]
  exact q.property

theorem answer_of_others {dev dev' : HabDevice π} (h : dev.others p = dev'.others p)
    (call : OtherOpenCall p) : (run dev call).1 = (run dev' call).1 := by
  cases call with
  | add q requestType alloc read now =>
      cases alloc <;> cases read <;> rfl
  | find q env listen =>
      have htaken : (dev.scan (listen.bindTo q.val) env.now).taken =
          (dev'.scan (listen.bindTo q.val) env.now).taken := by
        rw [← (others_scan dev q listen env.now).1, h, (others_scan dev' q listen env.now).1]
      simp only [run, habOpenRequestFind]
      split
      · rfl
      · rw [htaken]

theorem others_of_others {dev dev' : HabDevice π} (h : dev.others p = dev'.others p)
    (call : OtherOpenCall p) : (run dev call).2.others p = (run dev' call).2.others p := by
  cases call with
  | add q requestType alloc read now =>
      cases alloc with
      | false => exact h
      | true =>
          cases read with
          | none => exact h
          | some xdata =>
              simp only [HabDevice.others] at h
              simp only [run, habOpenRequestAdd, if_true, HabDevice.others,
                HabDevice.openqList_enqueue, HabDevice.openqList_pchanGet, List.filter_append]
              rw [h]
  | find q env listen =>
      simp only [run, habOpenRequestFind]
      split
      · exact h
      · rw [← (others_scan dev q listen env.now).2, h, (others_scan dev' q listen env.now).2]

end OtherOpenCall

/-- What the first wait of a `backend_listen` looks for: an INIT of any pchan. -/
def anyInit (subId : UInt32) : HabOpenRequest (Option π) :=
  habOpenRequestInit ⟨.msg, none, ⟨0, 0, 0, 0, 0, 0⟩⟩ .init none 0 subId 0

/-- What happens to the requests of the other VMs than the one behind `p`: something in an
open of theirs, or the first wait of a `backend_listen`. -/
inductive DeviceCall (p : π) where
  | other (call : OtherOpenCall p)
  | listen (env : FindEnv π) (subId : UInt32)

/-- What the other VMs notice of such a call: its answer, or their request that it took. -/
inductive DeviceAnswer (π : Type*) where
  | other (answer : OtherOpenAnswer π)
  | heard (recvRequest : Option (HabOpenNode π))
deriving DecidableEq

/-- The device without the request of `p` that a cancel of `p` withdraws. -/
def HabDevice.withdrawn (dev : HabDevice π) (p : π) (read : Option HabOpenSendData) :
    HabDevice π :=
  match read with
  | none => dev
  | some data =>
      { dev with
        openqList := dev.openqList.eraseP
          (fun node ↦ node.request.pchan = p && node.request.cancelledBy data) }

namespace DeviceCall

variable {p : π}

def run (dev : HabDevice π) : DeviceCall p → DeviceAnswer π × HabDevice π
  | .other call =>
      let (answer, dev) := call.run dev
      (.other answer, dev)
  | .listen env subId =>
      let ((_, recvRequest), dev) := habOpenRequestFind env (anyInit subId) dev
      (.heard (recvRequest.filter fun node ↦ node.request.pchan ≠ p), dev)

theorem answer_of_queue {dev dev' : HabDevice π} (h : dev.openqList = dev'.openqList)
    (call : DeviceCall p) : (run dev call).1 = (run dev' call).1 := by
  cases call with
  | other call =>
      have hothers : dev.others p = dev'.others p := by rw [HabDevice.others, h, HabDevice.others]
      exact congrArg DeviceAnswer.other (OtherOpenCall.answer_of_others hothers call)
  | listen env subId =>
      simp only [run, habOpenRequestFind, HabDevice.scan, h]
      split <;> rfl

theorem queue_of_queue {dev dev' : HabDevice π} (h : dev.openqList = dev'.openqList)
    (call : DeviceCall p) : (run dev call).2.openqList = (run dev' call).2.openqList := by
  have hfind : ∀ (env : FindEnv π) (listen : HabOpenRequest (Option π)),
      (habOpenRequestFind env listen dev).2.openqList =
        (habOpenRequestFind env listen dev').2.openqList := by
    intro env listen
    simp only [habOpenRequestFind]
    split
    · exact h
    · rw [HabDevice.openqList_afterScan, HabDevice.openqList_afterScan, HabDevice.scan, h,
        HabDevice.scan]
  cases call with
  | other call =>
      cases call with
      | add q requestType alloc read now =>
          cases alloc <;> cases read <;> simp [run, OtherOpenCall.run, habOpenRequestAdd, h]
      | find q env listen => exact hfind env _
  | listen env subId => exact hfind env _

/-- Devices with the same queue cannot be told apart. -/
theorem answers_of_queue {dev dev' : HabDevice π} (h : dev.openqList = dev'.openqList)
    (calls : List (DeviceCall p)) : (answers run dev calls).1 = (answers run dev' calls).1 :=
  (answers_eq_of_view (fun _ _ call h ↦ answer_of_queue h call)
    (fun _ _ call h ↦ queue_of_queue h call) h calls).1

/-- Where there are no other VMs, nothing is noticed. -/
theorem answer_of_alone (halone : ∀ q, q = p) (dev dev' : HabDevice π) (call : DeviceCall p) :
    (run dev call).1 = (run dev' call).1 := by
  have hheard : ∀ recvRequest : Option (HabOpenNode π),
      recvRequest.filter (fun node ↦ node.request.pchan ≠ p) = none := by
    intro recvRequest
    cases recvRequest with
    | none => rfl
    | some node => simp [Option.filter, halone node.request.pchan]
  cases call with
  | other call =>
      cases call with
      | add q requestType alloc read now => exact absurd (halone q.val) q.property
      | find q env listen => exact absurd (halone q.val) q.property
  | listen env subId => exact congrArg DeviceAnswer.heard ((hheard _).trans (hheard _).symm)

theorem answers_of_alone (halone : ∀ q, q = p) (dev dev' : HabDevice π)
    (calls : List (DeviceCall p)) : (answers run dev calls).1 = (answers run dev' calls).1 := by
  induction calls generalizing dev dev' with
  | nil => rfl
  | cons call calls ih =>
      simp only [answers]
      rw [answer_of_alone halone dev dev' call, ih _ (run dev' call).2]

/-- The answer of a first wait, and what it leaves. -/
theorem run_listen (dev : HabDevice π) (forbidden : Bool) (now : ℤ) (subId : UInt32) :
    run (p := p) dev (.listen ⟨false, fun _ ↦ false, forbidden, now⟩ subId) =
      (.heard ((dev.openqList.find? fun node ↦ node.request.answers (anyInit subId)).filter
          fun node ↦ node.request.pchan ≠ p),
        dev.afterScan (anyInit subId) now) := by
  have hpchan : (anyInit subId : HabOpenRequest (Option π)).pchan = none := rfl
  simp [run, habOpenRequestFind, hpchan, HabDevice.scan, Scan.taken_eq_find?]

/-- An INIT_CANCEL of `p` at the end of the queue comes between another VM and a listener,
when the listeners have taken what is in front of it. -/
theorem exists_answers_ne {q : π} (hq : q ≠ p) {cancel : HabOpenNode π}
    (htype : cancel.request.type = .initCancel) (hpchan : cancel.request.pchan = p) :
    ∀ dev dev' : HabDevice π, dev.openqList = dev'.openqList ++ [cancel] →
      ∃ calls : List (DeviceCall p), (answers run dev calls).1 ≠ (answers run dev' calls).1 := by
  have hsub : cancel.request.answers (anyInit cancel.request.xdata.subId) = true := by
    simp [HabOpenRequest.answers, anyInit, habOpenRequestInit, htype]
  intro dev dev'
  induction hlen : dev'.openqList.length using Nat.strongRecOn generalizing dev dev' with
  | ind n ih =>
      subst hlen
      intro hqueue
      cases hfirst : dev'.openqList.find? fun node ↦
          node.request.answers (anyInit cancel.request.xdata.subId) with
      | some node =>
          -- both listeners take the same request
          have hleft : (dev.afterScan (anyInit cancel.request.xdata.subId) 0).openqList =
              (dev'.afterScan (anyInit cancel.request.xdata.subId) 0).openqList ++ [cancel] := by
            rw [HabDevice.openqList_afterScan, HabDevice.openqList_afterScan, HabDevice.scan,
              hqueue, HabDevice.scan]
            exact Scan.kept_append hfirst [cancel]
          have hless : (dev'.afterScan (anyInit cancel.request.xdata.subId) 0).openqList.length <
              dev'.openqList.length := by
            rw [HabDevice.openqList_afterScan, HabDevice.scan]
            exact Scan.length_kept_lt hfirst
          obtain ⟨calls, hne⟩ := ih _ hless _ _ rfl hleft
          refine ⟨.listen ⟨false, fun _ ↦ false, false, 0⟩ cancel.request.xdata.subId :: calls,
            ?_⟩
          simp only [answers, run_listen]
          intro heq
          exact hne (List.cons.inj heq).2
      | none =>
          -- an INIT of the other VM arrives, and a listener looks for it
          let xdata : HabOpenSendData := ⟨0, cancel.request.xdata.subId, 0, 0, 0, 0⟩
          refine ⟨[.other (.add ⟨q, hq⟩ .init true (some xdata) 0),
            .listen ⟨false, fun _ ↦ false, false, 0⟩ cancel.request.xdata.subId], ?_⟩
          have hinit : (⟨.init, q, xdata⟩ : HabOpenRequest π).answers
              (anyInit cancel.request.xdata.subId) = true := by
            simp [HabOpenRequest.answers, anyInit, habOpenRequestInit, xdata]
          simp only [answers, run_listen]
          simp [run, OtherOpenCall.run, habOpenRequestAdd, hqueue, List.find?_append, hfirst, hsub,
            hinit, Option.filter_some, hpchan, hq]

end DeviceCall

/-- The cancel received on `p` leaves every other VM alone. -/
structure CancelConfined (dev : HabDevice π) (p : π) (read : Option HabOpenSendData)
    (alloc : Bool) (now : ℤ) : Prop where
  /-- The requests of the other pchans stay queued, in their order. -/
  kept : (habOpenReceiveCancel dev p read alloc now).2.others p = dev.others p
  /-- However they go on, the opens of the other VMs get the same answers as
  without the cancel. -/
  proceeds : ∀ calls : List (OtherOpenCall p),
    (answers OtherOpenCall.run (habOpenReceiveCancel dev p read alloc now).2 calls).1 =
      (answers OtherOpenCall.run dev calls).1
  /-- A wait that takes requests of any pchan still gets the same one of
  another VM. -/
  unbound : ∀ (listen : HabOpenRequest (Option π)) (now' : ℤ) (node : HabOpenNode π),
    (dev.scan listen now').taken = some node → node.request.pchan ≠ p →
      ((habOpenReceiveCancel dev p read alloc now).2.scan listen now').taken = some node
  /-- Together with listeners that take an INIT of any pchan, they notice no more than that
  the request of `p` that the cancel withdraws is gone. -/
  heard : ∀ calls : List (DeviceCall p),
    (answers DeviceCall.run (habOpenReceiveCancel dev p read alloc now).2 calls).1 =
      (answers DeviceCall.run (dev.withdrawn p read) calls).1

/-- How a cancel that finds nothing to withdraw is queued. -/
def cancelNode (p : π) (data : HabOpenSendData) (now : ℤ) : HabOpenNode π :=
  ⟨⟨.initCancel, p, { data with verProto := 0 }⟩, now + habOpenReqExpireTimeS⟩

theorem habOpenReceiveCancel_of_none {dev : HabDevice π} {data : HabOpenSendData}
    (h : dev.openqList.find? (fun node ↦ node.request.cancelledBy data) = none) (p : π)
    (alloc : Bool) (now : ℤ) :
    (habOpenReceiveCancel dev p (some data) alloc now).2.openqList =
      dev.openqList ++ if alloc then [cancelNode p data now] else [] := by
  have hnone : ¬ dev.openqList.any (fun node ↦ node.request.cancelledBy data) := by
    simpa using h
  rw [habOpenReceiveCancel, if_neg hnone]
  cases alloc with
  | false => exact (List.append_nil _).symm
  | true => rfl

theorem habOpenReceiveCancel_of_some {dev : HabDevice π} {data : HabOpenSendData}
    {node : HabOpenNode π}
    (h : dev.openqList.find? (fun node ↦ node.request.cancelledBy data) = some node) (p : π)
    (alloc : Bool) (now : ℤ) :
    (habOpenReceiveCancel dev p (some data) alloc now).2.openqList =
      dev.openqList.eraseP (fun node ↦ node.request.cancelledBy data) := by
  have hsome : dev.openqList.any (fun node ↦ node.request.cancelledBy data) := by
    rw [List.any_eq_true]
    exact ⟨node, List.mem_of_find?_eq_some h,
      List.find?_some (p := fun node : HabOpenNode π ↦ node.request.cancelledBy data) h⟩
  simp only [habOpenReceiveCancel, if_pos hsome]

/-- The other pchans keep their requests exactly when the one removed is not
theirs. -/
theorem kept_iff (dev : HabDevice π) (p : π) (data : HabOpenSendData) (alloc : Bool) (now : ℤ) :
    (habOpenReceiveCancel dev p (some data) alloc now).2.others p = dev.others p ↔
      ∀ node, dev.openqList.find? (fun node ↦ node.request.cancelledBy data) = some node →
        node.request.pchan = p := by
  cases h : dev.openqList.find? (fun node ↦ node.request.cancelledBy data) with
  | none =>
      refine iff_of_true ?_ (by simp)
      rw [HabDevice.others, habOpenReceiveCancel_of_none h, List.filter_append, HabDevice.others]
      cases alloc <;> simp [cancelNode]
  | some node =>
      rw [HabDevice.others, habOpenReceiveCancel_of_some h, HabDevice.others,
        Scan.filter_eraseP_eq_iff]
      simp [h]

/-- A cancel that withdraws the first request that it names withdraws it from the queue and
nothing else. -/
theorem openqList_withdrawn {dev : HabDevice π} {p : π} {data : HabOpenSendData}
    {node : HabOpenNode π}
    (h : dev.openqList.find? (fun node ↦ node.request.cancelledBy data) = some node)
    (hown : node.request.pchan = p) (alloc : Bool) (now : ℤ) :
    (habOpenReceiveCancel dev p (some data) alloc now).2.openqList =
      (dev.withdrawn p (some data)).openqList := by
  rw [habOpenReceiveCancel_of_some h, HabDevice.withdrawn]
  refine (Scan.eraseP_and (fun node ↦ node.request.pchan = p) dev.openqList ?_).symm
  intro first hfirst
  obtain rfl := Option.some.inj (h.symm.trans hfirst)
  simpa using hown

/-- There is nothing to withdraw where no request is named by the cancel. -/
theorem withdrawn_of_none {dev : HabDevice π} {data : HabOpenSendData}
    (h : dev.openqList.find? (fun node ↦ node.request.cancelledBy data) = none) (p : π) :
    (dev.withdrawn p (some data)).openqList = dev.openqList := by
  apply List.eraseP_of_forall_not
  intro node hnode
  have hnot := List.find?_eq_none.mp h node hnode
  simp [hnot]

/-- A received cancel is confined to its pchan if and only if the first queued
INIT or INIT_ACK with its `sub_id`, `open_id` and `vchan_id` came in on that
pchan, or there is none and no memory to queue the cancel, or there are no other
pchans. -/
theorem cancelConfined_iff (dev : HabDevice π) (p : π) (read : Option HabOpenSendData)
    (alloc : Bool) (now : ℤ) :
    CancelConfined dev p read alloc now ↔
      ∀ data ∈ read,
        match dev.openqList.find? (fun node ↦ node.request.cancelledBy data) with
        | some node => node.request.pchan = p
        | none => alloc = false ∨ ∀ q, q = p := by
  cases read with
  | none =>
      refine iff_of_true ?_ (by simp)
      exact ⟨rfl, fun _ ↦ rfl, fun _ _ _ h _ ↦ h, fun _ ↦ rfl⟩
  | some data =>
      simp only [Option.mem_some_iff, forall_eq']
      constructor
      · intro hconfined
        cases h : dev.openqList.find? (fun node ↦ node.request.cancelledBy data) with
        | some node => exact (kept_iff dev p data alloc now).mp hconfined.kept node h
        | none =>
            by_contra hnot
            rw [not_or, not_forall] at hnot
            obtain ⟨halloc, q, hq⟩ := hnot
            -- the cancel is queued, and a listener takes it
            have hlist : (habOpenReceiveCancel dev p (some data) alloc now).2.openqList =
                (dev.withdrawn p (some data)).openqList ++ [cancelNode p data now] := by
              rw [withdrawn_of_none h, habOpenReceiveCancel_of_none h,
                if_pos (by simpa using halloc)]
            obtain ⟨calls, hne⟩ := DeviceCall.exists_answers_ne hq rfl rfl _ _ hlist
            exact hne (hconfined.heard calls)
      · intro hown
        have hkept : (habOpenReceiveCancel dev p (some data) alloc now).2.others p =
            dev.others p := by
          refine (kept_iff dev p data alloc now).mpr fun node h ↦ ?_
          rw [h] at hown
          exact hown
        refine ⟨hkept, fun calls ↦ ?_, fun listen now' node hnode hother ↦ ?_, fun calls ↦ ?_⟩
        · exact (answers_eq_of_view (fun _ _ call h ↦ OtherOpenCall.answer_of_others h call)
            (fun _ _ call h ↦ OtherOpenCall.others_of_others h call) hkept calls).1
        · rw [HabDevice.scan, Scan.taken_eq_find?] at hnode ⊢
          cases h : dev.openqList.find? (fun node ↦ node.request.cancelledBy data) with
          | none =>
              rw [habOpenReceiveCancel_of_none h, List.find?_append, hnode]
              rfl
          | some removed =>
              rw [h] at hown
              rw [habOpenReceiveCancel_of_some h]
              refine Scan.find?_eraseP hnode ?_
              rw [h]
              rintro ⟨⟩
              exact hother hown
        · cases h : dev.openqList.find? (fun node ↦ node.request.cancelledBy data) with
          | some removed =>
              rw [h] at hown
              exact DeviceCall.answers_of_queue (openqList_withdrawn h hown alloc now) calls
          | none =>
              rw [h] at hown
              rcases hown with rfl | halone
              · apply DeviceCall.answers_of_queue
                rw [withdrawn_of_none h, habOpenReceiveCancel_of_none h]
                exact List.append_nil _
              · exact DeviceCall.answers_of_alone halone _ _ calls

/-- The first open of each of two guests: both have `open_id` 1 and the vchan id
that index 1, domain 255 and the same device give. -/
def firstOpen : HabOpenSendData := ⟨0x065FF001, 0, 1, 0x10000, 0, 1⟩

/-- The INIT of the second guest waits in the queue of the device. -/
def secondGuestWaits : HabDevice Bool :=
  { openqList := [⟨⟨.init, true, firstOpen⟩, 36000⟩], openqCnt := 1, refcount := fun _ ↦ 1 }

/-- A cancel of the first guest removes the INIT of the second one, and where there is none to
remove, a listener takes the cancel in place of an INIT of the second one. -/
theorem cancel_not_confined :
    ¬ CancelConfined secondGuestWaits false (some firstOpen) true 0 ∧
      ¬ CancelConfined ⟨[], 0, fun _ ↦ 1⟩ false (some firstOpen) true 0 := by
  constructor
  · intro h
    exact absurd h.kept (by decide)
  · intro h
    exact absurd (h.heard [.other (.add ⟨true, by decide⟩ .init true (some firstOpen) 0),
      .listen ⟨false, fun _ ↦ false, false, 0⟩ 0]) (by decide)

end Hab
