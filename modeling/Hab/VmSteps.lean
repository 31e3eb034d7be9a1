import Hab.Vm

/-!
# What the steps of a VM do

One rule for each thing that a call in progress, or a VM, can do next, with the
condition it is done under and what is sent.  All later results go by these
rules.
-/

namespace Hab

/-! ## The open queue -/

/-- The requests of the queue that pass a test. -/
def HabDevice.countQueued (dev : HabDevice HabPchan) (test : HabOpenRequest HabPchan → Bool) : ℕ :=
  dev.openqList.countP fun node ↦ test node.request

/-- The first request of the queue that passes a test. -/
def HabDevice.firstQueued (dev : HabDevice HabPchan) (test : HabOpenRequest HabPchan → Bool) :
    Option (HabOpenRequest HabPchan) :=
  (dev.openqList.find? fun node ↦ test node.request).map HabOpenNode.request

/-- A wait has looked at the queue: it took at most the first request that it waits for, and
nothing if its pchan is closed. -/
structure Polled (closed : HabPchan → Bool) (dev : HabDevice HabPchan)
    (listen : HabOpenRequest (Option HabPchan)) (dev' : HabDevice HabPchan)
    (recv : Option (HabOpenRequest HabPchan)) : Prop where
  count_le : ∀ test, dev'.countQueued test + (recv.any test).toNat ≤ dev.countQueued test
  first : ∀ request, recv = some request →
    listen.pchan.any closed = false ∧
      dev.firstQueued (fun request ↦ request.answers listen) = some request

theorem Polled.answers {closed : HabPchan → Bool} {dev dev' : HabDevice HabPchan}
    {listen : HabOpenRequest (Option HabPchan)} {recv : Option (HabOpenRequest HabPchan)}
    (h : Polled closed dev listen dev' recv) (request : HabOpenRequest HabPchan)
    (hrecv : recv = some request) : request.answers listen = true := by
  obtain ⟨node, hfind, rfl⟩ := Option.map_eq_some_iff.mp (h.first request hrecv).2
  have hhit := List.find?_some hfind
  exact hhit

theorem Polled.drop {closed : HabPchan → Bool} {dev dev' : HabDevice HabPchan}
    {listen : HabOpenRequest (Option HabPchan)} {recv : Option (HabOpenRequest HabPchan)}
    (h : Polled closed dev listen dev' recv) : Polled closed dev listen dev' none :=
  ⟨fun test ↦ (Nat.le_add_right _ _).trans (h.count_le test), fun _ hnone ↦ by cases hnone⟩

theorem polled_find (env : FindEnv HabPchan) (listen : HabOpenRequest (Option HabPchan))
    (dev : HabDevice HabPchan) (hclosing : env.closing = false) :
    Polled env.closed dev listen (habOpenRequestFind env listen dev).2
      ((habOpenRequestFind env listen dev).1.2.map HabOpenNode.request) := by
  simp only [habOpenRequestFind, hclosing, Bool.false_or]
  split
  · exact ⟨fun test ↦ Nat.le_refl _, fun request h ↦ by cases h⟩
  next hopen =>
    constructor
    · intro test
      have hperm : ((dev.scan listen env.now).taken.toList ++ (dev.scan listen env.now).dropped ++
          (dev.scan listen env.now).kept).Perm dev.openqList := Scan.perm dev.openqList
      have hcount := hperm.countP_eq fun node ↦ test node.request
      rw [List.countP_append, List.countP_append] at hcount
      have htaken : ((dev.scan listen env.now).taken.map HabOpenNode.request).any test =
          (dev.scan listen env.now).taken.any fun node ↦ test node.request := by
        cases (dev.scan listen env.now).taken <;> rfl
      have htoList : ((dev.scan listen env.now).taken.any fun node ↦ test node.request).toNat =
          (dev.scan listen env.now).taken.toList.countP fun node ↦ test node.request := by
        cases (dev.scan listen env.now).taken with
        | none => rfl
        | some node =>
            by_cases h : test node.request <;> simp [h]
      simp only [HabDevice.countQueued, HabDevice.openqList_afterScan]
      rw [htaken, htoList]
      omega
    · intro request h
      obtain ⟨node, hnode, rfl⟩ := Option.map_eq_some_iff.mp h
      have hfind : (dev.scan listen env.now).taken =
          dev.openqList.find? fun node ↦ node.request.answers listen :=
        Scan.taken_eq_find? dev.openqList
      have hfirst := hfind.symm.trans hnode
      exact ⟨by simpa using hopen, by rw [HabDevice.firstQueued, hfirst, Option.map_some]⟩

/-- How a received request stands in the queue. -/
def queuedRequest (type : HabPayloadType) (pchan : HabPchan) (xdata : HabOpenSendData) :
    HabOpenRequest HabPchan :=
  ⟨type, pchan, if type = .initCancel then { xdata with verProto := 0 } else xdata⟩

theorem countQueued_enqueue (dev : HabDevice HabPchan) (node : HabOpenNode HabPchan)
    (test : HabOpenRequest HabPchan → Bool) :
    (dev.enqueue node).countQueued test = dev.countQueued test + (test node.request).toNat := by
  rw [HabDevice.countQueued, HabDevice.openqList_enqueue, List.countP_append, HabDevice.countQueued]
  by_cases h : test node.request <;> simp [h]

theorem countQueued_receiveCancel (dev : HabDevice HabPchan) (pchan : HabPchan)
    (xdata : HabOpenSendData) (alloc : Bool) (now : ℤ) (test : HabOpenRequest HabPchan → Bool) :
    (habOpenReceiveCancel dev pchan (some xdata) alloc now).2.countQueued test ≤
      dev.countQueued test + (test (queuedRequest .initCancel pchan xdata)).toNat := by
  simp only [habOpenReceiveCancel]
  split
  · exact (List.eraseP_sublist.countP_le).trans (Nat.le_add_right _ _)
  · split
    · exact (countQueued_enqueue _ _ test).le
    · exact Nat.le_add_right _ _

theorem countQueued_requestAdd (dev : HabDevice HabPchan) (pchan : HabPchan)
    {type : HabPayloadType} (htype : type ≠ .initCancel) (xdata : HabOpenSendData) (alloc : Bool)
    (now : ℤ) (test : HabOpenRequest HabPchan → Bool) :
    (habOpenRequestAdd dev pchan type alloc (some xdata) now).2.countQueued test ≤
      dev.countQueued test + (test (queuedRequest type pchan xdata)).toNat := by
  simp only [habOpenRequestAdd, queuedRequest, if_neg htype]
  split
  · exact (countQueued_enqueue _ _ test).le
  · exact Nat.le_add_right _ _

/-! ## The calls in progress -/

/-- What the last wait of a `frontend_open` took. -/
def FrontStage.taken : FrontStage → Option (HabOpenRequest HabPchan)
  | .init | .wait => none
  | .woken _ recv | .cancel recv _ => recv
  | .paired request => some request

/-- What the last wait of a round of `backend_listen` took. -/
def RoundStage.taken : RoundStage → Option (HabOpenRequest HabPchan)
  | .ack | .wait => none
  | .answered _ recv | .cancel recv _ => recv

namespace HabVm

/-- The wait of a `frontend_open` lets it go on with its vchan. -/
def FrontAccepts (vm : HabVm) (o : FrontOpen) (ended : WaitEnd)
    (request : HabOpenRequest HabPchan) : Prop :=
  habOpenListen false false ended (vm.forbidden o.ctx o.subId) = none ∧
    majorVer request.xdata.verFe = majorVer request.xdata.verBe

/-- The first wait of a `backend_listen` lets it go on. -/
def ListenAccepts (vm : HabVm) (l : BackListen) (ended : WaitEnd)
    (request : HabOpenRequest HabPchan) : Prop :=
  habOpenListen l.timed false ended (vm.forbidden l.ctx l.subId) = none ∧
    majorVer request.xdata.verFe = majorVer habApiVer

/-- The second wait of a `backend_listen` lets it return its vchan. -/
def RoundAccepts (vm : HabVm) (r : BackRound) (ended : WaitEnd) : Prop :=
  habOpenListen true false ended (vm.forbidden r.listen.ctx r.listen.subId) = none

variable (vm : HabVm) (i : ℕ) (env : Env)

/-- The next step of a call. -/
inductive Advance : Call → HabVm → List (HabPchan × HabMsg) → Prop where
  | frontInit (o : FrontOpen) :
      Advance (.front o .init) (vm.become i (some (.front o .wait)))
        [(o.pchan, .request .init (o.xdata .init (vm.vchan o.vchan).id))]
  | frontPoll (o : FrontOpen) (dev : HabDevice HabPchan)
      (hdev : Polled vm.pchanClosed vm.dev o.listen dev none) :
      Advance (.front o .wait) { vm with dev := dev } []
  | frontWoken (o : FrontOpen) (dev : HabDevice HabPchan) (ended : WaitEnd)
      (recv : Option (HabOpenRequest HabPchan))
      (hdev : Polled vm.pchanClosed vm.dev o.listen dev recv)
      (hmet : recv ≠ none → ended = .met) :
      Advance (.front o .wait)
        { vm.become i (some (.front o (.woken ended recv))) with dev := dev } []
  | frontPair (o : FrontOpen) (ended : WaitEnd) (request : HabOpenRequest HabPchan)
      (haccept : vm.FrontAccepts o ended request) :
      Advance (.front o (.woken ended (some request))) (vm.frontPair i o request) []
  | frontGiveUp (o : FrontOpen) (ended : WaitEnd) (recv : Option (HabOpenRequest HabPchan))
      (error : Errno) :
      Advance (.front o (.woken ended recv)) (vm.become i (some (.front o (.cancel recv error)))) []
  | frontErr (o : FrontOpen) (stage : FrontStage) (error : Errno) :
      Advance (.front o stage)
        (vm.openErr i o.vchan o.pchan none
          [⟨true, o.subId, some o.vchan, stage.taken, some error⟩]) []
  | frontCancel (o : FrontOpen) (recv : Option (HabOpenRequest HabPchan)) (error : Errno) :
      Advance (.front o (.cancel recv error))
        (vm.openErr i o.vchan o.pchan none [⟨true, o.subId, some o.vchan, recv, some error⟩])
        [(o.pchan, .request .initCancel (o.xdata .initCancel (vm.vchan o.vchan).id))]
  | frontAccept (o : FrontOpen) (request : HabOpenRequest HabPchan) :
      Advance (.front o (.paired request)) (vm.frontAccept i o request)
        [(o.pchan, .request .initDone (o.xdata .initDone 0))]
  | listenPoll (l : BackListen) (dev : HabDevice HabPchan)
      (hdev : Polled vm.pchanClosed vm.dev l.request dev none) :
      Advance (.listen l .wait) { vm with dev := dev } []
  | listenWoken (l : BackListen) (dev : HabDevice HabPchan) (ended : WaitEnd)
      (recv : Option (HabOpenRequest HabPchan))
      (hdev : Polled vm.pchanClosed vm.dev l.request dev recv)
      (hmet : recv ≠ none → ended = .met) :
      Advance (.listen l .wait)
        { vm.become i (some (.listen l (.woken ended recv))) with dev := dev } []
  | listenErr (l : BackListen) (ended : WaitEnd) (recv : Option (HabOpenRequest HabPchan))
      (error : Errno) (dev : HabDevice HabPchan) (hdev : dev.openqList = vm.dev.openqList)
      (memProto : HabPchan → Bool) :
      Advance (.listen l (.woken ended recv))
        { vm.become i none with
          dev := dev
          memProto := memProto
          returns := vm.returns ++ [⟨false, l.subId, none, recv, some error⟩] } []
  | listenTake (l : BackListen) (ended : WaitEnd) (request : HabOpenRequest HabPchan)
      (id : Fin 4096) (haccept : vm.ListenAccepts l ended request)
      (hfree : vm.idrFree request.pchan id = true) :
      Advance (.listen l (.woken ended (some request)))
        ((vm.backHear request).backTake i l request id) []
  | roundAck (r : BackRound) :
      Advance (.round r .ack) (vm.become i (some (.round r .wait)))
        [(r.init.pchan, .request .initAck (r.xdata .initAck (vm.vchan r.vchan).id))]
  | roundPoll (r : BackRound) (dev : HabDevice HabPchan)
      (hdev : Polled vm.pchanClosed vm.dev r.request dev none) :
      Advance (.round r .wait) { vm with dev := dev } []
  | roundAnswered (r : BackRound) (dev : HabDevice HabPchan) (ended : WaitEnd)
      (recv : Option (HabOpenRequest HabPchan))
      (hdev : Polled vm.pchanClosed vm.dev r.request dev recv)
      (hmet : recv ≠ none → ended = .met) :
      Advance (.round r .wait)
        { vm.become i (some (.round r (.answered ended recv))) with dev := dev } []
  | roundAccept (r : BackRound) (ended : WaitEnd) (request : HabOpenRequest HabPchan)
      (haccept : vm.RoundAccepts r ended) :
      Advance (.round r (.answered ended (some request))) (vm.backAccept i r request) []
  | roundGiveUp (r : BackRound) (ended : WaitEnd) (recv : Option (HabOpenRequest HabPchan))
      (error : Option Errno) (hrefuse : ¬ vm.RoundAccepts r ended)
      (hretry : error = none → ended ≠ .met)
      (hcancel : error ≠ none → recv.any (fun request ↦ request.type = .initCancel) = true) :
      Advance (.round r (.answered ended recv)) (vm.become i (some (.round r (.cancel recv error))))
        []
  | roundErr (r : BackRound) (stage : RoundStage) (error : Errno)
      (hrefuse : ∀ ended request, stage = .answered ended (some request) →
        ¬ vm.RoundAccepts r ended) :
      Advance (.round r stage)
        (vm.openErr i r.vchan r.init.pchan none
          [⟨false, r.listen.subId, some r.vchan, stage.taken, some error⟩]) []
  | roundCancel (r : BackRound) (recv : Option (HabOpenRequest HabPchan)) (error : Errno) :
      Advance (.round r (.cancel recv (some error)))
        (vm.openErr i r.vchan r.init.pchan none
          [⟨false, r.listen.subId, some r.vchan, recv, some error⟩])
        [(r.init.pchan, .request .initCancel (r.xdata .initCancel (vm.vchan r.vchan).id))]
  | roundRetry (r : BackRound) (recv : Option (HabOpenRequest HabPchan))
      (out : List (HabPchan × HabMsg))
      (hout : out = [] ∨
        out = [(r.init.pchan, .request .initCancel (r.xdata .initCancel (vm.vchan r.vchan).id))]) :
      Advance (.round r (.cancel recv none))
        (vm.openErr i r.vchan r.init.pchan (some (.listen r.listen .wait)) []) out
  | publish (v : ℕ) :
      Advance (.opened v) { vm.become i none with vchannels := vm.vchannels ++ [v] } []
  | sent (v : ℕ) (message : Message) (nonblocking : Bool) :
      Advance (.sending v message nonblocking)
        ((vm.logSent v (some message)).release i v none)
        [((vm.vchan v).pchan,
          .data (habVcidGetId (vm.vchan v).otherendId) (vm.vchan v).sessionId message)]
  | sendAgain (v : ℕ) (message : Message) (nonblocking : Bool) :
      Advance (.sending v message nonblocking) vm []
  | sendErr (v : ℕ) (message : Message) (nonblocking : Bool) :
      Advance (.sending v message nonblocking) (vm.release i v none) []
  | dequeue (v rsize : ℕ) (waited : RxWait) :
      Advance (.receiving v) ((vm.msgDequeue v rsize waited).release i v none) []
  | closeSent (v : ℕ) (hopen : (vm.vchan v).otherendClosed = false) :
      Advance (.closing v) ((vm.logSent v none).become i (some (.stopping v)))
        [((vm.vchan v).pchan,
          .close (habVcidGetId (vm.vchan v).otherendId) (vm.vchan v).sessionId)]
  | closeSkip (v : ℕ) (hskip : (vm.vchan v).otherendClosed = true ∨ env.sent ≠ none) :
      Advance (.closing v) (vm.become i (some (.stopping v))) []
  | stopped (v : ℕ) :
      Advance (.stopping v) ((vm.vchanStop v).release i v none) []

variable {vm i env} {vm' : HabVm} {out : List (HabPchan × HabMsg)}

theorem poll_polled (vm : HabVm) (env : Env) (listen : HabOpenRequest (Option HabPchan))
    (timed forbidden : Bool) :
    (vm.poll listen timed forbidden env).1 = none ∧
        Polled vm.pchanClosed vm.dev listen (vm.poll listen timed forbidden env).2 none ∨
      ∃ ended recv, (vm.poll listen timed forbidden env).1 = some (ended, recv) ∧
        Polled vm.pchanClosed vm.dev listen (vm.poll listen timed forbidden env).2 recv ∧
          (recv ≠ none → ended = .met) := by
  have hfind := polled_find ⟨false, vm.pchanClosed, forbidden, env.now⟩ listen vm.dev rfl
  simp only [poll]
  split
  · exact Or.inr ⟨.met, _, rfl, hfind, fun _ ↦ rfl⟩
  · split
    · exact Or.inr ⟨.signal, none, rfl, hfind.drop, fun h ↦ absurd rfl h⟩
    · split
      · exact Or.inr ⟨.timeout, none, rfl, hfind.drop, fun h ↦ absurd rfl h⟩
      · exact Or.inl ⟨rfl, hfind.drop⟩
    · exact Or.inl ⟨rfl, hfind.drop⟩

theorem advanceFront_cases {o : FrontOpen} {stage : FrontStage}
    (h : vm.advanceFront i env o stage = (vm', out)) :
    vm.Advance i env (.front o stage) vm' out := by
  cases stage with
  | init =>
      cases hsent : env.sent with
      | none =>
          simp only [advanceFront, hsent, Prod.mk.injEq] at h
          obtain ⟨rfl, rfl⟩ := h
          exact .frontInit o
      | some error =>
          simp only [advanceFront, hsent, Prod.mk.injEq] at h
          obtain ⟨rfl, rfl⟩ := h
          exact .frontErr o .init error
  | wait =>
      simp only [advanceFront] at h
      obtain ⟨hnone, hdev⟩ | ⟨ended, recv, hsome, hdev, hmet⟩ :=
        poll_polled vm env o.listen false (vm.forbidden o.ctx o.subId)
      · rw [hnone, Prod.mk.injEq] at h
        obtain ⟨rfl, rfl⟩ := h
        exact .frontPoll o _ hdev
      · rw [hsome, Prod.mk.injEq] at h
        obtain ⟨rfl, rfl⟩ := h
        exact .frontWoken o _ ended recv hdev hmet
  | woken ended recv =>
      simp only [advanceFront] at h
      split at h
      · split at h <;> (rw [Prod.mk.injEq] at h; obtain ⟨rfl, rfl⟩ := h)
        · exact .frontErr o (.woken ended _) .eproto
        · exact .frontPair o ended _ ⟨by assumption, by_contra (by assumption)⟩
      · rw [Prod.mk.injEq] at h
        obtain ⟨rfl, rfl⟩ := h
        exact .frontGiveUp o ended _ _
  | cancel recv error =>
      simp only [advanceFront, Prod.mk.injEq] at h
      obtain ⟨rfl, rfl⟩ := h
      split
      · exact .frontCancel o recv error
      · exact .frontErr o (.cancel recv error) error
  | paired request =>
      cases hsent : env.sent with
      | none =>
          simp only [advanceFront, hsent, Prod.mk.injEq] at h
          obtain ⟨rfl, rfl⟩ := h
          exact .frontAccept o request
      | some error =>
          simp only [advanceFront, hsent, Prod.mk.injEq] at h
          obtain ⟨rfl, rfl⟩ := h
          exact .frontErr o (.paired request) error

theorem advanceListen_cases {l : BackListen} {stage : ListenStage}
    (h : vm.advanceListen i env l stage = some vm') :
    vm.Advance i env (.listen l stage) vm' [] := by
  cases stage with
  | wait =>
      simp only [advanceListen] at h
      obtain ⟨hnone, hdev⟩ | ⟨ended, recv, hsome, hdev, hmet⟩ :=
        poll_polled vm env l.request l.timed (vm.forbidden l.ctx l.subId)
      · rw [hnone] at h
        cases h
        exact .listenPoll l _ hdev
      · rw [hsome] at h
        cases h
        exact .listenWoken l _ ended recv hdev hmet
  | woken ended recv =>
      simp only [advanceListen] at h
      split at h
      case h_1 request hret =>
        by_cases hver : majorVer request.xdata.verFe ≠ majorVer habApiVer
        · rw [if_pos hver] at h
          cases h
        rw [if_neg hver] at h
        cases hidr : env.idr with
        | none =>
            rw [hidr] at h
            cases h
            exact @Advance.listenErr vm i env l ended (some request) .enomem
              ((vm.backHear request).dev.pchanPut request.pchan) rfl (vm.backHear request).memProto
        | some id =>
            rw [hidr] at h
            simp only [Option.ite_none_right_eq_some, Option.some.injEq] at h
            obtain ⟨hfree, rfl⟩ := h
            exact .listenTake l ended request id ⟨hret, by_contra hver⟩ hfree
      case h_2 =>
        cases h
        exact .listenErr l ended _ _ _ rfl _

theorem advanceRound_cases {r : BackRound} {stage : RoundStage}
    (h : vm.advanceRound i env r stage = (vm', out)) :
    vm.Advance i env (.round r stage) vm' out := by
  cases stage with
  | ack =>
      cases hsent : env.sent with
      | none =>
          simp only [advanceRound, hsent, Prod.mk.injEq] at h
          obtain ⟨rfl, rfl⟩ := h
          exact .roundAck r
      | some error =>
          simp only [advanceRound, hsent, Prod.mk.injEq] at h
          obtain ⟨rfl, rfl⟩ := h
          exact .roundErr r .ack error (fun _ _ heq ↦ by cases heq)
  | wait =>
      simp only [advanceRound] at h
      obtain ⟨hnone, hdev⟩ | ⟨ended, recv, hsome, hdev, hmet⟩ :=
        poll_polled vm env r.request true (vm.forbidden r.listen.ctx r.listen.subId)
      · rw [hnone, Prod.mk.injEq] at h
        obtain ⟨rfl, rfl⟩ := h
        exact .roundPoll r _ hdev
      · rw [hsome, Prod.mk.injEq] at h
        obtain ⟨rfl, rfl⟩ := h
        exact .roundAnswered r _ ended recv hdev hmet
  | answered ended recv =>
      simp only [advanceRound] at h
      split at h
      case isTrue hcancel =>
        rw [Prod.mk.injEq] at h
        obtain ⟨rfl, rfl⟩ := h
        exact .roundGiveUp r ended recv _ hcancel.1 (fun heq ↦ by cases heq) fun _ ↦ hcancel.2
      case isFalse hcancel =>
        split at h
        case isTrue henxio =>
          rw [Prod.mk.injEq] at h
          obtain ⟨rfl, rfl⟩ := h
          rw [henxio]
          refine .roundErr r (.answered ended recv) .enxio ?_
          rintro _ _ ⟨⟩ haccept
          rw [RoundAccepts, henxio] at haccept
          cases haccept
        case isFalse henxio =>
          split at h
          case isTrue heagain =>
            rw [Prod.mk.injEq] at h
            obtain ⟨rfl, rfl⟩ := h
            refine .roundGiveUp r ended recv none ?_ ?_ (fun hne ↦ absurd rfl hne)
            · intro haccept
              rw [RoundAccepts, heagain] at haccept
              cases haccept
            · rintro - rfl
              simp only [habOpenListen, if_true] at heagain
              split at heagain <;> cases heagain
          case isFalse heagain =>
            split at h
            case h_1 request haccept =>
              rw [Prod.mk.injEq] at h
              obtain ⟨rfl, rfl⟩ := h
              exact .roundAccept r ended request haccept
            case h_2 hno =>
              rw [Prod.mk.injEq] at h
              obtain ⟨rfl, rfl⟩ := h
              refine .roundErr r (.answered ended _) .einval ?_
              rintro _ request ⟨⟩ haccept
              exact hno request haccept rfl
  | cancel recv error =>
      cases error with
      | none =>
          simp only [advanceRound, Prod.mk.injEq] at h
          obtain ⟨rfl, rfl⟩ := h
          refine .roundRetry r recv _ ?_
          split
          · exact Or.inr rfl
          · exact Or.inl rfl
      | some error =>
          simp only [advanceRound, Prod.mk.injEq] at h
          obtain ⟨rfl, rfl⟩ := h
          split
          · exact .roundCancel r recv error
          · exact .roundErr r (.cancel recv (some error)) error (fun _ _ heq ↦ by cases heq)

theorem advance_cases {call : Call} (h : vm.advance i env call = some (vm', out)) :
    vm.Advance i env call vm' out := by
  cases call with
  | front o stage => exact advanceFront_cases (Option.some.inj h)
  | listen l stage =>
      obtain ⟨vm₁, hlisten, heq⟩ := Option.map_eq_some_iff.mp h
      cases heq
      exact advanceListen_cases hlisten
  | round r stage => exact advanceRound_cases (Option.some.inj h)
  | opened v =>
      cases h
      exact .publish v
  | sending v message nonblocking =>
      simp only [advance] at h
      split at h
      · cases h
        exact .sent v message nonblocking
      · split at h <;> cases h
        · exact .sendErr v message nonblocking
        · exact .sendAgain v message nonblocking
  | receiving v =>
      cases h
      exact .dequeue v env.rsize env.waited
  | closing v =>
      simp only [advance] at h
      split at h
      case isTrue hsend =>
        cases h
        exact .closeSent v hsend.1
      case isFalse hskip =>
        cases h
        refine .closeSkip v ?_
        by_cases hclosed : (vm.vchan v).otherendClosed = false
        · exact Or.inr fun hsent ↦ hskip ⟨hclosed, hsent⟩
        · exact Or.inl (by simpa using hclosed)
  | stopping v =>
      cases h
      exact .stopped v

/-! ## A VM -/

/-- What is found through `ctx->vchannels` is in it, and open. -/
theorem vchanFromVcid_eq_some {vcid : UInt32} {ctx v : ℕ} {ignoreRemote : Bool}
    (h : vm.vchanFromVcid vcid ctx ignoreRemote = some v) :
    v ∈ vm.vchannels ∧ (vm.vchan v).closed = false := by
  obtain ⟨hfind, hopen⟩ := Option.filter_eq_some_iff.mp h
  refine ⟨List.mem_of_find?_eq_some hfind, ?_⟩
  simp only [Bool.and_eq_true, Bool.not_eq_true', Bool.or_eq_false_iff] at hopen
  exact hopen.1.2

end HabVm

/-- A message that `hab_vchan_send` takes. -/
def Message.Sendable (message : Message) : Prop :=
  message.data.length ≤ habHeaderSizeMax ∧
    ∃ least, habVchanSendMin message.type = some least ∧ least ≤ message.data.length

namespace HabVm

variable (vm : HabVm) (env : Env)

/-- The next step of a VM. -/
inductive Step : VmAct → HabVm → List (HabPchan × HabMsg) → Prop where
  | openFails (ctx : ℕ) (pchan : HabPchan) (subId : UInt32)
      (request : HabOpenRequest (Option HabPchan)) :
      Step (.frontendOpen ctx pchan subId request)
        { vm with
          openIdCounter := vm.openIdCounter + 1
          returns := vm.returns ++ [⟨true, subId, none, none, some .enomem⟩] } []
  | opens (ctx : ℕ) (pchan : HabPchan) (subId : UInt32)
      (request : HabOpenRequest (Option HabPchan)) (id : Fin 4096)
      (hfree : vm.idrFree pchan id = true) :
      Step (.frontendOpen ctx pchan subId request)
        { (vm.countOpen pchan).vchanAlloc ctx pchan (UInt32.ofNat (vm.openIdCounter + 1)) 0 id with
          calls := vm.calls.spawn
            (.front ⟨ctx, pchan, subId, UInt32.ofNat (vm.openIdCounter + 1), vm.nextVchan, request⟩
              .init) } []
  | listens (l : BackListen) :
      Step (.backendListen l) { vm with calls := vm.calls.spawn (.listen l .wait) } []
  | sendFails (ctx : ℕ) (vcid : UInt32) (message : Message) (nonblocking : Bool) :
      Step (.send ctx vcid message nonblocking) vm []
  | sendLeaks (ctx : ℕ) (vcid : UInt32) (message : Message) (nonblocking : Bool) (v : ℕ)
      (hv : vm.vchanFromVcid vcid ctx false = some v) :
      Step (.send ctx vcid message nonblocking) (vm.vchanRef v) []
  | sends (ctx : ℕ) (vcid : UInt32) (message : Message) (nonblocking : Bool) (v : ℕ)
      (hv : vm.vchanFromVcid vcid ctx false = some v) (hmessage : message.Sendable) :
      Step (.send ctx vcid message nonblocking) (vm.hold v (.sending v message nonblocking)) []
  | recvFails (ctx : ℕ) (vcid : UInt32) : Step (.recv ctx vcid) vm []
  | recvs (ctx : ℕ) (vcid : UInt32) (v : ℕ) (hv : vm.vchanFromVcid vcid ctx true = some v) :
      Step (.recv ctx vcid) (vm.hold v (.receiving v)) []
  | closes (ctx : ℕ) (vcid : UInt32) (v : ℕ) (hv : v ∈ vm.vchannels) :
      Step (.close ctx vcid)
        { vm.vchanClosed v with
          vchannels := vm.vchannels.erase v
          calls := vm.calls.spawn (.closing v) } []
  | stops (ctx : ℕ) (subId : UInt32) :
      Step (.stop ctx subId)
        { vm with
          forbidden := Function.update vm.forbidden ctx
            (Function.update (vm.forbidden ctx) subId true) } []
  | closesPchan (pchan : HabPchan) :
      Step (.closePchan pchan)
        { vm with pchanClosed := Function.update vm.pchanClosed pchan true } []
  | receives (pchan : HabPchan) (msg : HabMsg) :
      Step (.receive pchan msg) (vm.receive pchan env msg) []
  | advances (i : ℕ) (call : Call) (vm' : HabVm) (out : List (HabPchan × HabMsg))
      (hi : vm.calls.get i = some call) (hadvance : vm.Advance i env call vm' out) :
      Step (.advance i) vm' out

variable {vm env} {vm' : HabVm} {out : List (HabPchan × HabMsg)}

theorem step_cases {act : VmAct} (h : vm.step act env = some (vm', out)) :
    vm.Step env act vm' out := by
  cases act with
  | frontendOpen ctx pchan subId request =>
      obtain ⟨vm₁, hopen, heq⟩ := Option.map_eq_some_iff.mp h
      cases heq
      simp only [frontendOpen] at hopen
      cases hidr : env.idr with
      | none =>
          rw [hidr] at hopen
          cases hopen
          exact .openFails ctx pchan subId request
      | some id =>
          rw [hidr] at hopen
          simp only [Option.ite_none_right_eq_some, Option.some.injEq] at hopen
          obtain ⟨hfree, rfl⟩ := hopen
          exact .opens ctx pchan subId request id hfree
  | backendListen l =>
      cases h
      exact .listens l
  | send ctx vcid message nonblocking =>
      obtain ⟨vm₁, hsend, heq⟩ := Option.map_eq_some_iff.mp h
      cases heq
      simp only [send] at hsend
      split at hsend
      · cases hsend
        exact .sendFails ctx vcid message nonblocking
      case isFalse hmax =>
        split at hsend
        case h_1 v least hv hleast =>
          split at hsend
          · cases hsend
            exact .sendLeaks ctx vcid message nonblocking v hv
          case isFalse hlen =>
            cases hsend
            exact .sends ctx vcid message nonblocking v hv
              ⟨Nat.le_of_not_lt hmax, least, hleast, Nat.le_of_not_lt hlen⟩
        case h_2 =>
          cases hsend
          exact .sendFails ctx vcid message nonblocking
        case h_3 => cases hsend
  | recv ctx vcid =>
      simp only [step] at h
      split at h
      · cases h
        exact .recvFails ctx vcid
      case h_2 v hv =>
        cases h
        exact .recvs ctx vcid v hv
  | close ctx vcid =>
      simp only [step] at h
      split at h
      · cases h
      case h_2 v hv =>
        cases h
        exact .closes ctx vcid v (List.mem_of_find?_eq_some hv)
  | stop ctx subId =>
      cases h
      exact .stops ctx subId
  | closePchan pchan =>
      cases h
      exact .closesPchan pchan
  | receive pchan msg =>
      cases h
      exact .receives pchan msg
  | advance i =>
      simp only [step] at h
      split at h
      · cases h
      case h_2 call hi => exact .advances i call vm' out hi (advance_cases h)

end HabVm

end Hab
