import Hab.Handshake
import Hab.VmTraffic

/-!
# Sessions

The two vchans of a session carry data messages both ways.  A message is for the vchan
with its session, and there is only one such vchan on the other end as soon as anything is
sent.
-/

namespace Hab

namespace HabVm

variable {vm vm' : HabVm} {i v : ℕ} {env : Env} {call : Call} {act : VmAct}
  {out : List (HabPchan × HabMsg)} {p : HabPchan} {openId : UInt32} {msg : HabMsg}

/-- The open is over: its vchan has been returned, or is gone. -/
def Done (vm : HabVm) (openId : UInt32) : Prop :=
  ∃ v < vm.nextVchan, (vm.vchan v).sessionId = openId ∧
    (vm.returned v ≠ 0 ∨ (vm.vchan v).refcount = 0)

/-- The open is over, and its vchan is gone. -/
def Gone (vm : HabVm) (openId : UInt32) : Prop :=
  ∃ v < vm.nextVchan, (vm.vchan v).sessionId = openId ∧ (vm.vchan v).refcount = 0

theorem Gone.done (h : vm.Gone openId) : vm.Done openId := by
  obtain ⟨v, hv, hsession, hgone⟩ := h
  exact ⟨v, hv, hsession, .inr hgone⟩

/-- The message is a request, or has gone out on a vchan that was returned. -/
def Uttered (vm : HabVm) (msg : HabMsg) : Prop :=
  (∃ type xdata, msg = .request type xdata) ∨
    ∃ v entry, vm.returned v ≠ 0 ∧ msg = (vm.vchan v).outgoing entry ∧
      ∀ message, entry = some message → message.Sendable

/-- All vchans and requests are those of one pchan, which is not closed. -/
structure On (vm : HabVm) (p : HabPchan) : Prop where
  vchan : ∀ v < vm.nextVchan, (vm.vchan v).pchan = p
  requests : ∀ r, vm.requests (fun request ↦ request = r) ≠ 0 → r.pchan = p
  pchanClosed : vm.pchanClosed p = false

theorem Step.done (href : vm.Referenced) (hstep : vm.Step env act vm' out)
    (hdone : vm.Done openId) : vm'.Done openId := by
  have hlater := Later.step href hstep
  obtain ⟨v, hv, hsession, hover⟩ := hdone
  have hv' := hlater.vchan v hv
  refine ⟨v, Nat.lt_of_lt_of_le hv hlater.nextVchan, hv'.sessionId.trans hsession, ?_⟩
  rcases hover with hreturned | hgone
  · exact .inl (hstep.returned_ne_zero hreturned)
  · exact .inr (hv'.freed hgone)

theorem Step.gone (href : vm.Referenced) (hstep : vm.Step env act vm' out)
    (hgone : vm.Gone openId) : vm'.Gone openId := by
  have hlater := Later.step href hstep
  obtain ⟨v, hv, hsession, hcount⟩ := hgone
  have hv' := hlater.vchan v hv
  exact ⟨v, Nat.lt_of_lt_of_le hv hlater.nextVchan, hv'.sessionId.trans hsession,
    hv'.freed hcount⟩

/-- A vchan that has been returned sends to the same vchan ever after. -/
theorem Step.outgoing_eq (hsound : vm.Sound) (hstep : vm.Step env act vm' out)
    (hv : vm.returned v ≠ 0) (entry : Option Message) :
    (vm'.vchan v).outgoing entry = (vm.vchan v).outgoing entry := by
  have hlt := hsound.once.lt v hv
  have hsession := ((Later.step hsound.referenced hstep).vchan v hlt).sessionId
  have hother : (vm'.vchan v).otherendId = (vm.vchan v).otherendId := by
    apply hstep.otherendId_eq hlt
    rintro i o stage hi rfl
    have hpos : 0 < vm.calls.count (Call.opens o.vchan) :=
      Pool.count_pos hi (by simp [Call.opens, Call.handshake, Call.holds, Call.vchan])
    have honce := hsound.once.once o.vchan
    omega
  cases entry <;> rw [Vchan.outgoing, Vchan.outgoing, hsession, hother]

theorem Step.uttered (hsound : vm.Sound) (hstep : vm.Step env act vm' out)
    (hmsg : vm.Uttered msg) : vm'.Uttered msg := by
  rcases hmsg with hrequest | ⟨v, entry, hv, rfl, hsendable⟩
  · exact .inl hrequest
  · exact .inr ⟨v, entry, hstep.returned_ne_zero hv, (hstep.outgoing_eq hsound hv entry).symm,
      hsendable⟩

theorem Step.uttered_out (hspeaks : vm.Speaks) (hsound : vm.Sound)
    (hstep : vm.Step env act vm' out) (hmsg : msg ∈ out.map Prod.snd) : vm'.Uttered msg := by
  rcases hstep.spoke hspeaks hsound.calls with ⟨-, hout⟩ | ⟨v, entry, hv, hsendable, -, -, hout⟩
  · exact .inl (hout msg hmsg)
  · rw [hout, List.mem_singleton] at hmsg
    exact hstep.uttered hsound (.inr ⟨v, entry, hv, hmsg, hsendable⟩)

theorem Step.new_vchan (hstep : vm.Step env act vm' out) (hv : v < vm'.nextVchan)
    (hnew : ¬ v < vm.nextVchan) :
    (vm'.vchan v).log = [] ∧ (vm'.vchan v).got = [] ∧
      (vm'.vchan v).otherendClosed = vm.pchanClosed (vm'.vchan v).pchan ∧
        ((∃ ctx subId request, act = .frontendOpen ctx (vm'.vchan v).pchan subId request) ∨
          ∃ i l ended request, vm.calls.get i = some (.listen l (.woken ended (some request))) ∧
            (vm'.vchan v).pchan = request.pchan ∧
              (vm'.vchan v).sessionId = request.xdata.openId) := by
  have hsame : vm'.nextVchan ≠ vm.nextVchan := by
    intro hsame
    exact hnew (hsame ▸ hv)
  cases hstep
  case opens ctx pchan subId request id hfree =>
    have hlast : v = vm.nextVchan := Nat.le_antisymm (Nat.le_of_lt_succ hv) (Nat.le_of_not_lt hnew)
    subst hlast
    simp [HabVm.vchanAlloc, countOpen, Vchan.got]
  case receives pchan msg =>
    obtain ⟨dev, vchan, heq⟩ := vm.receive_eq pchan env msg
    rw [heq] at hsame
    exact absurd rfl hsame
  case advances i call hi hadvance =>
    cases hadvance
    case listenTake l ended request id haccept hfree =>
      have hlast : v = vm.nextVchan :=
        Nat.le_antisymm (Nat.le_of_lt_succ hv) (Nat.le_of_not_lt hnew)
      subst hlast
      refine ⟨?_, ?_, ?_, .inr ⟨i, l, ended, request, hi, ?_, ?_⟩⟩ <;>
        simp [backTake, HabVm.become, HabVm.vchanAlloc, backHear, Vchan.got]
    case frontErr | frontCancel | roundErr | roundCancel | roundRetry =>
      exact absurd (nextVchan_openErr _ _ _) hsame
    case sent | sendErr | dequeue | stopped => exact absurd nextVchan_release hsame
    all_goals exact absurd rfl hsame
  all_goals exact absurd rfl hsame

theorem Step.pchanClosed_eq (hstep : vm.Step env act vm' out) (hact : ∀ p, act ≠ .closePchan p) :
    vm'.pchanClosed = vm.pchanClosed := by
  cases hstep
  case closesPchan pchan => exact absurd rfl (hact pchan)
  case receives pchan msg =>
    obtain ⟨dev, vchan, heq⟩ := vm.receive_eq pchan env msg
    rw [heq]
  case advances i call hi hadvance =>
    have hrelease : ∀ {x : HabVm} {i w : ℕ} {next : Option Call},
        (x.release i w next).pchanClosed = x.pchanClosed := by
      intro x i w next
      rw [HabVm.release, HabVm.become, vchanPut]
      split <;> rfl
    have hopenErr : ∀ {w : ℕ} {pchan : HabPchan} {next : Option Call} {result : List OpenReturn},
        (vm.openErr i w pchan next result).pchanClosed = vm.pchanClosed := by
      intro w pchan next result
      exact @hrelease vm i w next
    cases hadvance
    case frontErr | frontCancel | roundErr | roundCancel | roundRetry => exact hopenErr
    case sent | sendErr | dequeue | stopped => exact hrelease
    all_goals rfl
  all_goals rfl

theorem On.step (h : vm.On p) (href : vm.Referenced) (hstep : vm.Step env act vm' out)
    (hclose : ∀ p, act ≠ .closePchan p)
    (hopen : ∀ ctx pchan subId request, act = .frontendOpen ctx pchan subId request → pchan = p)
    (hreceive : ∀ pchan msg, act = .receive pchan msg → pchan = p) : vm'.On p := by
  constructor
  case vchan =>
    intro v hv
    by_cases hold : v < vm.nextVchan
    · rw [((Later.step href hstep).vchan v hold).pchan]
      exact h.vchan v hold
    · obtain ⟨-, -, -, ⟨ctx, subId, request, hact⟩ | ⟨i, l, ended, request, hi, hpchan, -⟩⟩ :=
        hstep.new_vchan hv hold
      · exact hopen _ _ _ _ hact
      · rw [hpchan]
        exact h.requests request (requests_of_taken hi rfl)
  case requests =>
    intro r hr
    have hle := hstep.requests_le fun request ↦ request = r
    by_cases hold : vm.requests (fun request ↦ request = r) = 0
    · have harrives : act.arrives (fun request ↦ request = r) ≠ 0 := by omega
      cases act with
      | receive pchan msg =>
          cases msg with
          | request type xdata =>
              have heq : queuedRequest type pchan xdata = r := by
                by_contra hne
                simp [VmAct.arrives, hne] at harrives
              rw [← heq]
              exact hreceive _ _ rfl
          | data | close => exact absurd rfl harrives
      | _ => exact absurd rfl harrives
    · exact h.requests r hold
  case pchanClosed =>
    rw [hstep.pchanClosed_eq hclose]
    exact h.pchanClosed

theorem requests_ne_zero {r : HabOpenRequest HabPchan}
    (hr : vm.requests (fun request ↦ request = r) ≠ 0) {test : HabOpenRequest HabPchan → Bool}
    (htest : test r = true) : vm.requests test ≠ 0 := by
  by_cases hqueue : vm.dev.countQueued (fun request ↦ request = r) = 0
  · have hcalls : vm.calls.count (fun call ↦ call.taken.any fun request ↦ request = r) ≠ 0 := by
      rw [requests, hqueue, Nat.zero_add] at hr
      exact hr
    obtain ⟨i, call, hi, htaken⟩ := Pool.exists_of_count_ne_zero hcalls
    obtain ⟨request, hrequest, heq⟩ := (Option.any_eq_true _ _).mp htaken
    obtain rfl := of_decide_eq_true heq
    have hpos : 0 < vm.calls.count fun call ↦ call.taken.any test :=
      Pool.count_pos hi (by simp [hrequest, htest])
    rw [requests]
    omega
  · obtain ⟨node, hnode, heq⟩ := List.countP_pos_iff.mp (Nat.pos_of_ne_zero hqueue)
    obtain rfl := of_decide_eq_true heq
    have hpos : 0 < vm.dev.countQueued test := List.countP_pos_iff.mpr ⟨node, hnode, htest⟩
    rw [requests]
    omega

/-- After its INIT_CANCEL an open is over, and its vchan is gone. -/
theorem Step.gone_out (hsound : vm.Sound) (hfront : vm.AtFront) (hstep : vm.Step env act vm' out)
    {xdata : HabOpenSendData} (hmsg : .request .initCancel xdata ∈ out.map Prod.snd) :
    vm'.Gone xdata.openId := by
  cases hstep
  case advances i call hi hadvance =>
    have hround : ∀ {r : BackRound} {stage : RoundStage}, call ≠ .round r stage := by
      rintro r stage rfl
      cases hfront i _ hi
    cases hadvance
    case frontCancel o recv error =>
      cases List.mem_singleton.mp hmsg
      have hcount := hsound.referenced.refcount_ne_zero hi rfl
      refine ⟨o.vchan, ?_, ?_, ?_⟩
      · rw [nextVchan_openErr]
        exact hsound.referenced.lt_nextVchan hcount
      · rw [vchan_openErr, if_pos rfl]
        obtain ⟨refcount, rxList, heq⟩ := (vm.vchan o.vchan).put_eq
        rw [heq]
        exact (hsound.calls i _ hi).openId
      · rw [vchan_openErr, if_pos rfl, Vchan.refcount_put,
          hsound.referenced.opening i _ _ hi rfl rfl]
    case roundAck | roundCancel | roundRetry => exact absurd rfl hround
    case frontInit | frontAccept | sent | closeSent => cases List.mem_singleton.mp hmsg
    all_goals cases hmsg
  all_goals cases hmsg

/-- After its INIT_DONE or INIT_CANCEL an open is over. -/
theorem Step.done_out (hsound : vm.Sound) (hfront : vm.AtFront) (hstep : vm.Step env act vm' out)
    {type : HabPayloadType} {xdata : HabOpenSendData}
    (hmsg : .request type xdata ∈ out.map Prod.snd)
    (htype : type = .initDone ∨ type = .initCancel) : vm'.Done xdata.openId := by
  rcases htype with rfl | rfl
  case inr => exact (hstep.gone_out hsound hfront hmsg).done
  cases hstep
  case advances i call hi hadvance =>
    have hround : ∀ {r : BackRound} {stage : RoundStage}, call ≠ .round r stage := by
      rintro r stage rfl
      cases hfront i _ hi
    cases hadvance
    case frontInit | frontCancel => cases List.mem_singleton.mp hmsg
    case frontAccept o request =>
      cases List.mem_singleton.mp hmsg
      have hcount := hsound.referenced.refcount_ne_zero hi rfl
      refine ⟨o.vchan, hsound.referenced.lt_nextVchan hcount, (hsound.calls i _ hi).openId,
        .inl ?_⟩
      simp [returned, OpenReturn.returns, HabVm.frontAccept]
    case roundAck | roundCancel | roundRetry => exact absurd rfl hround
    case sent | closeSent => cases List.mem_singleton.mp hmsg
    all_goals cases hmsg
  all_goals cases hmsg

/-- A back end returns a vchan upon an INIT_DONE or INIT_CANCEL of its session. -/
theorem Step.accepted (hsound : vm.Sound) (hback : vm.AtBack) (hstep : vm.Step env act vm' out)
    (hsession : ∀ v < vm.nextVchan, (vm.vchan v).sessionId ≠ 0) (hv : vm'.returned v ≠ 0) :
    vm.returned v ≠ 0 ∨
      ∃ r, vm.requests (fun request ↦ request = r) ≠ 0 ∧
        (r.type = .initDone ∨ r.type = .initCancel) ∧
          r.xdata.openId = (vm'.vchan v).sessionId := by
  rcases hstep.returned_cases v with heq | ⟨i, call, hi, hcall, hvchan, hreturns⟩
  · exact .inl (heq ▸ hv)
  · right
    rcases hreturns with ⟨o, request, rfl⟩ | ⟨r, ended, request, rfl, -⟩
    · cases hback i _ hi
    · cases hcall
      have hround := hsound.calls i _ hi
      have hanswers := hround.answers request rfl
      have hne := hsession r.vchan
        (hsound.referenced.lt_nextVchan (hsound.referenced.refcount_ne_zero hi rfl))
      simp only [HabOpenRequest.answers, Bool.and_eq_true, Bool.or_eq_true, decide_eq_true_eq]
        at hanswers
      refine ⟨request, requests_of_taken hi rfl, hanswers.1.1.1, ?_⟩
      rw [hvchan, hround.openId]
      rcases hanswers.1.2 with hzero | heq
      · rw [hround.openId] at hne
        exact absurd hzero hne
      · exact heq

end HabVm

namespace Link

variable {s : Link} {p q : HabPchan} {env : Env} {act : VmAct} {vm' : HabVm}
  {out : List (HabPchan × HabMsg)} {f b : ℕ}

/-- The vchans are the two ends of a session. -/
structure Session (s : Link) (f b : ℕ) : Prop where
  front : f < s.front.nextVchan
  back : b < s.back.nextVchan
  sessionId : (s.back.vchan b).sessionId = (s.front.vchan f).sessionId

/-- What the requests and the messages on their way say is so. -/
structure Settled (p q : HabPchan) (s : Link) : Prop where
  handshake : s.Handshake
  frontSpeaks : s.front.Speaks
  backSpeaks : s.back.Speaks
  frontOn : s.front.On p
  backOn : s.back.On q
  done : ∀ type xdata, .request type xdata ∈ s.toBack →
    type = .initDone ∨ type = .initCancel → s.front.Done xdata.openId
  doneRequests : ∀ r, s.back.requests (fun request ↦ request = r) ≠ 0 →
    r.type = .initDone ∨ r.type = .initCancel → s.front.Done r.xdata.openId
  /-- What the back end has returned is no longer being opened on the front end. -/
  accepted : ∀ b, s.back.returned b ≠ 0 → s.front.Done (s.back.vchan b).sessionId
  fromFront : ∀ msg ∈ s.toBack, s.front.Uttered msg
  fromBack : ∀ msg ∈ s.toFront, s.back.Uttered msg

structure Traffic (p q : HabPchan) (s : Link) : Prop extends Settled p q s where
  /-- Nothing arrives before the vchan is returned. -/
  heard : ∀ f < s.front.nextVchan, (s.front.vchan f).got ≠ [] ∨ (s.front.vchan f).Ended →
    s.front.returned f ≠ 0
  conveysBack : ∀ f b, s.Session f b → (s.front.vchan f).Conveys (s.back.vchan b) s.toBack
  conveysFront : ∀ f b, s.Session f b → (s.back.vchan b).Conveys (s.front.vchan f) s.toFront

theorem Traffic.start (p q : HabPchan) : Link.start.Traffic p q := by
  have hon : ∀ p, HabVm.init.On p := fun p ↦
    ⟨fun v hv ↦ absurd hv (Nat.not_lt_zero v), fun r hr ↦ absurd rfl hr, rfl⟩
  constructor
  case toSettled =>
    constructor
    case handshake => exact .start
    case frontSpeaks | backSpeaks => exact .init
    case frontOn => exact hon p
    case backOn => exact hon q
    case done | fromFront | fromBack =>
      intro
      intros
      contradiction
    case doneRequests => exact fun r hr ↦ absurd rfl hr
    case accepted => exact fun b hb ↦ absurd rfl hb
  case heard => exact fun f hf ↦ absurd hf (Nat.not_lt_zero f)
  case conveysBack | conveysFront => exact fun f b h ↦ absurd h.front (Nat.not_lt_zero f)

/-! ## One vchan on the other end -/

/-- Two vchans of the front end are not in one session. -/
theorem Handshake.front_unique (h : s.Handshake) {f f' : ℕ} (hf : f < s.front.nextVchan)
    (hf' : f' < s.front.nextVchan)
    (heq : (s.front.vchan f).sessionId = (s.front.vchan f').sessionId) : f = f' :=
  h.numbered.inj f f' hf hf' heq

/-- A vchan that the front end has returned is in session with one vchan only. -/
theorem Handshake.back_unique (h : s.Handshake) (hf : s.front.returned f ≠ 0) {b b' : ℕ}
    (hb : s.Session f b) (hb' : s.Session f b') : b = b' := by
  have hasked := h.asked f hb.front (.inr hf)
  have hsessions : s.back.sessions (s.front.vchan f).sessionId ≤ 1 :=
    (Nat.le_add_left _ _).trans hasked
  apply Pool.eq_of_countBelow_le_one hsessions hb.back hb'.back rfl rfl
  · exact decide_eq_true hb.sessionId
  · exact decide_eq_true hb'.sessionId

theorem Handshake.otherendId_front (h : s.Handshake) (hf : s.front.returned f ≠ 0)
    (hb : s.Session f b) : (s.front.vchan f).otherendId = (s.back.vchan b).id := by
  obtain ⟨w, hw, hsession, hid⟩ := h.paired f hf
  rw [← hid, h.back_unique hf hb ⟨hb.front, hw, hsession⟩]

theorem Handshake.otherendId_back (h : s.Handshake) (hb : s.Session f b) :
    (s.back.vchan b).otherendId = (s.front.vchan f).id := by
  obtain ⟨v, hv, hsession, hid⟩ := h.backVchan b hb.back
  rw [hid (.inl rfl), h.front_unique hv hb.front (hsession.trans hb.sessionId)]

theorem Handshake.exists_session (h : s.Handshake) (hb : b < s.back.nextVchan) :
    ∃ f, s.Session f b := by
  obtain ⟨v, hv, hsession, -⟩ := h.backVchan b hb
  exact ⟨v, hv, hb, hsession.symm⟩

/-- No other vchan has been asked for in a session that the front end has returned. -/
theorem Handshake.requests_asksFor (h : s.Handshake) (hf : s.front.returned f ≠ 0)
    {r : HabOpenRequest HabPchan} (hr : s.back.requests (fun request ↦ request = r) ≠ 0)
    (htype : r.type = .init ∨ r.type = .initCancel) :
    r.xdata.openId ≠ (s.front.vchan f).sessionId := by
  intro hopenId
  obtain ⟨w, hw, hsession, -⟩ := h.paired f hf
  have hasked := h.asked f (h.front.once.lt f hf) (.inr hf)
  have hsessions : 0 < s.back.sessions (s.front.vchan f).sessionId :=
    Pool.countBelow_pos hw rfl (decide_eq_true hsession)
  have hrequests : s.back.requests (HabOpenRequest.asksFor (s.front.vchan f).sessionId) ≠ 0 := by
    apply HabVm.requests_ne_zero hr
    rcases htype with htype | htype <;> simp [HabOpenRequest.asksFor, htype, hopenId]
  rw [Link.asked] at hasked
  omega

/-! ## What is settled stays so -/

/-- An open that is over, of a vchan that is there: it has been returned. -/
theorem Handshake.returned_of_done (h : s.Handshake) (hf : f < s.front.nextVchan)
    (hdone : s.front.Done (s.front.vchan f).sessionId) (hcount : (s.front.vchan f).refcount ≠ 0) :
    s.front.returned f ≠ 0 := by
  obtain ⟨v, hv, hsession, hover⟩ := hdone
  obtain rfl := h.front_unique hv hf hsession
  rcases hover with hreturned | hgone
  · exact hreturned
  · exact absurd hgone hcount

theorem Handshake.session_ne_zero (h : s.Handshake) (hb : b < s.back.nextVchan) :
    (s.back.vchan b).sessionId ≠ 0 := by
  intro hzero
  obtain ⟨v, hv, hsession, -⟩ := h.backVchan b hb
  have hpos := (h.numbered.le v hv).1
  rw [hsession, hzero] at hpos
  exact absurd hpos (by decide)

theorem Settled.frontStep (h : s.Settled p q) {toFront : List HabMsg}
    (hact : act.onFront p = true ∨ ∃ msg, act = .receive p msg)
    (hstep : s.front.Step env act vm' out)
    (hnext : Handshake ⟨vm', s.back, s.toBack ++ out.map Prod.snd, toFront⟩)
    (hkeep : ∀ msg ∈ toFront, msg ∈ s.toFront) :
    Settled p q ⟨vm', s.back, s.toBack ++ out.map Prod.snd, toFront⟩ := by
  have href := h.handshake.front.referenced
  constructor
  case handshake => exact hnext
  case frontSpeaks => exact h.frontSpeaks.step href h.handshake.front.calls hstep
  case backSpeaks => exact h.backSpeaks
  case frontOn =>
    apply h.frontOn.step href hstep
    · rintro r rfl
      simp [VmAct.onFront] at hact
    · rintro ctx pchan subId request rfl
      simpa [VmAct.onFront] using hact
    · rintro pchan msg rfl
      simpa [VmAct.onFront] using hact
  case backOn => exact h.backOn
  case done =>
    intro type xdata hmsg htype
    rcases List.mem_append.mp hmsg with hmsg | hmsg
    · exact hstep.done href (h.done type xdata hmsg htype)
    · exact hstep.done_out h.handshake.front h.handshake.atFront hmsg htype
  case doneRequests => exact fun r hr htype ↦ hstep.done href (h.doneRequests r hr htype)
  case accepted => exact fun b hb ↦ hstep.done href (h.accepted b hb)
  case fromFront =>
    intro msg hmsg
    rcases List.mem_append.mp hmsg with hmsg | hmsg
    · exact hstep.uttered h.handshake.front (h.fromFront msg hmsg)
    · exact hstep.uttered_out h.frontSpeaks h.handshake.front hmsg
  case fromBack => exact fun msg hmsg ↦ h.fromBack msg (hkeep msg hmsg)

theorem Settled.backStep (h : s.Settled p q) {toBack : List HabMsg}
    (hact : act.onBack = true ∨ ∃ msg, act = .receive q msg)
    (hstep : s.back.Step env act vm' out)
    (hnext : Handshake ⟨s.front, vm', toBack, s.toFront ++ out.map Prod.snd⟩)
    (harrives : ∀ r, act.arrives (fun request ↦ request = r) ≠ 0 →
      r.type = .initDone ∨ r.type = .initCancel → s.front.Done r.xdata.openId)
    (hkeep : ∀ msg ∈ toBack, msg ∈ s.toBack) :
    Settled p q ⟨s.front, vm', toBack, s.toFront ++ out.map Prod.snd⟩ := by
  have href := h.handshake.back.referenced
  constructor
  case handshake => exact hnext
  case frontSpeaks => exact h.frontSpeaks
  case backSpeaks => exact h.backSpeaks.step href h.handshake.back.calls hstep
  case frontOn => exact h.frontOn
  case backOn =>
    apply h.backOn.step href hstep
    · rintro r rfl
      simp [VmAct.onBack] at hact
    · rintro ctx pchan subId request rfl
      simp [VmAct.onBack] at hact
    · rintro pchan msg rfl
      simpa [VmAct.onBack] using hact
  case done => exact fun type xdata hmsg ↦ h.done type xdata (hkeep _ hmsg)
  case doneRequests =>
    intro r hr htype
    have hnew : vm'.requests (fun request ↦ request = r) ≠ 0 := hr
    have hle := hstep.requests_le fun request ↦ request = r
    by_cases hold : s.back.requests (fun request ↦ request = r) = 0
    · apply harrives r _ htype
      intro hzero
      omega
    · exact h.doneRequests r hold htype
  case accepted =>
    intro b hb
    show s.front.Done (vm'.vchan b).sessionId
    rcases hstep.accepted h.handshake.back h.handshake.atBack
      (fun v hv ↦ h.handshake.session_ne_zero hv) hb with hold | ⟨r, hr, htype, hopenId⟩
    · rw [((HabVm.Later.step href hstep).vchan b (h.handshake.back.once.lt b hold)).sessionId]
      exact h.accepted b hold
    · rw [← hopenId]
      exact h.doneRequests r hr htype
  case fromFront => exact fun msg hmsg ↦ h.fromFront msg (hkeep msg hmsg)
  case fromBack =>
    intro msg hmsg
    rcases List.mem_append.mp hmsg with hmsg | hmsg
    · exact hstep.uttered h.handshake.back (h.fromBack msg hmsg)
    · exact hstep.uttered_out h.backSpeaks h.handshake.back hmsg

/-! ## A step of a VM -/

/-- A vchan that has come to the front end is in no session yet. -/
theorem Session.old {toBack toFront : List HabMsg} (h : s.Handshake)
    (hnext : Handshake ⟨vm', s.back, toBack, toFront⟩)
    (hlater : s.front.Later vm') (hsession : Session ⟨vm', s.back, toBack, toFront⟩ f b) :
    s.Session f b := by
  obtain ⟨v, hv, heq, -⟩ := h.backVchan b hsession.back
  have hsame : v = f := by
    apply hnext.front_unique (Nat.lt_of_lt_of_le hv hlater.nextVchan) hsession.front
    rw [← hsession.sessionId, (hlater.vchan v hv).sessionId]
    exact heq
  subst hsame
  exact ⟨hv, hsession.back, heq.symm⟩

/-- A session is new on the back end before the front end returns its vchan. -/
theorem Session.returned_of_new {toBack toFront : List HabMsg} (h : s.Handshake)
    (hact : act.onBack = true ∨ ∃ msg, act = .receive q msg)
    (hstep : s.back.Step env act vm' out)
    (hsession : Session ⟨s.front, vm', toBack, toFront⟩ f b) (hnew : ¬ b < s.back.nextVchan) :
    s.front.returned f = 0 := by
  obtain ⟨i, call, request, hi, htaken, htype, hopenId, -⟩ :=
    hstep.taken_of_new h.back.calls hact hsession.back hnew
  by_contra hreturned
  apply h.requests_asksFor hreturned (HabVm.requests_of_taken hi htaken) htype
  rw [← hopenId]
  exact hsession.sessionId

theorem Session.oldBack {toBack toFront : List HabMsg} (hlater : s.back.Later vm')
    (hsession : Session ⟨s.front, vm', toBack, toFront⟩ f b) (hold : b < s.back.nextVchan) :
    s.Session f b := by
  refine ⟨hsession.front, hold, ?_⟩
  rw [← (hlater.vchan b hold).sessionId]
  exact hsession.sessionId

theorem Traffic.frontStep (h : s.Traffic p q) (hact : act.onFront p = true)
    (hstep : s.front.Step env act vm' out)
    (hnext : Settled p q ⟨vm', s.back, s.toBack ++ out.map Prod.snd, s.toFront⟩) :
    Traffic p q ⟨vm', s.back, s.toBack ++ out.map Prod.snd, s.toFront⟩ := by
  have href := h.handshake.front.referenced
  have hlater := HabVm.Later.step href hstep
  have hreceive : ∀ pchan msg, act ≠ .receive pchan msg := by
    rintro pchan msg rfl
    simp [VmAct.onFront] at hact
  have hmoved : ∀ f < s.front.nextVchan, (s.front.vchan f).Moved (vm'.vchan f) :=
    fun f hf ↦ hstep.moved h.frontSpeaks hreceive hf
  have hspoke := hstep.spoke h.frontSpeaks h.handshake.front.calls
  constructor
  case toSettled => exact hnext
  case heard =>
    intro f hf hheard
    change (vm'.vchan f).got ≠ [] ∨ (vm'.vchan f).Ended at hheard
    by_cases hold : f < s.front.nextVchan
    · apply hstep.returned_ne_zero
      apply h.heard f hold
      exact hheard.imp (hmoved f hold).got_ne_nil ((hmoved f hold).ended (hlater.vchan f hold))
    · obtain ⟨-, hgot, hopen, -⟩ := hstep.new_vchan hf hold
      rw [hnext.frontOn.vchan f hf, h.frontOn.pchanClosed] at hopen
      rcases hheard with hheard | ⟨-, -, hended⟩
      · exact absurd hgot hheard
      · exact absurd (hopen.symm.trans hended) Bool.false_ne_true
  case conveysBack =>
    intro f b hsession
    have hold := hsession.old h.handshake hnext.handshake hlater
    have hconveys := h.conveysBack f b hold
    cases hspoke with
    | silent hlog hout =>
        apply hconveys.append
        · rcases hlog f with heq | ⟨heq, -⟩
          · exact heq
          · exact absurd heq (Nat.ne_of_lt hold.front)
        · exact Vchan.inFlight_requests hout
    | spoken w entry hw hsendable hlog hother hout =>
        show (vm'.vchan f).Conveys (s.back.vchan b) (s.toBack ++ out.map Prod.snd)
        rw [hout]
        by_cases hwf : f = w
        · subst hwf
          exact hconveys.spoken hlog hold.sessionId.symm
        · apply hconveys.append (hother f hwf)
          rw [Vchan.inFlight_outgoing, if_neg]
          intro heq
          apply hwf
          exact h.handshake.front_unique hold.front (h.handshake.front.once.lt w hw)
            (hold.sessionId.symm.trans heq.symm)
  case conveysFront =>
    intro f b hsession
    have hold := hsession.old h.handshake hnext.handshake hlater
    exact (h.conveysFront f b hold).moved (hmoved f hold.front) (hlater.vchan f hold.front)

/-- Nothing is on its way to a vchan that the front end has not returned. -/
theorem Settled.inFlight_toFront (h : s.Settled p q) (hf : f < s.front.nextVchan)
    (hcount : (s.front.vchan f).refcount ≠ 0) (hnot : s.front.returned f = 0) :
    inFlight (s.front.vchan f).sessionId s.toFront = [] := by
  rw [inFlight, List.filterMap_eq_nil_iff]
  intro msg hmsg
  rcases h.fromBack msg hmsg with ⟨type, xdata, rfl⟩ | ⟨w, entry, hw, rfl, -⟩
  · rfl
  · have hne : (s.back.vchan w).sessionId ≠ (s.front.vchan f).sessionId := by
      intro heq
      have hdone := h.accepted w hw
      rw [heq] at hdone
      exact h.handshake.returned_of_done hf hdone hcount hnot
    cases entry <;> simp [Vchan.outgoing, HabMsg.entry, hne]

theorem Settled.inFlight_toBack (h : s.Settled p q) (hf : f < s.front.nextVchan)
    (hnot : s.front.returned f = 0) : inFlight (s.front.vchan f).sessionId s.toBack = [] := by
  rw [inFlight, List.filterMap_eq_nil_iff]
  intro msg hmsg
  rcases h.fromFront msg hmsg with ⟨type, xdata, rfl⟩ | ⟨w, entry, hw, rfl, -⟩
  · rfl
  · have hne : (s.front.vchan w).sessionId ≠ (s.front.vchan f).sessionId := by
      intro heq
      obtain rfl := h.handshake.front_unique (h.handshake.front.once.lt w hw) hf heq
      exact hw hnot
    cases entry <;> simp [Vchan.outgoing, HabMsg.entry, hne]

theorem Traffic.backStep (h : s.Traffic p q) (hact : act.onBack = true)
    (hstep : s.back.Step env act vm' out)
    (hnext : Settled p q ⟨s.front, vm', s.toBack, s.toFront ++ out.map Prod.snd⟩) :
    Traffic p q ⟨s.front, vm', s.toBack, s.toFront ++ out.map Prod.snd⟩ := by
  have href := h.handshake.back.referenced
  have hlater := HabVm.Later.step href hstep
  have hreceive : ∀ pchan msg, act ≠ .receive pchan msg := by
    rintro pchan msg rfl
    simp [VmAct.onBack] at hact
  have hspoke := hstep.spoke h.backSpeaks h.handshake.back.calls
  constructor
  case toSettled => exact hnext
  case heard => exact h.heard
  case conveysBack =>
    intro f b hsession
    by_cases hold : b < s.back.nextVchan
    · exact (h.conveysBack f b (hsession.oldBack hlater hold)).moved
        (hstep.moved h.backSpeaks hreceive hold) (hlater.vchan b hold)
    · have hnot := hsession.returned_of_new h.handshake (q := q) (.inl hact) hstep hold
      obtain ⟨-, hgot, hopen, -⟩ := hstep.new_vchan hsession.back hold
      have hlog : (s.front.vchan f).log = [] := by
        by_contra hlog
        exact h.frontSpeaks.log f hlog hnot
      rw [hnext.backOn.vchan b hsession.back, h.backOn.pchanClosed] at hopen
      show (s.front.vchan f).Conveys (vm'.vchan b) s.toBack
      rw [Vchan.Conveys, Vchan.sent, hlog, hgot, show (vm'.vchan b).sessionId =
        (s.front.vchan f).sessionId from hsession.sessionId,
        h.toSettled.inFlight_toBack hsession.front hnot]
      apply Conduit.conveys_nil
      rintro ⟨-, -, hended⟩
      exact absurd (hopen.symm.trans hended) Bool.false_ne_true
  case conveysFront =>
    intro f b hsession
    show (vm'.vchan b).Conveys (s.front.vchan f) (s.toFront ++ out.map Prod.snd)
    by_cases hold : b < s.back.nextVchan
    · have hconveys := h.conveysFront f b (hsession.oldBack hlater hold)
      cases hspoke with
      | silent hlog hout =>
          apply hconveys.append
          · rcases hlog b with heq | ⟨heq, -⟩
            · exact heq
            · exact absurd heq (Nat.ne_of_lt hold)
          · exact Vchan.inFlight_requests hout
      | spoken w entry hw hsendable hlog hother hout =>
          rw [hout]
          by_cases hwb : b = w
          · subst hwb
            exact hconveys.spoken hlog (hsession.oldBack hlater hold).sessionId
          · by_cases hlistening : (s.front.vchan f).Listening
            · apply hconveys.append (hother b hwb)
              rw [Vchan.inFlight_outgoing, if_neg]
              intro heq
              apply hwb
              have hdone := h.accepted w hw
              rw [heq] at hdone
              exact h.handshake.back_unique
                (h.handshake.returned_of_done hsession.front hdone hlistening.1)
                (hsession.oldBack hlater hold) ⟨hsession.front, h.handshake.back.once.lt w hw, heq⟩
            · exact hconveys.deaf (hother b hwb) hlistening
    · have hnot := hsession.returned_of_new h.handshake (q := q) (.inl hact) hstep hold
      obtain ⟨hlog, -, -, -⟩ := hstep.new_vchan hsession.back hold
      have hgot : (s.front.vchan f).got = [] := by
        by_contra hgot
        exact h.heard f hsession.front (.inl hgot) hnot
      have hended : ¬ (s.front.vchan f).Ended :=
        fun hended ↦ h.heard f hsession.front (.inr hended) hnot
      have hnil : Conduit.Conveys (vm'.vchan b).sent (s.front.vchan f).got []
          (s.front.vchan f).Listening (s.front.vchan f).Ended := by
        rw [Vchan.sent, hlog, hgot]
        exact Conduit.conveys_nil hended
      by_cases hlistening : (s.front.vchan f).Listening
      · rw [Vchan.Conveys]
        have hflying : inFlight (s.front.vchan f).sessionId (s.toFront ++ out.map Prod.snd) = [] :=
          hnext.inFlight_toFront hsession.front hlistening.1 hnot
        rw [hflying]
        exact hnil
      · exact Conduit.Conveys.deaf hnil hlistening

/-! ## A message arrives -/

theorem habVcidGetId_id (vchan : Vchan) : habVcidGetId vchan.id = vchan.idr :=
  habVcidGetId_habVcid _ _

theorem id_ne_zero {vm : HabVm} (href : vm.Referenced) {v : ℕ} (hv : v < vm.nextVchan) :
    (vm.vchan v).id ≠ 0 := habVcid_ne_zero (href.idr_ne v hv)

/-- What the front end has sent is for the vchan of its session. -/
theorem Settled.hears_back (h : s.Settled p q) (hf : s.front.returned f ≠ 0)
    (hsession : s.Session f b) (hlistening : (s.back.vchan b).Listening) :
    (s.back.vchan b).Hears q (habVcidGetId (s.front.vchan f).otherendId)
      (s.front.vchan f).sessionId := by
  refine ⟨hlistening, h.backOn.vchan b hsession.back, ?_, hsession.sessionId, ?_⟩
  · rw [h.handshake.otherendId_front hf hsession, habVcidGetId_id]
  · rw [h.handshake.otherendId_back hsession]
    exact id_ne_zero h.handshake.front.referenced hsession.front

theorem Settled.hears_front (h : s.Settled p q) (hf : s.front.returned f ≠ 0)
    (hsession : s.Session f b) (hlistening : (s.front.vchan f).Listening) :
    (s.front.vchan f).Hears p (habVcidGetId (s.back.vchan b).otherendId)
      (s.back.vchan b).sessionId := by
  refine ⟨hlistening, h.frontOn.vchan f hsession.front, ?_, hsession.sessionId.symm, ?_⟩
  · rw [h.handshake.otherendId_back hsession, habVcidGetId_id]
  · rw [h.handshake.otherendId_front hf hsession]
    exact id_ne_zero h.handshake.back.referenced hsession.back

theorem log_receive (vm : HabVm) (pchan : HabPchan) (env : Env) (msg : HabMsg) (v : ℕ) :
    ((vm.receive pchan env msg).vchan v).log = (vm.vchan v).log := by
  obtain ⟨rxList, otherendClosed, heq⟩ := HabVm.quiet_receive vm pchan env msg v
  rw [heq]

theorem vchan_receive_request (vm : HabVm) (pchan : HabPchan) (env : Env) (type : HabPayloadType)
    (xdata : HabOpenSendData) :
    (vm.receive pchan env (.request type xdata)).vchan = vm.vchan := by
  simp only [HabVm.receive]
  split <;> rfl

theorem nextVchan_receive (vm : HabVm) (pchan : HabPchan) (env : Env) (msg : HabMsg) :
    (vm.receive pchan env msg).nextVchan = vm.nextVchan := by
  obtain ⟨dev, vchan, heq⟩ := vm.receive_eq pchan env msg
  rw [heq]

theorem returned_receive (vm : HabVm) (pchan : HabPchan) (env : Env) (msg : HabMsg) (v : ℕ) :
    (vm.receive pchan env msg).returned v = vm.returned v := by
  obtain ⟨dev, vchan, heq⟩ := vm.receive_eq pchan env msg
  rw [heq]
  rfl

theorem Traffic.deliverBack (h : s.Traffic p q) (halloc : env.alloc = true) {msg : HabMsg}
    {rest : List HabMsg} (hmsgs : s.toBack = msg :: rest)
    (hnext : Settled p q ⟨s.front, s.back.receive q env msg, rest, s.toFront⟩) :
    Traffic p q ⟨s.front, s.back.receive q env msg, rest, s.toFront⟩ := by
  have href := h.handshake.back.referenced
  have hlater : s.back.Later (s.back.receive q env msg) := .step href (.receives q msg)
  have hsame : ∀ {f b : ℕ}, Session ⟨s.front, s.back.receive q env msg, rest, s.toFront⟩ f b →
      s.Session f b := by
    intro f b hsession
    exact hsession.oldBack hlater ((nextVchan_receive _ _ _ _).subst hsession.back)
  constructor
  case toSettled => exact hnext
  case heard => exact h.heard
  case conveysBack =>
    intro f b hsession
    have hold := hsame hsession
    have hconveys := h.conveysBack f b hold
    rw [hmsgs] at hconveys
    rcases h.fromFront msg (by simp [hmsgs]) with
      ⟨type, xdata, rfl⟩ | ⟨w, entry, hw, rfl, hsendable⟩
    · show (s.front.vchan f).Conveys ((s.back.receive q env (.request type xdata)).vchan b) rest
      rw [vchan_receive_request]
      exact hconveys.skip rfl
    · apply HabVm.conveys_receive href halloc hconveys hsendable
      intro heq hlistening
      obtain rfl := h.handshake.front_unique (h.handshake.front.once.lt w hw) hold.front
        (heq.trans hold.sessionId)
      exact h.toSettled.hears_back hw hold hlistening
  case conveysFront =>
    intro f b hsession
    exact (h.conveysFront f b (hsame hsession)).quiet (log_receive s.back q env msg b)

theorem Traffic.deliverFront (h : s.Traffic p q) (halloc : env.alloc = true) {msg : HabMsg}
    {rest : List HabMsg} (hmsgs : s.toFront = msg :: rest)
    (hnext : Settled p q ⟨s.front.receive p env msg, s.back, s.toBack, rest⟩) :
    Traffic p q ⟨s.front.receive p env msg, s.back, s.toBack, rest⟩ := by
  have href := h.handshake.front.referenced
  have hlater : s.front.Later (s.front.receive p env msg) := .step href (.receives p msg)
  have hsame : ∀ {f b : ℕ}, Session ⟨s.front.receive p env msg, s.back, s.toBack, rest⟩ f b →
      s.Session f b := by
    intro f b hsession
    have hfront : f < s.front.nextVchan := (nextVchan_receive _ _ _ _).subst hsession.front
    refine ⟨hfront, hsession.back, ?_⟩
    rw [← (hlater.vchan f hfront).sessionId]
    exact hsession.sessionId
  have hfrom := h.fromBack msg (by simp [hmsgs])
  constructor
  case toSettled => exact hnext
  case heard =>
    intro f hf hheard
    have hold : f < s.front.nextVchan := (nextVchan_receive _ _ _ _).subst hf
    show (s.front.receive p env msg).returned f ≠ 0
    rw [returned_receive]
    rcases hfrom with ⟨type, xdata, rfl⟩ | ⟨w, entry, hw, rfl, -⟩
    · apply h.heard f hold
      rw [← vchan_receive_request s.front p env type xdata]
      exact hheard
    · by_cases hears : (s.front.vchan f).Hears p (habVcidGetId (s.back.vchan w).otherendId)
        (s.back.vchan w).sessionId
      · have hdone := h.accepted w hw
        rw [← hears.2.2.2.1] at hdone
        exact h.handshake.returned_of_done hold hdone hears.1.1
      · apply h.heard f hold
        rw [← HabVm.receive_outgoing_eq href halloc hears]
        exact hheard
  case conveysBack =>
    intro f b hsession
    exact (h.conveysBack f b (hsame hsession)).quiet (log_receive s.front p env msg f)
  case conveysFront =>
    intro f b hsession
    have hold := hsame hsession
    have hconveys := h.conveysFront f b hold
    rw [hmsgs] at hconveys
    rcases hfrom with ⟨type, xdata, rfl⟩ | ⟨w, entry, hw, rfl, hsendable⟩
    · show (s.back.vchan b).Conveys ((s.front.receive p env (.request type xdata)).vchan f) rest
      rw [vchan_receive_request]
      exact hconveys.skip rfl
    · apply HabVm.conveys_receive href halloc hconveys hsendable
      intro heq hlistening
      have hdone := h.accepted w hw
      rw [heq] at hdone
      have hreturned := h.handshake.returned_of_done hold.front hdone hlistening.1
      obtain rfl := h.handshake.back_unique hreturned hold
        ⟨hold.front, h.handshake.back.once.lt w hw, heq⟩
      exact h.toSettled.hears_front hreturned hold hlistening

end Link

/-- Memory is there for what arrives. -/
def LinkAct.allocates : LinkAct → Bool
  | .deliverBack env | .deliverFront env => env.alloc
  | .front _ _ | .back _ _ => true

namespace Link

variable {s t : Link} {p q : HabPchan} {act : LinkAct} {acts : List LinkAct}

theorem Settled.step (h : s.Settled p q) (hstep : s.step p q act = some t)
    (hcounter : t.front.openIdCounter < 2 ^ 32) : t.Settled p q := by
  have hnext := h.handshake.step (step_cases hstep) hcounter
  refine step_elim (motive := fun _ t ↦ t.Handshake → t.Settled p q) hstep ?_ ?_ ?_ ?_ hnext
  · intro act env vm' out hact hvm hnext
    exact h.frontStep (.inl hact) (HabVm.step_cases hvm) hnext fun msg hmsg ↦ hmsg
  · intro act env vm' out hact hvm hnext
    apply h.backStep (.inl hact) (HabVm.step_cases hvm) hnext
    · intro r hr
      cases act <;> first | exact absurd rfl hr | simp [VmAct.onBack] at hact
    · exact fun msg hmsg ↦ hmsg
  · intro env msg rest hmsgs hnext
    have hsettled : Settled p q ⟨s.front, s.back.receive q env msg, rest,
        s.toFront ++ ([] : List (HabPchan × HabMsg)).map Prod.snd⟩ := by
      apply h.backStep (.inr ⟨msg, rfl⟩) (.receives q msg)
      · rw [List.map_nil, List.append_nil]
        exact hnext
      · intro r hr htype
        obtain ⟨type, xdata, rfl, heq, hopenId, -⟩ := arrives_eq hr
        rw [hopenId]
        exact h.done type xdata (by simp [hmsgs]) (heq ▸ htype)
      · exact fun msg' hmsg ↦ hmsgs ▸ List.mem_cons_of_mem msg hmsg
    rw [List.map_nil, List.append_nil] at hsettled
    exact hsettled
  · intro env msg rest hmsgs hnext
    have hsettled : Settled p q ⟨s.front.receive p env msg, s.back,
        s.toBack ++ ([] : List (HabPchan × HabMsg)).map Prod.snd, rest⟩ := by
      apply h.frontStep (.inr ⟨msg, rfl⟩) (.receives p msg)
      · rw [List.map_nil, List.append_nil]
        exact hnext
      · exact fun msg' hmsg ↦ hmsgs ▸ List.mem_cons_of_mem msg hmsg
    rw [List.map_nil, List.append_nil] at hsettled
    exact hsettled

theorem Traffic.step (h : s.Traffic p q) (halloc : act.allocates = true)
    (hstep : s.step p q act = some t) (hcounter : t.front.openIdCounter < 2 ^ 32) :
    t.Traffic p q := by
  have hnext := h.toSettled.step hstep hcounter
  refine step_elim (motive := fun act t ↦ act.allocates = true → t.Settled p q → t.Traffic p q)
    hstep ?_ ?_ ?_ ?_ halloc hnext
  · exact fun act env vm' out hact hvm _ hnext ↦ h.frontStep hact (HabVm.step_cases hvm) hnext
  · exact fun act env vm' out hact hvm _ hnext ↦ h.backStep hact (HabVm.step_cases hvm) hnext
  · exact fun env msg rest hmsgs halloc hnext ↦ h.deliverBack halloc hmsgs hnext
  · exact fun env msg rest hmsgs halloc hnext ↦ h.deliverFront halloc hmsgs hnext

theorem Traffic.exec (h : s.Traffic p q) (halloc : ∀ act ∈ acts, act.allocates = true)
    (hrun : Runs.exec (Link.step p q) s acts = some t) (hcounter : t.front.openIdCounter < 2 ^ 32) :
    t.Traffic p q := by
  induction acts generalizing s with
  | nil =>
      cases hrun
      exact h
  | cons act acts ih =>
      obtain ⟨u, hu, hrest⟩ := Runs.exec_cons_eq_some.mp hrun
      have hle : u.front.openIdCounter ≤ t.front.openIdCounter := by
        refine Runs.invariant_of_exec
          (I := fun s ↦ u.front.openIdCounter ≤ s.front.openIdCounter) ?_ (Nat.le_refl _) hrest
        intro v act w hv hvw
        exact hv.trans (step_cases hvw).openIdCounter_le
      have hnext := h.step (halloc act (by simp)) hu (Nat.lt_of_le_of_lt hle hcounter)
      exact ih hnext (fun act hact ↦ halloc act (List.mem_cons_of_mem _ hact)) hrest

end Link

/-! ## What is handed out -/

namespace Vchan

/-- The data messages that `hab_msg_dequeue` has handed out. -/
def handedOut (vchan : Vchan) : List Message := vchan.handed.filter Message.isMsg

/-- The data messages that `hab_vchan_send` has accepted. -/
def accepted (vchan : Vchan) : List Message := vchan.log.reduceOption.filter Message.isMsg

def acceptedBeforeClose (vchan : Vchan) : List Message :=
  (vchan.log.takeWhile Option.isSome).reduceOption.filter Message.isMsg

/-- What one end hands out of what the other end has accepted. -/
structure Delivers (src dst : Vchan) : Prop where
  handedOut : dst.handedOut <+: src.accepted
  enodev : dst.refcount ≠ 0 → dst.closed = false → ∀ rsize waited,
    (habMsgDequeue dst.rxList dst.otherendClosed rsize waited).1.1 = some .enodev →
      none ∈ src.log ∧ dst.handedOut = src.acceptedBeforeClose

variable {src dst : Vchan} {msgs : List HabMsg}

theorem reduceOption_filter_all (test : Message → Bool) (log : List (Option Message)) :
    (log.filter fun entry ↦ entry.all test).reduceOption = log.reduceOption.filter test := by
  induction log with
  | nil => rfl
  | cons entry log ih =>
      cases entry with
      | none => simpa [List.reduceOption] using ih
      | some message =>
          by_cases h : test message = true <;> simpa [List.reduceOption, h] using ih

theorem takeWhile_filter_all (test : Message → Bool) (log : List (Option Message)) :
    (log.filter fun entry ↦ entry.all test).takeWhile Option.isSome =
      ((log.takeWhile Option.isSome).reduceOption.filter test).map some := by
  induction log with
  | nil => rfl
  | cons entry log ih =>
      cases entry with
      | none => rfl
      | some message =>
          by_cases h : test message = true <;> simpa [List.reduceOption, h] using ih

theorem Conveys.delivers (h : src.Conveys dst msgs) : src.Delivers dst := by
  have hpre : dst.handedOut <+: dst.got := (List.prefix_append _ _).filter _
  constructor
  case handedOut =>
    rw [accepted, ← reduceOption_filter_all]
    exact hpre.trans (Conduit.Conveys.got_prefix h)
  case enodev =>
    intro hcount hclosed rsize waited herror
    cases hrx : dst.rxList with
    | cons message rest =>
        by_cases hsize : message.data.length ≤ rsize <;>
          simp [habMsgDequeue, hrx, hsize] at herror
    | nil =>
        have hother : dst.otherendClosed = true := by
          by_contra hopen
          cases waited <;> simp [habMsgDequeue, hrx, hopen] at herror
        have hended : dst.Ended := ⟨hcount, hclosed, hother⟩
        have hgot := Conduit.Conveys.got_eq h hended
        constructor
        · exact (List.mem_filter.mp (Conduit.Conveys.none_mem h hended)).1
        · rw [got, hrx, List.append_nil, sent, takeWhile_filter_all] at hgot
          exact List.map_injective_iff.mpr (Option.some_injective _) hgot

end Vchan

namespace Link

/-- Sessions keep their data messages, each its own. -/
structure Lossless (s : Link) : Prop where
  toBack : ∀ f b, s.Session f b → (s.front.vchan f).Delivers (s.back.vchan b)
  toFront : ∀ f b, s.Session f b → (s.back.vchan b).Delivers (s.front.vchan f)
  atBack : ∀ b < s.back.nextVchan, ∃! f, s.Session f b
  atFront : ∀ f < s.front.nextVchan, (s.front.vchan f).handedOut ≠ [] → ∃! b, s.Session f b

variable {s : Link} {p q : HabPchan}

theorem Traffic.lossless (h : s.Traffic p q) : s.Lossless := by
  constructor
  case toBack => exact fun f b hsession ↦ (h.conveysBack f b hsession).delivers
  case toFront => exact fun f b hsession ↦ (h.conveysFront f b hsession).delivers
  case atBack =>
    intro b hb
    obtain ⟨f, hf⟩ := h.handshake.exists_session hb
    refine ⟨f, hf, fun f' hf' ↦ ?_⟩
    exact h.handshake.front_unique hf'.front hf.front (hf'.sessionId.symm.trans hf.sessionId)
  case atFront =>
    intro f hf hhanded
    have hgot : (s.front.vchan f).got ≠ [] := by
      intro hnil
      rw [Vchan.got, List.filter_append, List.append_eq_nil_iff] at hnil
      exact hhanded hnil.1
    have hreturned := h.heard f hf (.inl hgot)
    obtain ⟨b, hb, hsession, -⟩ := h.handshake.paired f hreturned
    exact ⟨b, ⟨hf, hb, hsession⟩, fun b' hb' ↦
      h.handshake.back_unique hreturned hb' ⟨hf, hb, hsession⟩⟩

end Link

/-- An error leaves the queue as it is. -/
theorem habMsgDequeue_error (rxList : List Message) (otherendClosed : Bool) (rsize : ℕ)
    (waited : RxWait) (h : (habMsgDequeue rxList otherendClosed rsize waited).1.1 ≠ none) :
    (habMsgDequeue rxList otherendClosed rsize waited).2 = rxList := by
  cases rxList with
  | nil => rfl
  | cons message rest =>
      by_cases hsize : message.data.length ≤ rsize
      · simp [habMsgDequeue, hsize] at h
      · simp [habMsgDequeue, hsize]

theorem rxList_msgDequeue_error (vm : HabVm) (v rsize : ℕ) (waited : RxWait)
    (h : (habMsgDequeue (vm.vchan v).rxList (vm.vchan v).otherendClosed rsize waited).1.1 ≠ none)
    (w : ℕ) : ((vm.msgDequeue v rsize waited).vchan w).rxList = (vm.vchan w).rxList := by
  by_cases hw : w = v
  · subst hw
    simp [HabVm.msgDequeue, HabVm.write, habMsgDequeue_error _ _ _ _ h]
  · simp [HabVm.msgDequeue, HabVm.write, hw]

namespace Link

theorem lossless_of_exec (p q : HabPchan) (acts : List LinkAct) (s : Link)
    (hrun : Runs.exec (Link.step p q) start acts = some s)
    (halloc : ∀ act ∈ acts, act.allocates = true) (hcounter : s.front.openIdCounter < 2 ^ 32) :
    s.Lossless ∧ ∀ (vm : HabVm) (v rsize : ℕ) (waited : RxWait),
      (habMsgDequeue (vm.vchan v).rxList (vm.vchan v).otherendClosed rsize waited).1.1 ≠ none →
        ∀ w, ((vm.msgDequeue v rsize waited).vchan w).rxList = (vm.vchan w).rxList :=
  ⟨((Traffic.start p q).exec halloc hrun hcounter).lossless, rxList_msgDequeue_error⟩

/-- An open, a message on it, and a buffer that is just large enough. -/
def oneMessage (pchan : HabPchan) (id : Fin 4096) (message : Message) : List LinkAct :=
  oneOpen pchan id ++
    [.front (.advance 0) {},
      .front (.send 0 (habVcid pchan id) message false) {},
      .front (.advance 1) {},
      .deliverBack {},
      .back (.advance 0) {},
      .back (.recv 0 (habVcid pchan id)) {},
      .back (.advance 1) { rsize := message.data.length }]

theorem lossless_of_exec_oneMessage :
    ∃ s, Runs.exec (Link.step ⟨⟨0, by decide⟩, ⟨0, by decide⟩⟩ ⟨⟨0, by decide⟩, ⟨0, by decide⟩⟩)
        start (oneMessage ⟨⟨0, by decide⟩, ⟨0, by decide⟩⟩ ⟨1, by decide⟩ ⟨.msg, [7]⟩) = some s ∧
      (s.back.vchan 0).handedOut = [⟨.msg, [7]⟩] ∧ s.Lossless := by
  have hseen : (Runs.exec (Link.step ⟨⟨0, by decide⟩, ⟨0, by decide⟩⟩
      ⟨⟨0, by decide⟩, ⟨0, by decide⟩⟩) start
      (oneMessage ⟨⟨0, by decide⟩, ⟨0, by decide⟩⟩ ⟨1, by decide⟩ ⟨.msg, [7]⟩)).map
        (fun s ↦ (s.front.openIdCounter, (s.back.vchan 0).handedOut)) =
      some (1, [⟨.msg, [7]⟩]) := by
    decide
  obtain ⟨s, hrun, hs⟩ := Option.map_eq_some_iff.mp hseen
  simp only [Prod.mk.injEq] at hs
  obtain ⟨hcounter, hhanded⟩ := hs
  refine ⟨s, hrun, hhanded, (lossless_of_exec _ _ _ _ hrun ?_ ?_).1⟩
  · simp [oneMessage, oneOpen, LinkAct.allocates]
  · rw [hcounter]
    decide

end Link

end Hab
