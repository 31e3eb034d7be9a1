import Hab.VmReplies

/-!
# Sessions that are half open

A back end that gives a vchan up sends an INIT_CANCEL at best, and an INIT_CANCEL that comes
after the INIT_ACK has been taken is not seen.  As long as it is sent and still finds the
INIT_ACK in the open queue, a vchan that the front end holds has its other end.
-/

namespace Hab

namespace HabVm

/-- An INIT_CANCEL that arrives withdraws an INIT_ACK that waits in the open queue, or there is
no vchan with its open id that is open on both ends, as far as the VM knows. -/
def hearsCancel (vm : HabVm) (xdata : HabOpenSendData) : Bool :=
  (vm.dev.openqList.any fun node ↦
    node.request.type = .initAck && node.request.xdata.subId = xdata.subId &&
      node.request.xdata.openId = xdata.openId && node.request.xdata.vchanId = xdata.vchanId) ||
  (List.range vm.nextVchan).all fun v ↦
    !((vm.vchan v).sessionId = xdata.openId && (vm.vchan v).refcount ≠ 0 &&
      !((vm.vchan v).closed || (vm.vchan v).otherendClosed))

variable {vm : HabVm} {v : ℕ}

theorem any_cancelledBy {xdata : HabOpenSendData} (hhears : vm.hearsCancel xdata = true)
    (hv : v < vm.nextVchan) (hsession : (vm.vchan v).sessionId = xdata.openId)
    (hlistening : (vm.vchan v).Listening) :
    vm.dev.openqList.any (fun node ↦ node.request.cancelledBy xdata) = true := by
  rcases Bool.or_eq_true_iff.mp hhears with hwaits | hdeaf
  · obtain ⟨node, hnode, hack⟩ := List.any_eq_true.mp hwaits
    refine List.any_eq_true.mpr ⟨node, hnode, ?_⟩
    simp only [Bool.and_eq_true, decide_eq_true_eq] at hack
    simp [HabOpenRequest.cancelledBy, hack]
  · obtain ⟨hcount, hclosed, hother⟩ := hlistening
    have hno := List.all_eq_true.mp hdeaf v (List.mem_range.mpr hv)
    simp [hsession, hcount, hclosed, hother] at hno

end HabVm

/-- The call is an open that has not returned to its caller. -/
def Call.isOpen : Call → Bool
  | .front _ _ | .listen _ _ | .round _ _ | .opened _ => true
  | .sending _ _ _ | .receiving _ | .closing _ | .stopping _ => false

namespace Link

variable {s t : Link} {p q : HabPchan} {env : Env} {act : VmAct} {vm' : HabVm}
  {out : List (HabPchan × HabMsg)} {f b : ℕ}

/-- No message is on its way, also no CLOSE that the back end is about to send, and no open
is in progress. -/
structure Quiet (s : Link) : Prop where
  toBack : s.toBack = []
  toFront : s.toFront = []
  front : ∀ i call, s.front.calls.get i = some call → call.isOpen = false
  back : ∀ i call, s.back.calls.get i = some call → call.isOpen = false
  closes : ∀ i b, s.back.calls.get i ≠ some (.closing b)

/-- A vchan that the front end has returned and that is open, as far as it knows, has a
vchan on the back end. -/
def NoHalfOpen (s : Link) : Prop :=
  s.Quiet → ∀ f, s.front.returned f ≠ 0 → (s.front.vchan f).Listening →
    ∃ b, s.Session f b ∧ (s.back.vchan b).refcount ≠ 0 ∧ (s.back.vchan b).closed = false

/-- The condition on a step: a `backend_listen` that waits for its INIT_DONE is not interrupted,
and not stopped unless it has timed out or taken an INIT_CANCEL; the INIT_CANCEL and the CLOSE
of the back end are sent; and an INIT_CANCEL does not come too late for the INIT_ACK. -/
def tells (s : Link) : LinkAct → Bool
  | .back (.advance i) env =>
      match s.back.calls.get i with
      | some (.round r (.answered ended recv)) =>
          ended = .timeout || recv.any fun request ↦
            !s.back.forbidden r.listen.ctx r.listen.subId || request.type = .initCancel
      | some (.round _ (.cancel _ none)) => env.sent = none
      | some (.closing b) => (s.back.vchan b).otherendClosed || env.sent = none
      | _ => true
  | .deliverFront _ =>
      match s.toFront with
      | .request .initCancel xdata :: _ => s.front.hearsCancel xdata
      | _ => true
  | _ => true

/-- How many replies to the open of a vchan the front end has got or may get. -/
def replies (s : Link) (f : ℕ) : ℕ :=
  s.back.calls.count (Call.replies (s.front.vchan f).sessionId) +
    s.toFront.countP (HabMsg.replies (s.front.vchan f).sessionId) +
      s.front.requests (HabOpenRequest.replies (s.front.vchan f).sessionId) + s.front.returned f

/-- The INIT_CANCEL of the back end is on its way. -/
def Cancelling (s : Link) (f : ℕ) : Prop :=
  ∃ xdata, .request .initCancel xdata ∈ s.toFront ∧
    xdata.openId = (s.front.vchan f).sessionId

/-- The front end is told that the back end has closed its vchan, if it does not know. -/
def Told (s : Link) (f b : ℕ) : Prop :=
  (s.front.vchan f).Listening → (s.back.vchan b).outgoing none ∈ s.toFront

structure Upheld (p q : HabPchan) (s : Link) : Prop extends Settled p q s where
  placed : s.back.Placed
  closes : ∀ id sessionId, .close id sessionId ∈ s.toBack →
    ∃ f < s.front.nextVchan, (s.front.vchan f).sessionId = sessionId ∧
      (s.front.vchan f).closed = true
  closed : ∀ f b, s.Session f b → (s.back.vchan b).closed = true →
    (∃ i, s.back.calls.get i = some (.closing b)) ∨ s.Told f b
  stopping : ∀ f b i, s.Session f b → s.back.calls.get i = some (.stopping b) → s.Told f b
  otherendClosed : ∀ f b, s.Session f b → (s.back.vchan b).otherendClosed = true → s.Told f b
  cancels : ∀ xdata, .request .initCancel xdata ∈ s.toBack → s.front.Gone xdata.openId
  cancelRequests : ∀ r, s.back.requests (fun request ↦ request = r) ≠ 0 → r.type = .initCancel →
    s.front.Gone r.xdata.openId
  /-- The back end replies once for each vchan. -/
  once : ∀ f < s.front.nextVchan, (s.front.vchan f).Listening →
    s.replies f ≤ s.back.sessions (s.front.vchan f).sessionId
  /-- When it has given its vchan up, no reply is left, or will be. -/
  gaveUp : ∀ f b, s.Session f b → (s.front.vchan f).Listening → (s.back.vchan b).refcount = 0 →
    s.back.returned b = 0 → s.replies f = 0 ∨ s.Cancelling f

/-- With nothing on its way, all is well. -/
theorem Upheld.noHalfOpen (h : s.Upheld p q) : s.NoHalfOpen := by
  intro hquiet f hf hlistening
  obtain ⟨b, hb, hsession, -⟩ := h.handshake.paired f hf
  have hfb : s.Session f b := ⟨h.handshake.front.once.lt f hf, hb, hsession⟩
  have hnotTold : ¬ s.Told f b := by
    intro htold
    have hmem := htold hlistening
    rw [hquiet.toFront] at hmem
    cases hmem
  have hreturned : s.back.returned b ≠ 0 := by
    intro hnot
    by_cases hcount : (s.back.vchan b).refcount = 0
    · rcases h.gaveUp f b hfb hlistening hcount hnot with hnone | ⟨xdata, hcancel, -⟩
      · rw [replies] at hnone
        omega
      · rw [hquiet.toFront] at hcancel
        cases hcancel
    · obtain ⟨i, call, hi, hopening, -⟩ := h.placed.exists_opening h.backSpeaks hb hnot hcount
      have hidle := hquiet.back i call hi
      cases call <;> simp [Call.isOpen, Call.opening] at hidle hopening
  have hclosed : (s.back.vchan b).closed = false := by
    by_contra hno
    rcases h.closed f b hfb (by simpa using hno) with ⟨i, hi⟩ | htold
    · exact hquiet.closes i b hi
    · exact hnotTold htold
  exact ⟨b, hfb, h.placed.refcount_ne_zero h.handshake.back.referenced hb hreturned hclosed,
    hclosed⟩

theorem Upheld.start (p q : HabPchan) : Link.start.Upheld p q := by
  constructor
  case toSettled => exact (Traffic.start p q).toSettled
  case placed => exact .init
  case closes =>
    intro id sessionId hmsg
    cases hmsg
  case cancels =>
    intro xdata hmsg
    cases hmsg
  case cancelRequests => exact fun r hr ↦ absurd rfl hr
  case once => exact fun f hf ↦ absurd hf (Nat.not_lt_zero f)
  case closed | otherendClosed | gaveUp =>
    intro f b hsession
    exact absurd hsession.front (Nat.not_lt_zero f)
  case stopping =>
    intro f b i hsession
    exact absurd hsession.front (Nat.not_lt_zero f)

/-! ## A step of the front end -/

/-- Where the back end has had no vchan for it, an open has no reply. -/
theorem Handshake.replies_eq_zero (h : s.Handshake) {session : UInt32}
    (hnone : s.back.sessions session = 0) :
    s.back.calls.count (Call.replies session) = 0 ∧
      s.toFront.countP (HabMsg.replies session) = 0 ∧
        s.front.requests (HabOpenRequest.replies session) = 0 := by
  have hne : ∀ b < s.back.nextVchan, (s.back.vchan b).sessionId ≠ session := by
    intro b hb heq
    have hpos : 0 < s.back.sessions session := Pool.countBelow_pos hb rfl (decide_eq_true heq)
    omega
  have hanswered : ∀ {openId vchanId}, s.back.Answered openId vchanId → openId ≠ session := by
    rintro openId vchanId ⟨b, hb, rfl, -⟩
    exact hne b hb
  refine ⟨?_, ?_, ?_⟩
  · apply Pool.count_eq_zero
    intro i call hi
    cases call with
    | round r stage =>
        cases stage with
        | ack =>
            have hb := h.back.referenced.lt_nextVchan
              (h.back.referenced.refcount_ne_zero hi rfl)
            apply decide_eq_false
            rw [← (h.back.calls i _ hi).openId]
            exact hne r.vchan hb
        | _ => rfl
    | _ => rfl
  · rw [List.countP_eq_zero]
    intro msg hmsg
    cases msg with
    | request type xdata =>
        have hopenId := hanswered (h.toFront type xdata hmsg)
        simp [HabMsg.replies, hopenId]
    | data id sessionId message => simp [HabMsg.replies]
    | close id sessionId => simp [HabMsg.replies]
  · by_contra hpos
    obtain ⟨r, hr, hreplies⟩ := HabVm.exists_of_requests hpos
    have hopenId := hanswered (h.frontRequests r hr)
    simp [HabOpenRequest.replies, hopenId] at hreplies

/-- The front end brings no replies about. -/
theorem Upheld.replies_frontStep (h : s.Upheld p q) (hact : act.onFront p = true)
    (hstep : s.front.Step env act vm' out) {toBack : List HabMsg} (hf : f < s.front.nextVchan) :
    replies ⟨vm', s.back, toBack, s.toFront⟩ f ≤ s.replies f := by
  have hs := h.handshake
  have hsession := ((HabVm.Later.step hs.front.referenced hstep).vchan f hf).sessionId
  have hle := hstep.received_le hs.front hs.atFront hs.numbered hact hf
  rw [replies, replies]
  simp only [hsession]
  omega

theorem Upheld.frontStep (h : s.Upheld p q) (hact : act.onFront p = true)
    (hvm : s.front.step act env = some (vm', out))
    (hnext : Settled p q ⟨vm', s.back, s.toBack ++ out.map Prod.snd, s.toFront⟩) :
    Upheld p q ⟨vm', s.back, s.toBack ++ out.map Prod.snd, s.toFront⟩ := by
  have hstep := HabVm.step_cases hvm
  have href := h.handshake.front.referenced
  have hlater := HabVm.Later.step href hstep
  have hold : ∀ {f b : ℕ}, Session ⟨vm', s.back, s.toBack ++ out.map Prod.snd, s.toFront⟩ f b →
      s.Session f b := fun hsession ↦ hsession.old h.handshake hnext.handshake hlater
  have htold : ∀ {f b : ℕ}, f < s.front.nextVchan → s.Told f b →
      Told ⟨vm', s.back, s.toBack ++ out.map Prod.snd, s.toFront⟩ f b :=
    fun {f b} hf htold hlistening ↦ htold ((hlater.vchan f hf).listening hlistening)
  constructor
  case toSettled => exact hnext
  case placed => exact h.placed
  case closes =>
    intro id sessionId hmsg
    have hclosed : ∃ f < s.front.nextVchan, (s.front.vchan f).sessionId = sessionId ∧
        (s.front.vchan f).closed = true := by
      rcases List.mem_append.mp hmsg with hmsg | hmsg
      · exact h.closes id sessionId hmsg
      · exact hstep.close_out h.frontSpeaks href hmsg
    obtain ⟨f, hf, hsession, hclosed⟩ := hclosed
    have hf' := hlater.vchan f hf
    exact ⟨f, Nat.lt_of_lt_of_le hf hlater.nextVchan, hf'.sessionId.trans hsession,
      hf'.closed hclosed⟩
  case closed =>
    intro f b hsession hclosed
    exact (h.closed f b (hold hsession) hclosed).imp_right (htold (hold hsession).front)
  case stopping =>
    intro f b i hsession hi
    exact htold (hold hsession).front (h.stopping f b i (hold hsession) hi)
  case otherendClosed =>
    intro f b hsession hclosed
    exact htold (hold hsession).front (h.otherendClosed f b (hold hsession) hclosed)
  case cancels =>
    intro xdata hmsg
    rcases List.mem_append.mp hmsg with hmsg | hmsg
    · exact hstep.gone href (h.cancels xdata hmsg)
    · exact hstep.gone_out h.handshake.front h.handshake.atFront hmsg
  case cancelRequests => exact fun r hr htype ↦ hstep.gone href (h.cancelRequests r hr htype)
  case once =>
    intro f hf hlistening
    by_cases hold' : f < s.front.nextVchan
    · have hle := h.once f hold' ((hlater.vchan f hold').listening hlistening)
      rw [← (hlater.vchan f hold').sessionId] at hle
      exact (h.replies_frontStep hact hstep hold').trans hle
    · -- the open id of a new vchan is new
      have hnew : ∀ v < s.front.nextVchan,
          (s.front.vchan v).sessionId ≠ (vm'.vchan f).sessionId := by
        intro v hv heq
        have hsame : v = f := by
          apply hnext.handshake.front_unique (Nat.lt_of_lt_of_le hv hlater.nextVchan) hf
          show (vm'.vchan v).sessionId = (vm'.vchan f).sessionId
          rw [(hlater.vchan v hv).sessionId]
          exact heq
        exact hold' (hsame ▸ hv)
      have hasked := h.handshake.asked_eq_zero hnew
      rw [asked] at hasked
      have hsessions : s.back.sessions (vm'.vchan f).sessionId = 0 := by omega
      obtain ⟨hcalls, htoFront, hrequests⟩ := h.handshake.replies_eq_zero hsessions
      have hle := hstep.requests_le (HabOpenRequest.replies (vm'.vchan f).sessionId)
      have hnone : act.arrives (HabOpenRequest.replies (vm'.vchan f).sessionId) = 0 := by
        cases act <;> first | rfl | simp [VmAct.onFront] at hact
      have hreturned : vm'.returned f = 0 := by
        rcases hstep.returned_cases f with heq | ⟨i, call, hi, hcall, -⟩
        · by_contra hreturned
          exact hold' (h.handshake.front.once.lt f (heq ▸ hreturned))
        · exact absurd (href.lt_nextVchan (href.refcount_ne_zero hi hcall)) hold'
      show replies ⟨vm', s.back, s.toBack ++ out.map Prod.snd, s.toFront⟩ f ≤ _
      rw [replies]
      simp only
      omega
  case gaveUp =>
    intro f b hsession hlistening hcount hnot
    have hf := (hold hsession).front
    rcases h.gaveUp f b (hold hsession) ((hlater.vchan f hf).listening hlistening) hcount hnot with
      hnone | ⟨xdata, hcancel, hopenId⟩
    · exact .inl (Nat.eq_zero_of_le_zero (hnone ▸ h.replies_frontStep hact hstep hf))
    · exact .inr ⟨xdata, hcancel, hopenId.trans (hlater.vchan f hf).sessionId.symm⟩

/-! ## A step of the back end -/

theorem Handshake.outgoing_eq (h : s.Handshake) (hstep : s.back.Step env act vm' out)
    (hb : b < s.back.nextVchan) (entry : Option Message) :
    (vm'.vchan b).outgoing entry = (s.back.vchan b).outgoing entry := by
  have hsession := ((HabVm.Later.step h.back.referenced hstep).vchan b hb).sessionId
  have hother : (vm'.vchan b).otherendId = (s.back.vchan b).otherendId := by
    apply hstep.otherendId_eq hb
    intro i o stage hi
    cases h.atBack i _ hi
  cases entry <;> rw [Vchan.outgoing, Vchan.outgoing, hsession, hother]

theorem Told.backStep (h : s.Told f b) (hs : s.Handshake) (hstep : s.back.Step env act vm' out)
    (hb : b < s.back.nextVchan) {toBack : List HabMsg} :
    Told ⟨s.front, vm', toBack, s.toFront ++ out.map Prod.snd⟩ f b := by
  intro hlistening
  show (vm'.vchan b).outgoing none ∈ s.toFront ++ out.map Prod.snd
  rw [hs.outgoing_eq hstep hb]
  exact List.mem_append_left _ (h hlistening)

/-- A back end that has begun to close its vchan tells the front end, in the step that the
close is about to make. -/
theorem Upheld.told_of_closing (h : s.Upheld p q) (hstep : s.back.Step env act vm' out)
    (htells : s.tells (.back act env) = true) (hsession : s.Session f b) {i : ℕ}
    (hact : act = .advance i) (hi : s.back.calls.get i = some (.closing b))
    (hadvance : s.back.Advance i env (.closing b) vm' out) {toBack : List HabMsg} :
    Told ⟨s.front, vm', toBack, s.toFront ++ out.map Prod.snd⟩ f b := by
  by_cases hother : (s.back.vchan b).otherendClosed = true
  · exact (h.otherendClosed f b hsession hother).backStep h.handshake hstep hsession.back
  · intro hlistening
    show (vm'.vchan b).outgoing none ∈ s.toFront ++ out.map Prod.snd
    rw [h.handshake.outgoing_eq hstep hsession.back]
    rcases hadvance.closing_out with hout | hyes | hsent
    · exact List.mem_append_right _ hout
    · exact absurd hyes hother
    · subst hact
      simp [tells, hi, hsent, hother] at htells

/-- The back end brings no replies about but for the vchans it gets. -/
theorem Handshake.replies_backStep (h : s.Handshake) (hact : act.onBack = true)
    (hstep : s.back.Step env act vm' out) (toBack : List HabMsg) (f : ℕ) :
    replies ⟨s.front, vm', toBack, s.toFront ++ out.map Prod.snd⟩ f +
        s.back.sessions (s.front.vchan f).sessionId ≤
      s.replies f + vm'.sessions (s.front.vchan f).sessionId := by
  have hle := hstep.replies_le h.back.referenced h.atBack hact (s.front.vchan f).sessionId
  simp only [replies, List.countP_append]
  omega

/-- A back end that gives its vchan up has sent no reply yet, or its cancel goes out, or the
front end has cancelled the open. -/
theorem Upheld.gaveUp_backStep (h : s.Upheld p q) (hact : act.onBack = true)
    (hvm : s.back.step act env = some (vm', out)) (htells : s.tells (.back act env) = true)
    (hnext : Settled p q ⟨s.front, vm', s.toBack, s.toFront ++ out.map Prod.snd⟩)
    (hsession : s.Session f b) (hlistening : (s.front.vchan f).Listening)
    (hcount : (s.back.vchan b).refcount ≠ 0) (hzero : (vm'.vchan b).refcount = 0)
    (hnot : s.back.returned b = 0) :
    replies ⟨s.front, vm', s.toBack, s.toFront ++ out.map Prod.snd⟩ f = 0 ∨
      Cancelling ⟨s.front, vm', s.toBack, s.toFront ++ out.map Prod.snd⟩ f := by
  have hs := h.handshake
  have href := hs.back.referenced
  obtain ⟨i, r, stage, rfl, hi, rfl, hgives⟩ : ∃ i r stage, act = .advance i ∧
      s.back.calls.get i = some (.round r stage) ∧ r.vchan = b ∧
        s.back.givesUp env r stage = true := by
    by_contra hno
    apply HabVm.refcount_of_not_givesUp href h.backSpeaks hs.atBack hvm hcount hnot _ hzero
    intro i r stage hact' hi hr
    by_contra hgives
    exact hno ⟨i, r, stage, hact', hi, hr, by simpa using hgives⟩
  have hround := hs.back.calls i _ hi
  have hopenId : r.init.xdata.openId = (s.front.vchan f).sessionId :=
    hround.openId.symm.trans hsession.sessionId
  cases stage with
  | ack =>
      left
      have hsent : env.sent ≠ none := by simpa [HabVm.givesUp] using hgives
      obtain ⟨rfl, hless⟩ := HabVm.replies_lt_of_refused hi hsent hvm
      have honce := h.once f hsession.front hlistening
      have hasked := hs.asked f hsession.front (.inl hlistening.1)
      rw [hopenId] at hless
      rw [asked] at hasked
      rw [replies] at honce
      rw [replies, List.map_nil, List.append_nil]
      simp only
      omega
  | wait => cases hgives
  | answered ended recv =>
      exfalso
      have hcond : ended = .timeout ∨ recv.any (fun request ↦
          !s.back.forbidden r.listen.ctx r.listen.subId || request.type = .initCancel) = true := by
        simpa [tells, hi] using htells
      rw [HabVm.givesUp_answered (hround.met ended recv rfl) hcond] at hgives
      cases hgives
  | cancel recv error =>
      cases error with
      | none =>
          right
          have hsent : env.sent = none := by simpa [tells, hi] using htells
          simp only [HabVm.step, hi, HabVm.advance, HabVm.advanceRound, hsent, if_true,
            Option.some.injEq, Prod.mk.injEq] at hvm
          obtain ⟨-, rfl⟩ := hvm
          refine ⟨r.xdata .initCancel (s.back.vchan r.vchan).id, ?_, hopenId⟩
          exact List.mem_append_right _ (List.mem_singleton_self _)
      | some error =>
          -- the round has taken an INIT_CANCEL of the front end
          exfalso
          obtain ⟨request, rfl, htype⟩ :=
            (Option.any_eq_true _ _).mp (hround.cancelled recv error rfl)
          have htype : request.type = .initCancel := of_decide_eq_true htype
          have hanswers := hround.answers request rfl
          simp only [HabOpenRequest.answers, Bool.and_eq_true, Bool.or_eq_true,
            decide_eq_true_eq] at hanswers
          have hsame : request.xdata.openId = (s.front.vchan f).sessionId := by
            rcases hanswers.1.2 with hzero' | heq
            · have hne := hs.session_ne_zero hsession.back
              rw [hround.openId] at hne
              exact absurd hzero' hne
            · exact heq.trans hopenId
          obtain ⟨v, hv, hsession', hgone⟩ :=
            h.cancelRequests request (HabVm.requests_of_taken hi rfl) htype
          obtain rfl := hs.front_unique hv hsession.front (hsession'.trans hsame)
          exact hlistening.1 hgone

theorem Upheld.backStep (h : s.Upheld p q) (hact : act.onBack = true)
    (hvm : s.back.step act env = some (vm', out)) (htells : s.tells (.back act env) = true)
    (hnext : Settled p q ⟨s.front, vm', s.toBack, s.toFront ++ out.map Prod.snd⟩) :
    Upheld p q ⟨s.front, vm', s.toBack, s.toFront ++ out.map Prod.snd⟩ := by
  have hstep := HabVm.step_cases hvm
  have hs := h.handshake
  have href := hs.back.referenced
  have hlater := HabVm.Later.step href hstep
  have hreceive : ∀ pchan msg, act ≠ .receive pchan msg := by
    rintro pchan msg rfl
    simp [VmAct.onBack] at hact
  have hlt : ∀ {i b : ℕ} {call : Call}, s.back.calls.get i = some call → call.vchan = some b →
      b < s.back.nextVchan := fun hi hv ↦ href.lt_nextVchan (href.refcount_ne_zero hi hv)
  constructor
  case toSettled => exact hnext
  case placed => exact h.placed.step href hs.back.once h.backSpeaks hstep
  case closes => exact h.closes
  case closed =>
    intro f b hsession hclosed
    by_cases hold : b < s.back.nextVchan
    · have hsession' := hsession.oldBack hlater hold
      rcases hstep.closed_cases hold hclosed with hclosed | ⟨-, hclosing⟩
      · rcases h.closed f b hsession' hclosed with ⟨i, hi⟩ | htold
        · rcases hstep.get_cases hi with hi' | ⟨hact', hadvance⟩
          · exact .inl ⟨i, hi'⟩
          · exact .inr (h.told_of_closing hstep htells hsession' hact' hi hadvance)
        · exact .inr (htold.backStep hs hstep hold)
      · exact .inl hclosing
    · exact absurd (hclosed.symm.trans (hstep.stands_new hsession.back hold).2.1)
        Bool.noConfusion
  case stopping =>
    intro f b i hsession hi
    rcases hstep.stopping_cases hi with hi | ⟨hact', hi, hadvance⟩
    · have hold := hlt hi rfl
      exact (h.stopping f b i (hsession.oldBack hlater hold) hi).backStep hs hstep hold
    · exact h.told_of_closing hstep htells (hsession.oldBack hlater (hlt hi rfl)) hact' hi hadvance
  case otherendClosed =>
    intro f b hsession hclosed
    by_cases hold : b < s.back.nextVchan
    · have hsession' := hsession.oldBack hlater hold
      rcases hstep.otherendClosed_cases hreceive hold hclosed with hclosed | ⟨i, hi⟩
      · exact (h.otherendClosed f b hsession' hclosed).backStep hs hstep hold
      · exact (h.stopping f b i hsession' hi).backStep hs hstep hold
    · obtain ⟨-, -, hopen, -⟩ := hstep.new_vchan hsession.back hold
      rw [hnext.backOn.vchan b hsession.back, h.backOn.pchanClosed] at hopen
      exact absurd (hopen.symm.trans hclosed) Bool.noConfusion
  case cancels => exact h.cancels
  case cancelRequests =>
    intro r hr
    have hle := hstep.requests_le fun request ↦ request = r
    have hnone : act.arrives (fun request ↦ request = r) = 0 := by
      cases act <;> first | rfl | simp [VmAct.onBack] at hact
    have hrequests : vm'.requests (fun request ↦ request = r) ≠ 0 := hr
    exact h.cancelRequests r (by omega)
  case once =>
    intro f hf hlistening
    have hle := hs.replies_backStep hact hstep s.toBack f
    have honce := h.once f hf hlistening
    show replies ⟨s.front, vm', s.toBack, s.toFront ++ out.map Prod.snd⟩ f ≤
      vm'.sessions (s.front.vchan f).sessionId
    omega
  case gaveUp =>
    intro f b hsession hlistening hzero hnot
    by_cases hold : b < s.back.nextVchan
    · have hsession' := hsession.oldBack hlater hold
      have hnot' : s.back.returned b = 0 := by
        by_contra hyes
        exact hstep.returned_ne_zero hyes hnot
      by_cases hcount : (s.back.vchan b).refcount = 0
      · rcases h.gaveUp f b hsession' hlistening hcount hnot' with
          hnone | ⟨xdata, hcancel, hopenId⟩
        · -- the back end gets no other vchan for the session
          left
          have hle := hs.replies_backStep hact hstep s.toBack f
          have hasked := hnext.handshake.asked f hsession.front (.inl hlistening.1)
          have hpos : 0 < s.back.sessions (s.front.vchan f).sessionId :=
            Pool.countBelow_pos hold rfl (decide_eq_true hsession'.sessionId)
          simp only [asked] at hasked
          omega
        · exact .inr ⟨xdata, List.mem_append_left _ hcancel, hopenId⟩
      · exact h.gaveUp_backStep hact hvm htells hnext hsession' hlistening hcount hzero hnot'
    · exact absurd hzero (hstep.stands_new hsession.back hold).2.2

/-! ## A message arrives -/

theorem Upheld.deliverBack (h : s.Upheld p q) {msg : HabMsg} {rest : List HabMsg}
    (hmsgs : s.toBack = msg :: rest)
    (hnext : Settled p q ⟨s.front, s.back.receive q env msg, rest, s.toFront⟩) :
    Upheld p q ⟨s.front, s.back.receive q env msg, rest, s.toFront⟩ := by
  have hs := h.handshake
  have href := hs.back.referenced
  have hstep : s.back.Step env (.receive q msg) (s.back.receive q env msg) [] := .receives q msg
  have hlater := HabVm.Later.step href hstep
  have hcalls : (s.back.receive q env msg).calls = s.back.calls := by
    obtain ⟨dev, vchan, heq⟩ := s.back.receive_eq q env msg
    rw [heq]
  have hold : ∀ {f b : ℕ}, Session ⟨s.front, s.back.receive q env msg, rest, s.toFront⟩ f b →
      s.Session f b :=
    fun hsession ↦ hsession.oldBack hlater ((nextVchan_receive _ _ _ _).subst hsession.back)
  have htold : ∀ {f b : ℕ}, s.Session f b → s.Told f b →
      Told ⟨s.front, s.back.receive q env msg, rest, s.toFront⟩ f b := by
    intro f b hsession htold
    have hnext : Told ⟨s.front, s.back.receive q env msg, rest,
        s.toFront ++ ([] : List (HabPchan × HabMsg)).map Prod.snd⟩ f b :=
      htold.backStep hs hstep hsession.back
    rw [List.map_nil, List.append_nil] at hnext
    exact hnext
  have hquiet : ∀ b, (s.back.vchan b).Quiet ((s.back.receive q env msg).vchan b) :=
    HabVm.quiet_receive s.back q env msg
  have hreplies : ∀ f, replies ⟨s.front, s.back.receive q env msg, rest, s.toFront⟩ f =
      s.replies f := by
    intro f
    simp only [replies, hcalls]
  constructor
  case toSettled => exact hnext
  case placed => exact h.placed.step href hs.back.once h.backSpeaks hstep
  case closes =>
    intro id sessionId hmsg
    exact h.closes id sessionId (hmsgs ▸ List.mem_cons_of_mem msg hmsg)
  case closed =>
    intro f b hsession hclosed
    obtain ⟨rxList, otherendClosed, heq⟩ := hquiet b
    have hclosed' : (s.back.vchan b).closed = true := by
      change ((s.back.receive q env msg).vchan b).closed = true at hclosed
      rw [heq] at hclosed
      exact hclosed
    rcases h.closed f b (hold hsession) hclosed' with ⟨i, hi⟩ | htold'
    · exact .inl ⟨i, hcalls ▸ hi⟩
    · exact .inr (htold (hold hsession) htold')
  case stopping =>
    intro f b i hsession hi
    exact htold (hold hsession) (h.stopping f b i (hold hsession) (hcalls ▸ hi))
  case otherendClosed =>
    intro f b hsession hclosed
    rcases HabVm.otherendClosed_receive href hclosed with hclosed | ⟨id, rfl⟩
    · exact htold (hold hsession) (h.otherendClosed f b (hold hsession) hclosed)
    · -- the front end has closed its vchan
      intro hlistening
      obtain ⟨v, hv, hsession', hclosed⟩ := h.closes id _ (by rw [hmsgs]; exact List.mem_cons_self)
      obtain rfl := hs.front_unique hv hsession.front (hsession'.trans (hold hsession).sessionId)
      exact absurd (hclosed.symm.trans hlistening.2.1) Bool.noConfusion
  case cancels => exact fun xdata hmsg ↦ h.cancels xdata (hmsgs ▸ List.mem_cons_of_mem msg hmsg)
  case cancelRequests =>
    intro r hr htype
    have hle := hstep.requests_le fun request ↦ request = r
    have hrequests : (s.back.receive q env msg).requests (fun request ↦ request = r) ≠ 0 := hr
    by_cases hold : s.back.requests (fun request ↦ request = r) = 0
    · have harrives : (VmAct.receive q msg).arrives (fun request ↦ request = r) ≠ 0 := by omega
      obtain ⟨type, xdata, rfl, htype', hopenId, -⟩ := arrives_eq harrives
      obtain rfl : type = .initCancel := htype'.symm.trans htype
      rw [hopenId]
      exact h.cancels xdata (by rw [hmsgs]; exact List.mem_cons_self)
    · exact h.cancelRequests r hold htype
  case once =>
    intro f hf hlistening
    rw [hreplies f]
    show s.replies f ≤ (s.back.receive q env msg).sessions (s.front.vchan f).sessionId
    rw [HabVm.sessions_later hlater (nextVchan_receive _ _ _ _)]
    exact h.once f hf hlistening
  case gaveUp =>
    intro f b hsession hlistening hcount hnot
    obtain ⟨rxList, otherendClosed, heq⟩ := hquiet b
    have hcount' : (s.back.vchan b).refcount = 0 := by
      change ((s.back.receive q env msg).vchan b).refcount = 0 at hcount
      rw [heq] at hcount
      exact hcount
    rw [hreplies f]
    exact h.gaveUp f b (hold hsession) hlistening hcount'
      ((returned_receive _ _ _ _ _).symm.trans hnot)

/-- A CLOSE reaches the front end. -/
theorem Upheld.told_deliverFront (h : s.Upheld p q) {msg : HabMsg} {rest : List HabMsg}
    (hmsgs : s.toFront = msg :: rest) (hsession : s.Session f b) (htold : s.Told f b) :
    Told ⟨s.front.receive p env msg, s.back, s.toBack, rest⟩ f b := by
  have hs := h.handshake
  have href := hs.front.referenced
  have hlater : s.front.Later (s.front.receive p env msg) := .step href (.receives p msg)
  intro hlistening
  have hlistening' := (hlater.vchan f hsession.front).listening hlistening
  have hmem := htold hlistening'
  rw [hmsgs] at hmem
  rcases List.mem_cons.mp hmem with rfl | hmem
  · exfalso
    rcases h.fromBack _ (by rw [hmsgs]; exact List.mem_cons_self) with
      ⟨type, xdata, heq⟩ | ⟨w, entry, hw, heq, -⟩
    · cases heq
    · have hsame : (s.back.vchan w).sessionId = (s.back.vchan b).sessionId := by
        cases entry with
        | none => exact (HabMsg.close.inj heq).2.symm
        | some message => cases heq
      have hdone := h.accepted w hw
      rw [hsame, hsession.sessionId] at hdone
      have hreturned := hs.returned_of_done hsession.front hdone hlistening'.1
      have hears := h.toSettled.hears_front hreturned hsession hlistening'
      rcases HabVm.vchan_receive_close href env f with ⟨hno, -⟩ | ⟨-, heq⟩
      · exact hno hears
      · have hopen : ((s.front.receive p env ((s.back.vchan b).outgoing none)).vchan
            f).otherendClosed = false := hlistening.2.2
        rw [Vchan.outgoing, heq] at hopen
        cases hopen
  · exact hmem

/-- What arrives at the front end is no more of a reply than it was, and an INIT_CANCEL
withdraws one. -/
theorem replies_deliverFront {msg : HabMsg} {rest : List HabMsg} (hmsgs : s.toFront = msg :: rest)
    (htells : s.tells (.deliverFront env) = true) (href : s.front.Referenced)
    (hf : f < s.front.nextVchan) (hlistening : (s.front.vchan f).Listening) :
    (∃ xdata, msg = .request .initCancel xdata ∧
        xdata.openId = (s.front.vchan f).sessionId ∧
          replies ⟨s.front.receive p env msg, s.back, s.toBack, rest⟩ f + 1 ≤ s.replies f) ∨
      (∀ xdata, msg = .request .initCancel xdata →
        xdata.openId ≠ (s.front.vchan f).sessionId) ∧
          replies ⟨s.front.receive p env msg, s.back, s.toBack, rest⟩ f ≤ s.replies f := by
  have hlater : s.front.Later (s.front.receive p env msg) := .step href (.receives p msg)
  have hsession := (hlater.vchan f hf).sessionId
  have hreturned := returned_receive s.front p env msg f
  have hcount : s.toFront.countP (HabMsg.replies (s.front.vchan f).sessionId) =
      rest.countP (HabMsg.replies (s.front.vchan f).sessionId) +
        (msg.replies (s.front.vchan f).sessionId).toNat := by
    rw [hmsgs, List.countP_cons]
    cases msg.replies (s.front.vchan f).sessionId <;> rfl
  by_cases hcancel : ∃ xdata, msg = .request .initCancel xdata ∧
      xdata.openId = (s.front.vchan f).sessionId
  · left
    obtain ⟨xdata, rfl, hopenId⟩ := hcancel
    have hhears : s.front.hearsCancel xdata = true := by simpa [tells, hmsgs] using htells
    have hwaits := HabVm.any_cancelledBy hhears hf hopenId.symm hlistening
    have hless : (s.front.receive p env (.request .initCancel xdata)).requests
        (HabOpenRequest.replies xdata.openId) + 1 =
          s.front.requests (HabOpenRequest.replies xdata.openId) :=
      HabVm.replies_withdrawn hwaits
    refine ⟨xdata, rfl, hopenId, ?_⟩
    rw [hopenId] at hless
    simp only [replies, hsession]
    omega
  · right
    have hother : ∀ xdata, msg = .request .initCancel xdata →
        xdata.openId ≠ (s.front.vchan f).sessionId :=
      fun xdata hmsg hopenId ↦ hcancel ⟨xdata, hmsg, hopenId⟩
    refine ⟨hother, ?_⟩
    have hle := HabVm.requests_receive s.front p env msg
      (HabOpenRequest.replies (s.front.vchan f).sessionId)
    have harrives : (VmAct.receive p msg).arrives
        (HabOpenRequest.replies (s.front.vchan f).sessionId) ≤
          (msg.replies (s.front.vchan f).sessionId).toNat := by
      cases msg with
      | request type xdata =>
          cases type with
          | initCancel =>
              have hopenId := hother xdata rfl
              simp [VmAct.arrives, queuedRequest, HabOpenRequest.replies, hopenId]
          | _ => simp [VmAct.arrives, queuedRequest, HabOpenRequest.replies, HabMsg.replies]
      | _ => exact Nat.zero_le _
    simp only [replies, hsession]
    omega

theorem Upheld.deliverFront (h : s.Upheld p q) {msg : HabMsg} {rest : List HabMsg}
    (hmsgs : s.toFront = msg :: rest) (htells : s.tells (.deliverFront env) = true)
    (hnext : Settled p q ⟨s.front.receive p env msg, s.back, s.toBack, rest⟩) :
    Upheld p q ⟨s.front.receive p env msg, s.back, s.toBack, rest⟩ := by
  have href := h.handshake.front.referenced
  have hstep : s.front.Step env (.receive p msg) (s.front.receive p env msg) [] :=
    .receives p msg
  have hlater := HabVm.Later.step href hstep
  have hold : ∀ {f b : ℕ}, Session ⟨s.front.receive p env msg, s.back, s.toBack, rest⟩ f b →
      s.Session f b := fun hsession ↦ hsession.old h.handshake hnext.handshake hlater
  constructor
  case toSettled => exact hnext
  case placed => exact h.placed
  case closes =>
    intro id sessionId hmsg
    obtain ⟨f, hf, hsession, hclosed⟩ := h.closes id sessionId hmsg
    have hf' := hlater.vchan f hf
    exact ⟨f, Nat.lt_of_lt_of_le hf hlater.nextVchan, hf'.sessionId.trans hsession,
      hf'.closed hclosed⟩
  case closed =>
    intro f b hsession hclosed
    exact (h.closed f b (hold hsession) hclosed).imp_right
      (h.told_deliverFront hmsgs (hold hsession))
  case stopping =>
    intro f b i hsession hi
    exact h.told_deliverFront hmsgs (hold hsession) (h.stopping f b i (hold hsession) hi)
  case otherendClosed =>
    intro f b hsession hclosed
    exact h.told_deliverFront hmsgs (hold hsession)
      (h.otherendClosed f b (hold hsession) hclosed)
  case cancels => exact fun xdata hmsg ↦ hstep.gone href (h.cancels xdata hmsg)
  case cancelRequests => exact fun r hr htype ↦ hstep.gone href (h.cancelRequests r hr htype)
  case once =>
    intro f hf hlistening
    have hf' : f < s.front.nextVchan := (nextVchan_receive _ _ _ _).subst hf
    have hlistening' := (hlater.vchan f hf').listening hlistening
    have honce := h.once f hf' hlistening'
    rw [← (hlater.vchan f hf').sessionId] at honce
    rcases replies_deliverFront (p := p) hmsgs htells href hf' hlistening' with
      ⟨-, -, -, hless⟩ | ⟨-, hle⟩
    · exact ((Nat.le_succ _).trans hless).trans honce
    · exact hle.trans honce
  case gaveUp =>
    intro f b hsession hlistening hcount hnot
    have hsession' := hold hsession
    have hlistening' := (hlater.vchan f hsession'.front).listening hlistening
    rcases replies_deliverFront (p := p) hmsgs htells href hsession'.front hlistening' with
      ⟨xdata, -, -, hless⟩ | ⟨hother, hle⟩
    · -- there was one reply at most
      left
      have honce := h.once f hsession'.front hlistening'
      have hasked := h.handshake.asked f hsession'.front (.inl hlistening'.1)
      rw [asked] at hasked
      omega
    · rcases h.gaveUp f b hsession' hlistening' hcount hnot with hnone | ⟨xdata, hmsg, hopenId⟩
      · exact .inl (Nat.eq_zero_of_le_zero (hnone ▸ hle))
      · refine .inr ⟨xdata, ?_, hopenId.trans (hlater.vchan f hsession'.front).sessionId.symm⟩
        rw [hmsgs] at hmsg
        rcases List.mem_cons.mp hmsg with heq | hmsg
        · exact absurd hopenId (hother xdata heq.symm)
        · exact hmsg

end Link

/-! ## Runs -/

namespace Link

variable {s t : Link} {p q : HabPchan} {act : LinkAct} {acts : List LinkAct}

theorem Upheld.step (h : s.Upheld p q) (htells : s.tells act = true)
    (hstep : s.step p q act = some t) (hcounter : t.front.openIdCounter < 2 ^ 32) :
    t.Upheld p q := by
  have hnext := h.toSettled.step hstep hcounter
  refine step_elim (motive := fun act t ↦ s.tells act = true → t.Settled p q → t.Upheld p q)
    hstep ?_ ?_ ?_ ?_ htells hnext
  · exact fun act env vm' out hact hvm _ hnext ↦ h.frontStep hact hvm hnext
  · exact fun act env vm' out hact hvm htells hnext ↦ h.backStep hact hvm htells hnext
  · exact fun env msg rest hmsgs _ hnext ↦ h.deliverBack hmsgs hnext
  · exact fun env msg rest hmsgs htells hnext ↦ h.deliverFront hmsgs htells hnext

/-- As long as the back end tells the front end, and in time, no session is half open. -/
theorem noHalfOpen_of_meets (p q : HabPchan) (acts : List LinkAct) (s : Link)
    (hmeets : Runs.Meets (Link.step p q) (fun s act ↦ s.tells act = true) start acts)
    (hrun : Runs.exec (Link.step p q) start acts = some s)
    (hcounter : s.front.openIdCounter < 2 ^ 32) : s.NoHalfOpen := by
  -- the counter only grows, so it has been small all along
  have hinv : s.front.openIdCounter < 2 ^ 32 → s.Upheld p q := by
    refine Runs.invariant_of_meets
      (I := fun s ↦ s.front.openIdCounter < 2 ^ 32 → s.Upheld p q) ?_ (fun _ ↦ .start p q)
      hmeets hrun
    intro s act t hs htells hstep hcounter
    have hle := (step_cases hstep).openIdCounter_le
    exact (hs (Nat.lt_of_le_of_lt hle hcounter)).step htells hstep hcounter
  exact (hinv hcounter).noHalfOpen

/-- Nothing at all is going on. -/
def idle (s : Link) : Bool :=
  s.toBack.isEmpty && s.toFront.isEmpty && s.front.calls.all (fun _ ↦ false) &&
    s.back.calls.all (fun _ ↦ false)

theorem Quiet.of_idle (h : s.idle = true) : s.Quiet := by
  simp only [idle, Bool.and_eq_true, List.isEmpty_iff] at h
  obtain ⟨⟨⟨htoBack, htoFront⟩, hfront⟩, hback⟩ := h
  have hnone : ∀ {calls : Pool Call}, calls.all (fun _ ↦ false) = true →
      ∀ i call, calls.get i ≠ some call := by
    intro calls hall i call hi
    exact Bool.noConfusion (Pool.all_eq_true.mp hall i call hi)
  exact ⟨htoBack, htoFront, fun i call hi ↦ absurd hi (hnone hfront i call),
    fun i call hi ↦ absurd hi (hnone hback i call), fun i b ↦ hnone hback i _⟩

/-- An open to its end. -/
def wholeOpen (pchan : HabPchan) (id : Fin 4096) : List LinkAct :=
  oneOpen pchan id ++ [.front (.advance 0) {}, .back (.advance 0) {}]

theorem noHalfOpen_of_meets_wholeOpen :
    ∃ s b, Runs.exec (Link.step ⟨⟨0, by decide⟩, ⟨0, by decide⟩⟩ ⟨⟨0, by decide⟩, ⟨0, by decide⟩⟩)
        start (wholeOpen ⟨⟨0, by decide⟩, ⟨0, by decide⟩⟩ ⟨1, by decide⟩) = some s ∧
      s.Session 0 b ∧ (s.back.vchan b).refcount ≠ 0 := by
  have hseen : (Runs.exec (Link.step ⟨⟨0, by decide⟩, ⟨0, by decide⟩⟩
      ⟨⟨0, by decide⟩, ⟨0, by decide⟩⟩) start
      (wholeOpen ⟨⟨0, by decide⟩, ⟨0, by decide⟩⟩ ⟨1, by decide⟩)).map
        (fun s ↦ (s.front.openIdCounter, s.idle, s.front.returned 0,
          (s.front.vchan 0).refcount,
          ((s.front.vchan 0).closed || (s.front.vchan 0).otherendClosed))) =
      some (1, true, 1, 1, false) := by
    decide
  obtain ⟨s, hrun, hs⟩ := Option.map_eq_some_iff.mp hseen
  simp only [Prod.mk.injEq, Bool.or_eq_false_iff] at hs
  obtain ⟨hcounter, hidle, hreturned, hcount, hclosed, hother⟩ := hs
  have hhalf := noHalfOpen_of_meets _ _ _ _ (by decide) hrun (by rw [hcounter]; decide)
  obtain ⟨b, hsession, hlive, -⟩ := hhalf (.of_idle hidle) 0 (by rw [hreturned]; decide)
    ⟨by rw [hcount]; decide, hclosed, hother⟩
  exact ⟨s, b, hrun, hsession, hlive⟩

/-- The wait of a `backend_listen` for its INIT_DONE is interrupted, while its INIT_ACK is on
its way. -/
def interruptedListen (pchan : HabPchan) (id : Fin 4096) : List LinkAct :=
  [.front (.frontendOpen 0 pchan 0 zeroRequest) { idr := some id },
    .front (.advance 0) {},
    .back (.backendListen ⟨0, 0, false⟩) {},
    .deliverBack {},
    .back (.advance 0) {},
    .back (.advance 0) { idr := some id },
    .back (.advance 0) {},
    .back (.advance 0) { ended := some .signal },
    .back (.advance 0) {},
    .deliverFront {},
    .front (.advance 0) {},
    .front (.advance 0) {},
    .front (.advance 0) {},
    .front (.advance 0) {},
    .deliverBack {}]

theorem not_forall_noHalfOpen :
    ¬ ∀ (p q : HabPchan) (acts : List LinkAct) (s : Link),
      Runs.exec (Link.step p q) start acts = some s → s.front.openIdCounter < 2 ^ 32 →
        s.NoHalfOpen := by
  intro h
  have hseen : (Runs.exec (Link.step ⟨⟨0, by decide⟩, ⟨0, by decide⟩⟩
      ⟨⟨0, by decide⟩, ⟨0, by decide⟩⟩) start
      (interruptedListen ⟨⟨0, by decide⟩, ⟨0, by decide⟩⟩ ⟨1, by decide⟩)).map
        (fun s ↦ (s.front.openIdCounter, s.idle,
          s.front.returned 0 = 1 && (s.front.vchan 0).refcount = 1 &&
            !((s.front.vchan 0).closed || (s.front.vchan 0).otherendClosed),
          s.back.nextVchan, (s.back.vchan 0).refcount)) = some (1, true, true, 1, 0) := by
    decide
  obtain ⟨s, hrun, hs⟩ := Option.map_eq_some_iff.mp hseen
  simp only [Prod.mk.injEq, Bool.and_eq_true, decide_eq_true_eq, Bool.not_eq_true',
    Bool.or_eq_false_iff] at hs
  obtain ⟨hcounter, hidle, ⟨⟨hreturned, hcount⟩, hclosed, hother⟩, hnext, hgone⟩ := hs
  obtain ⟨b, hsession, hlive, -⟩ := h _ _ _ s hrun (by rw [hcounter]; decide) (.of_idle hidle) 0
    (by rw [hreturned]; decide) ⟨by rw [hcount]; decide, hclosed, hother⟩
  obtain rfl : b = 0 := by
    have hb := hsession.back
    omega
  exact hlive hgone

end Link

end Hab
