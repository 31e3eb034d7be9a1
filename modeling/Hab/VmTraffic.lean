import Hab.Library.Conduit
import Hab.VmRequests

/-!
# What goes through the vchans of a VM

Only vchans that have been returned send data and CLOSEs.  What arrives for a vchan that is
open on both ends goes to the end of its queue, until the CLOSE; a step of the VM itself
takes nothing out of the queue that is not handed out, unless the vchan is freed.
-/

namespace Hab

def Message.isMsg (message : Message) : Bool := message.type = .msg

/-- The entry of a message in the log of the vchan with the session that has sent it, if it
is a data message or a CLOSE. -/
def HabMsg.entry (session : UInt32) : HabMsg → Option (Option Message)
  | .request _ _ => none
  | .data _ sessionId message =>
      if sessionId = session ∧ message.isMsg then some (some message) else none
  | .close _ sessionId => if sessionId = session then some none else none

/-- What is on its way for a session. -/
def inFlight (session : UInt32) (msgs : List HabMsg) : List (Option Message) :=
  msgs.filterMap (HabMsg.entry session)

namespace Vchan

/-- The data messages that have arrived, handed out or not. -/
def got (vchan : Vchan) : List Message := (vchan.handed ++ vchan.rxList).filter Message.isMsg

/-- The data messages that have gone out, and the CLOSE. -/
def sent (vchan : Vchan) : List (Option Message) :=
  vchan.log.filter fun entry ↦ entry.all Message.isMsg

/-- What `hab_vchan_send` and `hab_vchan_close` send for an entry of the log. -/
def outgoing (vchan : Vchan) : Option Message → HabMsg
  | some message => .data (habVcidGetId vchan.otherendId) vchan.sessionId message
  | none => .close (habVcidGetId vchan.otherendId) vchan.sessionId

/-- The vchan is there, and open on both ends. -/
def Listening (vchan : Vchan) : Prop :=
  vchan.refcount ≠ 0 ∧ vchan.closed = false ∧ vchan.otherendClosed = false

/-- The other end is closed. -/
def Ended (vchan : Vchan) : Prop :=
  vchan.refcount ≠ 0 ∧ vchan.closed = false ∧ vchan.otherendClosed = true

/-- `hab_vchan_get` finds the vchan. -/
def Hears (vchan : Vchan) (pchan : HabPchan) (id : Fin 4096) (sessionId : UInt32) : Prop :=
  vchan.Listening ∧ vchan.pchan = pchan ∧ vchan.idr = id ∧ vchan.sessionId = sessionId ∧
    vchan.otherendId ≠ 0

/-- What a step of the VM itself does to the queue. -/
structure Moved (vchan vchan' : Vchan) : Prop where
  queue : vchan'.handed ++ vchan'.rxList = vchan.handed ++ vchan.rxList ∨
    vchan'.refcount = 0 ∧ vchan'.handed ++ vchan'.rxList <+: vchan.handed ++ vchan.rxList
  otherendClosed : vchan'.otherendClosed = vchan.otherendClosed ∨ vchan'.closed = true

end Vchan

/-- What a call knows of a vchan that has been returned. -/
def Call.Speaks (vm : HabVm) : Call → Prop
  | .opened v | .sending v _ _ | .receiving v => vm.returned v ≠ 0
  | .closing v | .stopping v => vm.returned v ≠ 0 ∧ (vm.vchan v).closed = true
  | _ => True

namespace HabVm

variable {vm vm' : HabVm} {i v w : ℕ} {env : Env} {call : Call} {act : VmAct}
  {out : List (HabPchan × HabMsg)} {pchan : HabPchan} {id : Fin 4096} {sessionId : UInt32}

/-- Vchans are used once they have been returned. -/
structure Speaks (vm : HabVm) : Prop where
  listed : ∀ v ∈ vm.vchannels, vm.returned v ≠ 0
  calls : ∀ i call, vm.calls.get i = some call → call.Speaks vm
  log : ∀ v, (vm.vchan v).log ≠ [] → vm.returned v ≠ 0

theorem Speaks.init : HabVm.init.Speaks where
  listed := by
    intro v h
    cases h
  calls := by
    intro i call h
    cases h
  log := fun v h ↦ absurd rfl h

/-! ## What has been returned -/

theorem returned_append {result : List OpenReturn} (h : vm'.returns = vm.returns ++ result)
    (hv : vm.returned v ≠ 0) : vm'.returned v ≠ 0 := by
  rw [returned, h, List.countP_append, ← returned]
  omega

theorem Step.returned_ne_zero (h : vm.Step env act vm' out) (hv : vm.returned v ≠ 0) :
    vm'.returned v ≠ 0 := by
  cases h
  case openFails => exact returned_append rfl hv
  case receives pchan msg =>
    obtain ⟨dev, vchan, heq⟩ := vm.receive_eq pchan env msg
    rw [heq]
    exact hv
  case advances i call hi hadvance =>
    cases hadvance
    case frontAccept | roundAccept | listenErr => exact returned_append rfl hv
    case frontErr | frontCancel | roundErr | roundCancel | roundRetry =>
      exact returned_append rfl hv
    case sent | sendErr | dequeue | stopped =>
      exact returned_append (returns_release.trans (List.append_nil _).symm) hv
    all_goals exact hv
  all_goals exact hv

/-- An open that is about to publish its vchan has returned it. -/
theorem Advance.returned_of_opened (hi : vm.calls.get i = some call)
    (h : vm.Advance i env call vm' out) (hcall : ∀ v, call ≠ .opened v)
    (hk : vm'.calls.get i = some (.opened v)) : vm'.returned v ≠ 0 := by
  have hlt := Pool.lt_next hi
  have hset : ∀ {next : Option Call}, (vm.calls.set i next).get i = some (.opened v) →
      next = some (.opened v) :=
    fun hnext ↦ (Pool.get_set_self hlt _).symm.trans hnext
  cases h
  case frontPoll | listenPoll | roundPoll | sendAgain => cases hk.symm.trans hi
  case frontAccept o request =>
    cases hset hk
    simp [returned, OpenReturn.returns, HabVm.frontAccept]
  case roundAccept r ended request haccept =>
    cases hset hk
    simp [returned, OpenReturn.returns, HabVm.backAccept]
  case frontErr | frontCancel | roundErr | roundCancel | roundRetry =>
    rw [openErr] at hk
    simp only [calls_release] at hk
    cases hset hk
  case sent | sendErr | dequeue | stopped =>
    rw [calls_release] at hk
    cases hset hk
  all_goals cases hset hk

/-! ## What goes out -/

theorem release_eq (next : Option Call) (v : ℕ) :
    ∃ refcount rxList, (vm.release i w next).vchan v =
      { vm.vchan v with refcount := refcount, rxList := rxList } := by
  rw [vchan_release]
  split
  case isTrue hv =>
    subst hv
    exact Vchan.put_eq _
  case isFalse => exact ⟨_, _, rfl⟩

theorem log_release (next : Option Call) (v : ℕ) :
    ((vm.release i w next).vchan v).log = (vm.vchan v).log := by
  obtain ⟨refcount, rxList, heq⟩ := @release_eq vm i w next v
  rw [heq]

theorem log_openErr (pchan : HabPchan) (next : Option Call) (result : List OpenReturn) (v : ℕ) :
    ((vm.openErr i w pchan next result).vchan v).log = (vm.vchan v).log :=
  @log_release vm i w next v

theorem log_write {vchan : Vchan} (h : vchan.log = (vm.vchan w).log) (v : ℕ) :
    ((vm.write w vchan).vchan v).log = (vm.vchan v).log := by
  by_cases hv : v = w
  · subst hv
    simp [write, h]
  · simp [write, hv]

/-- A new vchan has sent nothing. -/
theorem log_vchanAlloc (ctx : ℕ) (pchan : HabPchan) (openId otherendId : UInt32) (id : Fin 4096)
    (v : ℕ) : ((vm.vchanAlloc ctx pchan openId otherendId id).vchan v).log = (vm.vchan v).log ∨
      v = vm.nextVchan ∧ ((vm.vchanAlloc ctx pchan openId otherendId id).vchan v).log = [] := by
  by_cases hv : v = vm.nextVchan
  · subst hv
    simp [HabVm.vchanAlloc]
  · simp [HabVm.vchanAlloc, hv]

theorem log_logSent (v : ℕ) (entry : Option Message) :
    ((vm.logSent w entry).vchan v).log =
      (vm.vchan v).log ++ if v = w then [entry] else [] := by
  by_cases hv : v = w
  · subst hv
    simp [logSent, write]
  · simp [logSent, write, hv]

/-- What a step sends: nothing on a vchan, or one entry of the log of one that has been
returned. -/
inductive Spoke (vm vm' : HabVm) (out : List (HabPchan × HabMsg)) : Prop where
  | silent (hlog : ∀ v, (vm'.vchan v).log = (vm.vchan v).log ∨
        v = vm.nextVchan ∧ (vm'.vchan v).log = [])
      (hout : ∀ msg ∈ out.map Prod.snd, ∃ type xdata, msg = .request type xdata)
  | spoken (w : ℕ) (entry : Option Message) (hreturned : vm.returned w ≠ 0)
      (hsendable : ∀ message, entry = some message → message.Sendable)
      (hlog : (vm'.vchan w).log = (vm.vchan w).log ++ [entry])
      (hother : ∀ v, v ≠ w → (vm'.vchan v).log = (vm.vchan v).log)
      (hout : out.map Prod.snd = [(vm.vchan w).outgoing entry])

theorem Advance.spoke (hspeaks : vm.Speaks) (hsound : vm.CallsSound)
    (hi : vm.calls.get i = some call) (h : vm.Advance i env call vm' out) :
    vm.Spoke vm' out := by
  have hnone : ∀ msg ∈ ([] : List (HabPchan × HabMsg)).map Prod.snd,
      ∃ type xdata, msg = HabMsg.request type xdata := by
    intro msg hmsg
    cases hmsg
  have hrequest : ∀ {pchan : HabPchan} {type : HabPayloadType} {xdata : HabOpenSendData},
      ∀ msg ∈ [(pchan, HabMsg.request type xdata)].map Prod.snd,
        ∃ type xdata, msg = HabMsg.request type xdata := by
    intro pchan type xdata msg hmsg
    exact ⟨type, xdata, List.mem_singleton.mp hmsg⟩
  cases h
  case frontInit | roundAck => exact .silent (fun v ↦ .inl rfl) hrequest
  case frontAccept => exact .silent (fun v ↦ .inl rfl) hrequest
  case frontPair o ended request haccept =>
    apply Spoke.silent _ hnone
    intro v
    left
    change ((vm.write o.vchan _).vchan v).log = _
    apply log_write
    rfl
  case frontErr | roundErr => exact .silent (fun v ↦ .inl (log_openErr _ _ _ v)) hnone
  case frontCancel | roundCancel =>
    exact .silent (fun v ↦ .inl (log_openErr _ _ _ v)) hrequest
  case roundRetry r recv hout =>
    apply Spoke.silent
    · exact fun v ↦ .inl (log_openErr _ _ _ v)
    · rcases hout with rfl | rfl
      · exact hnone
      · exact hrequest
  case listenTake l ended request id haccept hfree =>
    exact .silent (@log_vchanAlloc (vm.backHear request) _ _ _ _ id) hnone
  case sent v message nonblocking =>
    apply Spoke.spoken v (some message)
    · exact hspeaks.calls i _ hi
    · rintro _ ⟨⟩
      exact hsound i _ hi
    · rw [log_release, log_logSent, if_pos rfl]
    · intro w hw
      rw [log_release, log_logSent, if_neg hw, List.append_nil]
    · rfl
  case closeSent v hopen =>
    apply Spoke.spoken v none
    · exact (hspeaks.calls i _ hi).1
    · rintro _ ⟨⟩
    · exact (log_logSent v none).trans (by rw [if_pos rfl])
    · intro w hw
      exact (log_logSent w none).trans (by rw [if_neg hw, List.append_nil])
    · rfl
  case dequeue v rsize waited =>
    apply Spoke.silent _ hnone
    intro w
    left
    rw [log_release]
    apply log_write
    rfl
  case stopped v =>
    apply Spoke.silent _ hnone
    intro w
    left
    rw [log_release]
    apply log_write
    rfl
  case sendErr => exact .silent (fun v ↦ .inl (log_release none v)) hnone
  all_goals exact .silent (fun v ↦ .inl rfl) hnone

theorem Step.spoke (hspeaks : vm.Speaks) (hsound : vm.CallsSound)
    (h : vm.Step env act vm' out) : vm.Spoke vm' out := by
  have hnone : ∀ msg ∈ ([] : List (HabPchan × HabMsg)).map Prod.snd,
      ∃ type xdata, msg = HabMsg.request type xdata := by
    intro msg hmsg
    cases hmsg
  cases h
  case opens ctx pchan subId request id hfree =>
    exact .silent (@log_vchanAlloc (vm.countOpen pchan) _ _ _ _ id) hnone
  case sendLeaks | sends | recvs | closes =>
    apply Spoke.silent _ hnone
    intro v
    left
    apply log_write
    rfl
  case receives pchan msg =>
    apply Spoke.silent _ hnone
    intro v
    obtain ⟨rxList, otherendClosed, heq⟩ := quiet_receive vm pchan env msg v
    rw [heq]
    exact .inl rfl
  case advances i call hi hadvance => exact hadvance.spoke hspeaks hsound hi
  all_goals exact .silent (fun v ↦ .inl rfl) hnone

/-! ## Vchans are used once they have been returned -/

theorem speaks_mono (h : call.Speaks vm)
    (hreturned : ∀ v, vm.returned v ≠ 0 → vm'.returned v ≠ 0)
    (hclosed : ∀ v, call.vchan = some v → (vm.vchan v).closed = true →
      (vm'.vchan v).closed = true) : call.Speaks vm' := by
  cases call with
  | opened v | sending v | receiving v => exact hreturned v h
  | closing v | stopping v => exact ⟨hreturned v h.1, hclosed v rfl h.2⟩
  | _ => trivial

theorem Step.listed (h : vm.Step env act vm' out) (hv : v ∈ vm'.vchannels) :
    v ∈ vm.vchannels ∨ ∃ i, vm.calls.get i = some (.opened v) := by
  cases h
  case closes => exact .inl (List.mem_of_mem_erase hv)
  case receives pchan msg =>
    obtain ⟨dev, vchan, heq⟩ := vm.receive_eq pchan env msg
    rw [heq] at hv
    exact .inl hv
  case advances i call hi hadvance =>
    cases hadvance
    case publish w =>
      rcases List.mem_append.mp hv with hv | hv
      · exact .inl hv
      · obtain rfl := List.mem_singleton.mp hv
        exact .inr ⟨i, hi⟩
    case frontErr | frontCancel | roundErr | roundCancel | roundRetry =>
      rw [openErr] at hv
      simp only [vchannels_release] at hv
      exact .inl hv
    case sent | sendErr | dequeue | stopped =>
      rw [vchannels_release] at hv
      exact .inl hv
    all_goals exact .inl hv
  all_goals exact .inl hv

theorem Speaks.step (h : vm.Speaks) (href : vm.Referenced) (hsound : vm.CallsSound)
    (hstep : vm.Step env act vm' out) : vm'.Speaks := by
  have hlater := Later.step href hstep
  have hreturned : ∀ v, vm.returned v ≠ 0 → vm'.returned v ≠ 0 :=
    fun v hv ↦ hstep.returned_ne_zero hv
  have hcalls : ∀ {j k}, vm.calls.get j = some k → k.Speaks vm' := by
    intro j k hj
    apply speaks_mono (h.calls j k hj) hreturned
    intro v hv
    exact (hlater.vchan v (href.lt_nextVchan (href.refcount_ne_zero hj hv))).closed
  constructor
  case listed =>
    intro v hv
    rcases hstep.listed hv with hv | ⟨i, hi⟩
    · exact hreturned v (h.listed v hv)
    · exact hreturned v (h.calls i _ hi)
  case log =>
    intro v hv
    rcases hstep.spoke h hsound with ⟨hlog, -⟩ | ⟨w, entry, hw, -, -, hother, -⟩
    · rcases hlog v with heq | heq
      · exact hreturned v (h.log v (heq ▸ hv))
      · exact absurd heq.2 hv
    · by_cases hvw : v = w
      · subst hvw
        exact hreturned v hw
      · exact hreturned v (h.log v (hother v hvw ▸ hv))
  case calls =>
    intro j k hk
    have hspawn : ∀ {new : Call}, (vm.calls.spawn new).get j = some k → new.Speaks vm' →
        k.Speaks vm' := by
      intro new hget hnew
      rcases Pool.get_spawn.mp hget with ⟨-, rfl⟩ | hget
      · exact hnew
      · exact hcalls hget
    cases hstep
    case opens | listens =>
      apply hspawn hk
      trivial
    case sends ctx vcid message nonblocking v hv hmessage =>
      apply hspawn hk
      exact hreturned v (h.listed v (vchanFromVcid_eq_some hv).1)
    case recvs ctx vcid v hv =>
      apply hspawn hk
      exact hreturned v (h.listed v (vchanFromVcid_eq_some hv).1)
    case closes ctx vcid v hv =>
      have hclosed : ((vm.vchanClosed v).vchan v).closed = true := by
        simp [HabVm.vchanClosed, write]
      apply hspawn hk
      exact ⟨hreturned v (h.listed v hv), hclosed⟩
    case receives pchan msg =>
      obtain ⟨dev, vchan, heq⟩ := vm.receive_eq pchan env msg
      have hcalls' : (vm.receive pchan env msg).calls = vm.calls := by rw [heq]
      rw [hcalls'] at hk
      exact hcalls hk
    case advances i call hi hadvance =>
      by_cases hj : j = i
      · subst hj
        rcases hadvance.goesOn hi hk with rfl | hgoes
        · exact hcalls hi
        · cases hgoes
          case frontReturns | roundReturns =>
            exact hadvance.returned_of_opened hi (by rintro v ⟨⟩) hk
          case closing v => exact @hcalls j (.closing v) hi
          all_goals trivial
      · rw [hadvance.calls_of_ne hj] at hk
        exact hcalls hk
    all_goals exact hcalls hk

/-! ## What becomes of the queues -/

theorem moved_of_eq {vchan vchan' : Vchan} (h : vchan' = vchan) : vchan.Moved vchan' := by
  subst h
  exact ⟨.inl rfl, .inl rfl⟩

theorem moved_refl (vchan : Vchan) : vchan.Moved vchan := moved_of_eq rfl

theorem moved_put {vchan vchan' : Vchan} (h : vchan.Moved vchan') : vchan.Moved vchan'.put := by
  by_cases hlast : vchan'.refcount = 1
  · rw [Vchan.put, if_pos hlast]
    refine ⟨.inr ⟨rfl, ?_⟩, h.otherendClosed⟩
    rw [List.append_nil]
    rcases h.queue with heq | ⟨-, hpre⟩
    · exact heq ▸ List.prefix_append _ _
    · exact (List.prefix_append _ _).trans hpre
  · rw [Vchan.put, if_neg hlast]
    refine ⟨h.queue.imp_right ?_, h.otherendClosed⟩
    rintro ⟨hzero, hpre⟩
    refine ⟨?_, hpre⟩
    change vchan'.refcount - 1 = 0
    rw [hzero]

theorem moved_release {v' : ℕ} (next : Option Call) {vm₁ : HabVm}
    (h : (vm.vchan v).Moved (vm₁.vchan v)) :
    (vm.vchan v).Moved ((vm₁.release i v' next).vchan v) := by
  rw [vchan_release]
  split
  case isTrue hv =>
    subst hv
    exact moved_put h
  case isFalse => exact h

theorem moved_write {vchan : Vchan} (h : (vm.vchan w).Moved vchan) (v : ℕ) :
    (vm.vchan v).Moved ((vm.write w vchan).vchan v) := by
  by_cases hv : v = w
  · subst hv
    simpa [write] using h
  · exact moved_of_eq (Function.update_of_ne hv _ _)

/-- What `hab_msg_dequeue` takes out of the queue is handed out. -/
theorem moved_msgDequeue (v w rsize : ℕ) (waited : RxWait) :
    (vm.vchan v).Moved ((vm.msgDequeue w rsize waited).vchan v) := by
  apply moved_write
  refine ⟨.inl ?_, .inl rfl⟩
  cases hrx : (vm.vchan w).rxList with
  | nil => simp [habMsgDequeue]
  | cons message rest =>
      by_cases hsize : message.data.length ≤ rsize <;> simp [habMsgDequeue, hsize]

theorem Step.moved (hspeaks : vm.Speaks) (h : vm.Step env act vm' out)
    (hact : ∀ pchan msg, act ≠ .receive pchan msg) (hv : v < vm.nextVchan) :
    (vm.vchan v).Moved (vm'.vchan v) := by
  have hopenErr : ∀ {i w : ℕ} (pchan : HabPchan) (next : Option Call) (result : List OpenReturn),
      (vm.vchan v).Moved ((vm.openErr i w pchan next result).vchan v) :=
    fun {i w} _ next _ ↦ @moved_release vm i v w next vm (moved_refl _)
  cases h
  case opens => exact moved_of_eq (Function.update_of_ne (Nat.ne_of_lt hv) _ _)
  case sendLeaks | sends | recvs | closes =>
    apply moved_write
    exact ⟨.inl rfl, .inl rfl⟩
  case receives pchan msg => exact absurd rfl (hact pchan msg)
  case advances i call hi hadvance =>
    cases hadvance
    case frontPair =>
      apply moved_write
      exact ⟨.inl rfl, .inl rfl⟩
    case frontErr | frontCancel | roundErr | roundCancel | roundRetry => exact hopenErr _ _ _
    case listenTake => exact moved_of_eq (Function.update_of_ne (Nat.ne_of_lt hv) _ _)
    case sent =>
      apply moved_release
      apply moved_write
      exact ⟨.inl rfl, .inl rfl⟩
    case sendErr => exact moved_release none (moved_refl _)
    case dequeue => exact moved_release none (moved_msgDequeue _ _ _ _)
    case closeSent =>
      apply moved_write
      exact ⟨.inl rfl, .inl rfl⟩
    case stopped w =>
      apply moved_release
      apply moved_write
      exact ⟨.inl rfl, .inr (hspeaks.calls i _ hi).2⟩
    all_goals exact moved_refl _
  all_goals exact moved_refl _

/-! ## What arrives -/

theorem vchanGet_eq_some (href : vm.Referenced) :
    vm.vchanGet pchan id sessionId = some v ↔ (vm.vchan v).Hears pchan id sessionId := by
  rw [vchanGet, Option.filter_eq_some_iff]
  simp only [Bool.and_eq_true, decide_eq_true_eq, Bool.not_eq_true', Bool.or_eq_false_iff,
    Vchan.Hears, Vchan.Listening]
  constructor
  · rintro ⟨hidr, ⟨⟨hsession, hother⟩, hother', hclosed⟩, hcount⟩
    obtain ⟨-, hpchan, hid⟩ := href.found pchan id v hidr
    exact ⟨⟨hcount, hclosed, hother'⟩, hpchan, hid, hsession, hother⟩
  · rintro ⟨⟨hcount, hclosed, hother'⟩, rfl, rfl, hsession, hother⟩
    exact ⟨href.entered v hcount, ⟨⟨hsession, hother⟩, hother', hclosed⟩, hcount⟩

theorem vchan_receive_data (href : vm.Referenced) (halloc : env.alloc = true)
    (message : Message) (v : ℕ) :
    (¬ (vm.vchan v).Hears pchan id sessionId ∧
        (vm.receive pchan env (.data id sessionId message)).vchan v = vm.vchan v) ∨
      (vm.vchan v).Hears pchan id sessionId ∧
        (vm.receive pchan env (.data id sessionId message)).vchan v = { vm.vchan v with
          rxList := (vm.vchan v).rxList ++ (message.received env.clock).toList } := by
  simp only [HabVm.receive, halloc, if_true]
  cases hget : vm.vchanGet pchan id sessionId with
  | none =>
      refine .inl ⟨fun hhears ↦ ?_, rfl⟩
      rw [(vchanGet_eq_some href).mpr hhears] at hget
      cases hget
  | some w =>
      have hw := (vchanGet_eq_some href).mp hget
      have hsame : (vm.vchan v).Hears pchan id sessionId → v = w :=
        fun hv ↦ Option.some.inj (((vchanGet_eq_some href).mpr hv).symm.trans hget)
      by_cases hvw : v = w
      · subst hvw
        refine .inr ⟨hw, ?_⟩
        cases hmessage : message.received env.clock with
        | none => simp
        | some received => simp [msgQueue, write]
      · refine .inl ⟨fun hv ↦ hvw (hsame hv), ?_⟩
        cases hmessage : message.received env.clock with
        | none => rfl
        | some received => exact Function.update_of_ne hvw _ _

theorem vchan_receive_close (href : vm.Referenced) (env : Env) (v : ℕ) :
    (¬ (vm.vchan v).Hears pchan id sessionId ∧
        (vm.receive pchan env (.close id sessionId)).vchan v = vm.vchan v) ∨
      (vm.vchan v).Hears pchan id sessionId ∧
        (vm.receive pchan env (.close id sessionId)).vchan v =
          { vm.vchan v with otherendClosed := true } := by
  simp only [HabVm.receive]
  cases hget : vm.vchanGet pchan id sessionId with
  | none =>
      refine .inl ⟨fun hhears ↦ ?_, rfl⟩
      rw [(vchanGet_eq_some href).mpr hhears] at hget
      cases hget
  | some w =>
      have hw := (vchanGet_eq_some href).mp hget
      have hsame : (vm.vchan v).Hears pchan id sessionId → v = w :=
        fun hv ↦ Option.some.inj (((vchanGet_eq_some href).mpr hv).symm.trans hget)
      by_cases hvw : v = w
      · subst hvw
        exact .inr ⟨hw, Function.update_self _ _ _⟩
      · exact .inl ⟨fun hv ↦ hvw (hsame hv), Function.update_of_ne hvw _ _⟩

end HabVm

/-- Data messages arrive as they were sent, and nothing else arrives as one. -/
theorem Message.filter_received {message : Message} (h : message.Sendable) (clock : List UInt8) :
    (message.received clock).toList.filter Message.isMsg = [message].filter Message.isMsg := by
  have hsize : ¬ habHeaderSizeMax < message.data.length := Nat.not_lt.mpr h.1
  obtain ⟨type, data⟩ := message
  simp only [Message.received, if_neg hsize]
  cases type <;> simp [Message.isMsg]

namespace Vchan

variable {src src' dst dst' speaker : Vchan} {msgs rest : List HabMsg} {msg : HabMsg}
  {entry : Option Message}

/-- What has gone out on one end has arrived on the other, is on its way or is lost for
good. -/
def Conveys (src dst : Vchan) (msgs : List HabMsg) : Prop :=
  Conduit.Conveys src.sent dst.got (inFlight dst.sessionId msgs) dst.Listening dst.Ended

theorem inFlight_append (session : UInt32) (msgs rest : List HabMsg) :
    inFlight session (msgs ++ rest) = inFlight session msgs ++ inFlight session rest :=
  List.filterMap_append

theorem inFlight_requests {session : UInt32}
    (h : ∀ msg ∈ msgs, ∃ type xdata, msg = HabMsg.request type xdata) :
    inFlight session msgs = [] := by
  rw [inFlight, List.filterMap_eq_nil_iff]
  intro msg hmsg
  obtain ⟨type, xdata, rfl⟩ := h msg hmsg
  rfl

theorem inFlight_outgoing (session : UInt32) (speaker : Vchan) (entry : Option Message) :
    inFlight session [speaker.outgoing entry] =
      if speaker.sessionId = session then [entry].filter fun entry ↦ entry.all Message.isMsg
      else [] := by
  cases entry with
  | none => by_cases h : speaker.sessionId = session <;>
      simp [inFlight, outgoing, HabMsg.entry, h]
  | some message =>
      by_cases h : speaker.sessionId = session <;> by_cases hmsg : message.isMsg = true <;>
        simp [inFlight, outgoing, HabMsg.entry, h, hmsg]

theorem Later.listening (h : dst.Later dst') (hlistening : dst'.Listening) : dst.Listening := by
  obtain ⟨hcount, hclosed, hother⟩ := hlistening
  refine ⟨fun hzero ↦ hcount (h.freed hzero), ?_, ?_⟩
  · by_contra hno
    rw [h.closed (by simpa using hno)] at hclosed
    cases hclosed
  · by_contra hno
    rw [h.otherendClosed (by simpa using hno)] at hother
    cases hother

theorem Moved.ended (h : dst.Moved dst') (hlater : dst.Later dst') (hended : dst'.Ended) :
    dst.Ended := by
  obtain ⟨hcount, hclosed, hother⟩ := hended
  refine ⟨fun hzero ↦ hcount (hlater.freed hzero), ?_, ?_⟩
  · by_contra hno
    rw [hlater.closed (by simpa using hno)] at hclosed
    cases hclosed
  · rcases h.otherendClosed with heq | hno
    · exact heq ▸ hother
    · rw [hno] at hclosed
      cases hclosed

theorem Moved.got_ne_nil (h : dst.Moved dst') (hgot : dst'.got ≠ []) : dst.got ≠ [] := by
  intro hnil
  apply hgot
  have hpre : dst'.handed ++ dst'.rxList <+: dst.handed ++ dst.rxList := by
    rcases h.queue with heq | ⟨-, hpre⟩
    · exact heq ▸ List.prefix_rfl
    · exact hpre
  have hempty := hpre.filter Message.isMsg
  rw [← got, ← got, hnil] at hempty
  exact List.prefix_nil.mp hempty

theorem Conveys.moved (h : src.Conveys dst msgs) (hmoved : dst.Moved dst')
    (hlater : dst.Later dst') : src.Conveys dst' msgs := by
  rw [Conveys, hlater.sessionId]
  rcases hmoved.queue with heq | ⟨hzero, hpre⟩
  · have hgot : dst'.got = dst.got := congrArg (List.filter Message.isMsg) heq
    rw [hgot]
    exact Conduit.Conveys.mono h hlater.listening (hmoved.ended hlater)
  · exact Conduit.Conveys.lose h (hpre.filter _) (fun h ↦ h.1 hzero) fun h ↦ h.1 hzero

theorem Conveys.spoken (h : src.Conveys dst msgs) (hlog : src'.log = src.log ++ [entry])
    (hsession : src.sessionId = dst.sessionId) :
    src'.Conveys dst (msgs ++ [src.outgoing entry]) := by
  have hsent : src'.sent = src.sent ++ [entry].filter fun entry ↦ entry.all Message.isMsg := by
    rw [sent, hlog, List.filter_append]
    rfl
  rw [Conveys, inFlight_append, inFlight_outgoing, if_pos hsession, hsent]
  exact Conduit.Conveys.put h _

theorem Conveys.quiet (h : src.Conveys dst msgs) (hlog : src'.log = src.log) :
    src'.Conveys dst msgs := by
  rw [Conveys, sent, hlog]
  exact h

/-- What another session sends is not seen. -/
theorem Conveys.append (h : src.Conveys dst msgs) (hlog : src'.log = src.log)
    (hrest : inFlight dst.sessionId rest = []) : src'.Conveys dst (msgs ++ rest) := by
  rw [Conveys, inFlight_append, hrest, List.append_nil]
  exact h.quiet hlog

theorem Conveys.deaf (h : src.Conveys dst msgs) (hlog : src'.log = src.log)
    (hdeaf : ¬ dst.Listening) : src'.Conveys dst rest := by
  rw [Conveys, sent, hlog]
  exact Conduit.Conveys.deaf h hdeaf

/-- A request arrives. -/
theorem Conveys.skip (h : src.Conveys dst (msg :: rest))
    (hmsg : inFlight dst.sessionId [msg] = []) : src.Conveys dst rest := by
  have heq : inFlight dst.sessionId (msg :: rest) = inFlight dst.sessionId rest := by
    rw [← List.singleton_append, inFlight_append, hmsg, List.nil_append]
  rw [Conveys, ← heq]
  exact h

end Vchan

namespace HabVm

variable {vm : HabVm} {v : ℕ} {env : Env} {pchan : HabPchan} {src speaker : Vchan}
  {rest : List HabMsg} {entry : Option Message}

/-- A vchan that is not spoken to hears nothing. -/
theorem receive_outgoing_eq (href : vm.Referenced) (halloc : env.alloc = true)
    (h : ¬ (vm.vchan v).Hears pchan (habVcidGetId speaker.otherendId) speaker.sessionId) :
    (vm.receive pchan env (speaker.outgoing entry)).vchan v = vm.vchan v := by
  cases entry with
  | none =>
      rcases vchan_receive_close href env v with ⟨-, heq⟩ | ⟨hyes, -⟩
      · exact heq
      · exact absurd hyes h
  | some message =>
      rcases vchan_receive_data href halloc message v with ⟨-, heq⟩ | ⟨hyes, -⟩
      · exact heq
      · exact absurd hyes h

/-- A vchan that listens gets what is sent to it. -/
theorem conveys_receive (href : vm.Referenced) (halloc : env.alloc = true)
    (h : src.Conveys (vm.vchan v) (speaker.outgoing entry :: rest))
    (hsendable : ∀ message, entry = some message → message.Sendable)
    (hhears : speaker.sessionId = (vm.vchan v).sessionId → (vm.vchan v).Listening →
      (vm.vchan v).Hears pchan (habVcidGetId speaker.otherendId) speaker.sessionId) :
    src.Conveys ((vm.receive pchan env (speaker.outgoing entry)).vchan v) rest := by
  have hfirst : inFlight (vm.vchan v).sessionId (speaker.outgoing entry :: rest) =
      inFlight (vm.vchan v).sessionId [speaker.outgoing entry] ++
        inFlight (vm.vchan v).sessionId rest := Vchan.inFlight_append _ [_] rest
  by_cases hears : (vm.vchan v).Hears pchan (habVcidGetId speaker.otherendId) speaker.sessionId
  · have hsession : speaker.sessionId = (vm.vchan v).sessionId := hears.2.2.2.1.symm
    rw [Vchan.inFlight_outgoing, if_pos hsession] at hfirst
    rw [Vchan.Conveys, hfirst] at h
    cases entry with
    | none =>
        rcases vchan_receive_close href env v with ⟨hno, -⟩ | ⟨-, heq⟩
        · exact absurd hears hno
        · rw [Vchan.outgoing, heq]
          exact Conduit.Conveys.finish h hears.1 fun hlistening ↦ by cases hlistening.2.2
    | some message =>
        rcases vchan_receive_data href halloc message v with ⟨hno, -⟩ | ⟨-, heq⟩
        · exact absurd hears hno
        · have hgot : ((vm.receive pchan env (speaker.outgoing (some message))).vchan v).got =
              (vm.vchan v).got ++ [message].filter Message.isMsg := by
            rw [Vchan.outgoing, heq, Vchan.got, ← List.append_assoc, List.filter_append,
              Message.filter_received (hsendable message rfl)]
            rfl
          rw [Vchan.Conveys, hgot, Vchan.outgoing, heq]
          by_cases hmsg : message.isMsg = true
          · simp only [List.filter_singleton, Option.all_some, hmsg] at h ⊢
            apply Conduit.Conveys.get h hears.1
            rintro ⟨-, -, hother⟩
            cases hears.1.2.2.symm.trans hother
          · simp only [List.filter_singleton, Option.all_some, hmsg, cond_false, List.nil_append,
              List.append_nil] at h ⊢
            exact h
  · rw [receive_outgoing_eq href halloc hears]
    by_cases hsession : speaker.sessionId = (vm.vchan v).sessionId
    · exact h.deaf rfl fun hlistening ↦ hears (hhears hsession hlistening)
    · apply h.skip
      rw [Vchan.inFlight_outgoing, if_neg hsession]

end HabVm

end Hab
