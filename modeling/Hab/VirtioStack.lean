import Hab.PromptSessions
import Hab.VhostReceive
import Hab.VirtioReceive

/-!
# A guest and its host

The guest has the front end and sends over the tx virtqueue; `hab_vhost` is always the back
end and sends over the rx virtqueue.
-/

namespace Hab

/-! ## The rx virtqueue -/

theorem VhostRx.queued_step {s t : VhostRx} {exceedsWeight : ℕ → Bool} {e : RxEvent}
    (hstep : s.step exceedsWeight e = some t) : s.queued <+: t.queued := by
  have hturn (clock : RxClock) (node : SendNode) (rest : List SendNode) (data totalLen : ℕ) :
      s.queued <+: (s.sendTurn exceedsWeight clock node rest data totalLen).queued := by
    rw [sendTurn]
    split <;> exact List.prefix_refl _
  cases e with
  | physicalChannelSend node =>
      rw [VhostRx.step] at hstep
      split at hstep <;> cases hstep
      · exact List.prefix_refl _
      · exact List.prefix_append _ _
  | addBuffers bufs =>
      cases hstep
      exact List.prefix_refl _
  | rxWorker =>
      rw [VhostRx.step] at hstep
      split at hstep <;> cases hstep
      exact List.prefix_refl _
  | work clock =>
      rw [VhostRx.step, workStep] at hstep
      split at hstep
      next => cases hstep
      next =>
        cases hstep
        exact List.prefix_refl _
      next =>
        split at hstep
        next => cases hstep
        next =>
          split at hstep <;> cases hstep
          · exact hturn _ _ _ _ _
          · exact List.prefix_refl _

namespace RxLink

variable {s t : RxLink} {e : RxLinkEvent}

theorem hostStep_keeps {e : RxEvent} (hstep : s.hostStep e = some t) :
    s.host.queued <+: t.host.queued ∧ t.handled = s.handled := by
  rw [hostStep] at hstep
  split at hstep
  next => cases hstep
  next host hhost =>
    have hqueued := VhostRx.queued_step hhost
    split at hstep
    next =>
      cases hstep
      exact ⟨hqueued, rfl⟩
    next =>
      split at hstep
      next => cases hstep
      next =>
        cases hstep
        exact ⟨hqueued, rfl⟩

/-- The host accepts, and the guest handles, at the end of a list. -/
theorem step_grows (hstep : s.step e = some t) :
    s.host.queued <+: t.host.queued ∧
      (t.handled = s.handled ∨ ∃ r, t.handled = s.handled ++ [r]) := by
  cases e with
  | physicalChannelSend | rxWorker | work =>
      obtain ⟨hqueued, hhandled⟩ := hostStep_keeps hstep
      exact ⟨hqueued, .inl hhandled⟩
  | getBuf env =>
      rw [RxLink.step, getBuf] at hstep
      split at hstep
      next =>
        split at hstep <;> cases hstep <;> exact ⟨List.prefix_refl _, .inl rfl⟩
      next => cases hstep
  | physicalChannelRead =>
      rw [RxLink.step, physicalChannelRead] at hstep
      split at hstep <;> cases hstep
      exact ⟨List.prefix_refl _, .inl rfl⟩
  | addInbuf =>
      rw [RxLink.step, addInbuf] at hstep
      split at hstep <;> cases hstep
      exact ⟨List.prefix_refl _, .inr ⟨_, rfl⟩⟩
  | habStatLog =>
      cases hstep
      rw [habStatLog]
      split <;> exact ⟨List.prefix_refl _, .inl rfl⟩

def carrier (num : ℕ) (sequence : UInt32) : Carrier RxLink RxLinkEvent where
  start := start num sequence
  step := step
  Undisturbed := Undisturbed
  accepted := fun s ↦ s.host.queued
  handled := handled
  accepted_start := rfl
  handled_start := rfl
  accepted_step := fun hstep ↦ (step_grows hstep).1
  handled_step := fun hstep ↦ (step_grows hstep).2
  carries := by
    intro events s hmeets hrun
    obtain ⟨hinv, hframes⟩ := inv_of_meets hmeets hrun
    exact (hinv.carries hframes).mono fun k node r ⟨clock, hgets⟩ ↦ ⟨_, clock, hgets⟩

/-- A buffer of the guest comes back after each message. -/
theorem prompt (num : ℕ) (sequence : UInt32) :
    (carrier num sequence).Prompt (fun _ ↦ Ready num sequence) where
  hands := by
    intro n s node renv h hnode _ _
    have haccept : s.step (.physicalChannelSend node) = some (s.accept node) := step_accept hnode
    obtain ⟨t, hwork, ht⟩ := h.exists_written hnode ⟨0, 0, 0⟩
    obtain ⟨m, u, v, hget, hqueued, hhandled, hadd, hv⟩ := ht.exists_handled renv
    obtain ⟨r, henv, hr⟩ := hv.handled
    have hrun := (Runs.exec_append hwork).trans hget
    have hmeets : Runs.Meets step Undisturbed (s.accept node)
        ((.rxWorker :: List.replicate 4 (.work ⟨0, 0, 0⟩)) ++
          .getBuf renv :: List.replicate m .physicalChannelRead) :=
      Runs.meets_of_forall (undisturbed_of_ne (by simp)) _
    obtain ⟨hinv, hframes⟩ := h.inv.of_meets h.frames ((Runs.meets_cons haccept).mpr
      ⟨trivial, hmeets⟩) ((Runs.exec_cons haccept _).trans hrun)
    have hquiet : (carrier num sequence).Rests (s.accept node) u :=
      Carrier.rests_of_exec hmeets hrun (hqueued.trans ht.accepted) (hhandled.trans ht.handled)
    refine ⟨v, ⟨hinv.step hadd, hinv.frames_step hframes (e := .addInbuf) trivial hadd, ?_, ?_,
      hv.avail, hv.used, hv.task⟩, .physicalChannelSend node, .addInbuf, r, s.accept node, u, v,
      ⟨trivial, haccept, rfl, rfl⟩, hquiet, ⟨trivial, hadd, ?_, ?_⟩, henv, .refl v⟩
    · exact hv.sendList.trans ht.sendList
    · exact hv.worker.trans ht.worker
    · exact hv.accepted.trans hqueued.symm
    · exact hr.trans (congrArg (· ++ [r]) hhandled.symm)
  length_eq := fun h ↦ h.inv.length_eq_of_idle h.frames h.idle
  mono := fun h ↦ h

end RxLink

/-! ## The tx virtqueue -/

namespace TxLink

variable {s t : TxLink} {e : TxLinkEvent}

theorem guestStep_keeps {e : VirtioEvent} (hstep : s.guestStep e = some t) :
    s.accepted <+: t.accepted ∧ t.handled = s.handled := by
  rw [guestStep] at hstep
  split at hstep
  next => cases hstep
  next guest hguest =>
    split at hstep
    next =>
      cases hstep
      exact ⟨List.prefix_refl _, rfl⟩
    next =>
      dsimp only at hstep
      split at hstep
      next => cases hstep
      next =>
        split at hstep <;> cases hstep
        · exact ⟨List.prefix_append _ _, rfl⟩
        · exact ⟨List.prefix_refl _, rfl⟩

/-- The guest accepts, and the host handles, at the end of a list. -/
theorem step_grows (hstep : s.step e = some t) :
    s.accepted <+: t.accepted ∧ (t.handled = s.handled ∨ ∃ r, t.handled = s.handled ++ [r]) := by
  cases e with
  | pchanReady =>
      obtain ⟨haccepted, hhandled⟩ := guestStep_keeps (e := .pchanReady) hstep
      exact ⟨haccepted, .inl hhandled⟩
  | linkVpc =>
      obtain ⟨haccepted, hhandled⟩ := guestStep_keeps (e := .linkVpc) hstep
      exact ⟨haccepted, .inl hhandled⟩
  | physicalChannelSend | wake =>
      obtain ⟨haccepted, hhandled⟩ := guestStep_keeps hstep
      exact ⟨haccepted, .inl hhandled⟩
  | recvTxq =>
      rw [TxLink.step, recvTxq] at hstep
      split at hstep
      next =>
        split at hstep <;> cases hstep
        exact ⟨List.prefix_refl _, .inl rfl⟩
      next =>
        cases hstep
        exact ⟨List.prefix_refl _, .inl rfl⟩
  | txWorker =>
      rw [TxLink.step] at hstep
      split at hstep <;> cases hstep
      exact ⟨List.prefix_refl _, .inl rfl⟩
  | getVqDesc env =>
      rw [TxLink.step, getVqDesc] at hstep
      split at hstep
      next => split at hstep <;> cases hstep <;> exact ⟨List.prefix_refl _, .inl rfl⟩
      next => cases hstep
  | physicalChannelRead =>
      rw [TxLink.step, physicalChannelRead] at hstep
      split at hstep <;> cases hstep
      exact ⟨List.prefix_refl _, .inl rfl⟩
  | addUsed =>
      rw [TxLink.step, addUsed] at hstep
      split at hstep <;> cases hstep
      exact ⟨List.prefix_refl _, .inr ⟨_, rfl⟩⟩
  | habStatLog =>
      cases hstep
      rw [habStatLog]
      split <;> exact ⟨List.prefix_refl _, .inl rfl⟩

def carrier : Carrier TxLink TxLinkEvent where
  start := start
  step := step
  Undisturbed := Undisturbed
  accepted := accepted
  handled := handled
  accepted_start := rfl
  handled_start := rfl
  accepted_step := fun hstep ↦ (step_grows hstep).1
  handled_step := fun hstep ↦ (step_grows hstep).2
  carries := by
    intro events s hmeets hrun
    exact (inv_of_meets hmeets hrun).carries.mono
      fun k node r ⟨clock, hgets⟩ ↦ ⟨_, clock, hgets⟩

/-- The guest does not collect its buffers, so there are no more messages than small
buffers. -/
theorem prompt : carrier.Prompt (fun n s ↦ ∃ k, k + n < 200 ∧ Ready k s) where
  hands := by
    rintro n s node renv ⟨k, hk, h⟩ hnode _ _
    obtain ⟨haccepted, t, hsend, ht⟩ := h.exists_sent (show k + 1 < 200 by omega) node hnode
      ⟨0, 0, 0⟩
    obtain ⟨u, v, hhandles, huaccepted, huhandled, hused, hv⟩ := ht.exists_handled renv
    have hmeets : Runs.Meets step Undisturbed t (handles node renv) :=
      Runs.meets_of_forall undisturbed_handles t
    have hinv : Inv v := by
      have ht' : Inv t := h.inv.step (e := .physicalChannelSend node ⟨0, 0, 0⟩ true) haccepted hsend
      have hu : Inv u := Runs.invariant_of_meets (fun _ _ _ hs hguard hstep ↦ hs.step hguard hstep)
        ht' hmeets hhandles
      exact hu.step (e := .addUsed) trivial hused
    obtain ⟨es, w, hes, hrun, hwaccepted, hwhandled, hw⟩ := hv.exists_ready ht hinv
    have hstops : Runs.Meets step Undisturbed v es := by
      refine Runs.meets_of_forall (fun e he s ↦ ?_) v
      rw [hes e he]
      trivial
    obtain ⟨r, henv, hr⟩ := hv.handled
    refine ⟨w, ⟨k + 1, by omega, hw⟩, .physicalChannelSend node ⟨0, 0, 0⟩ true, .addUsed, r, t, u, v,
      ⟨haccepted, hsend, ht.accepted, ht.handled⟩,
      Carrier.rests_of_exec hmeets hhandles huaccepted huhandled, ⟨trivial, hused, ?_, ?_⟩, henv,
      Carrier.rests_of_exec hstops hrun hwaccepted hwhandled⟩
    · exact hv.accepted.trans huaccepted.symm
    · exact hr.trans (congrArg (· ++ [r]) huhandled.symm)
  length_eq := by
    rintro n s ⟨k, -, h⟩
    exact h.inv.length_eq_of_idle h.idle
  mono := by
    rintro n s ⟨k, hk, h⟩
    exact ⟨k, by omega, h⟩

end TxLink

/-! ## Both -/

namespace Stack

variable {p q : HabPchan} {num : ℕ} {sequence : UInt32} {s : Stack TxLink RxLink}

/-- Sessions keep their messages over the two virtqueues, and nothing is on its way when
both rest. -/
theorem virtio_sessions_lossless {acts : List (StackAct TxLinkEvent RxLinkEvent)}
    (hmeets : Runs.Meets (step p q TxLink.carrier (RxLink.carrier num sequence))
      (Undisturbed p q TxLink.carrier (RxLink.carrier num sequence))
      (start TxLink.carrier (RxLink.carrier num sequence)) acts)
    (hrun : Runs.exec (step p q TxLink.carrier (RxLink.carrier num sequence))
      (start TxLink.carrier (RxLink.carrier num sequence)) acts = some s)
    (hcounter : s.front.openIdCounter < 2 ^ 32) :
    Runs.Matched (Link.step p q) (fun act ↦ act.allocates = true) Link.start
        (s.link TxLink.carrier (RxLink.carrier num sequence)) ∧
      (s.link TxLink.carrier (RxLink.carrier num sequence)).Lossless ∧
      (s.toBack.Idle → (s.link TxLink.carrier (RxLink.carrier num sequence)).toBack = []) ∧
      (s.toFront.Idle → (s.link TxLink.carrier (RxLink.carrier num sequence)).toFront = []) := by
  have h := inv_of_meets hmeets hrun
  refine ⟨matched_link hmeets hrun, lossless_of_meets hmeets hrun hcounter, ?_, ?_⟩
  · intro hidle
    obtain ⟨events, hmeets, hrun⟩ := h.toBack.reached
    exact Carrier.flying_of_length_eq ((TxLink.inv_of_meets hmeets hrun).length_eq_of_idle hidle)
  · intro hidle
    obtain ⟨events, hmeets, hrun⟩ := h.toFront.reached
    obtain ⟨hinv, hframes⟩ := RxLink.inv_of_meets hmeets hrun
    exact Carrier.flying_of_length_eq (hinv.length_eq_of_idle hframes hidle)

/-- What the VMs do over two lossless channels, each message short and received at once,
they can do over the virtqueues. -/
theorem exists_leads_of_prompt (num : ℕ) (sequence : UInt32) (hnum : 0 < num)
    {acts : List LinkAct} {l : Link} (hrun : Runs.exec (Link.promptStep p q) Link.start acts = some l) (hlen : acts.length ≤ 199) :
    ∃ s, Runs.Leads (step p q TxLink.carrier (RxLink.carrier num sequence))
        (Undisturbed p q TxLink.carrier (RxLink.carrier num sequence))
        (start TxLink.carrier (RxLink.carrier num sequence)) s ∧
      s.link TxLink.carrier (RxLink.carrier num sequence) = l := by
  let d := RxLink.carrier num sequence
  have hset : Runs.exec TxLink.step TxLink.start [.pchanReady, .linkVpc] =
      some (TxLink.linked TxLink.start.pools) :=
    (Runs.exec_cons TxLink.step_pchanReady _).trans (Runs.exec_cons TxLink.step_linkVpc [])
  have hmeets : Runs.Meets TxLink.step TxLink.Undisturbed TxLink.start [.pchanReady, .linkVpc] :=
    (Runs.meets_cons TxLink.step_pchanReady).mpr ⟨trivial,
      (Runs.meets_cons TxLink.step_linkVpc).mpr ⟨trivial, trivial⟩⟩
  have hrests : TxLink.carrier.Rests TxLink.start (TxLink.linked TxLink.start.pools) :=
    Carrier.rests_of_exec hmeets hset rfl rfl
  have hlinked := (endsAt_back (p := p) (q := q) (c := TxLink.carrier) (d := d) .init
    d.start).leads_rests .init hrests
  have hready : AtRest TxLink.carrier d (fun n s ↦ ∃ k, k + n < 200 ∧ TxLink.Ready k s)
      (fun _ ↦ RxLink.Ready num sequence) 199
      ⟨.init, .init, TxLink.linked TxLink.start.pools, d.start⟩ Link.start :=
    ⟨inv_start.leads hlinked, ⟨0, by decide, TxLink.ready_linked (TxLink.inv_of_meets hmeets hset)⟩,
      RxLink.ready_start hnum, rfl⟩
  obtain ⟨s, hleads, hs⟩ := hready.exec TxLink.prompt (RxLink.prompt num sequence) hrun hlen
  exact ⟨s, hlinked.trans hleads, hs.link_eq TxLink.prompt (RxLink.prompt num sequence)⟩

/-- An open, and a message on it that is received. -/
def oneSession (pchan : HabPchan) (id : Fin 4096) (message : Message) : List LinkAct :=
  [.front (.frontendOpen 0 pchan 0 zeroRequest) { idr := some id },
    .front (.advance 0) {}, -- INIT
    .back (.backendListen ⟨0, 0, false⟩) {},
    .back (.advance 0) {},
    .back (.advance 0) { idr := some id },
    .back (.advance 0) {}, -- INIT_ACK
    .front (.advance 0) {},
    .front (.advance 0) {},
    .front (.advance 0) {}, -- INIT_DONE
    .back (.advance 0) {},
    .back (.advance 0) {},
    .front (.advance 0) {},
    .front (.send 0 (habVcid pchan id) message false) {},
    .front (.advance 1) {},
    .back (.advance 0) {},
    .back (.recv 0 (habVcid pchan id)) {},
    .back (.advance 1) { rsize := message.data.length }]

theorem virtio_sessions_lossless_oneSession :
    ∃ acts s, Runs.exec (step ⟨⟨0, by decide⟩, ⟨0, by decide⟩⟩ ⟨⟨0, by decide⟩, ⟨0, by decide⟩⟩
        TxLink.carrier (RxLink.carrier 2 6)) (start TxLink.carrier (RxLink.carrier 2 6)) acts =
          some s ∧
      (s.back.vchan 0).handedOut = [⟨.msg, [7]⟩] ∧
      Runs.Matched (Link.step ⟨⟨0, by decide⟩, ⟨0, by decide⟩⟩ ⟨⟨0, by decide⟩, ⟨0, by decide⟩⟩)
        (fun act ↦ act.allocates = true) Link.start
          (s.link TxLink.carrier (RxLink.carrier 2 6)) ∧
      (s.link TxLink.carrier (RxLink.carrier 2 6)).Lossless ∧
      (s.toBack.Idle → (s.link TxLink.carrier (RxLink.carrier 2 6)).toBack = []) ∧
      (s.toFront.Idle → (s.link TxLink.carrier (RxLink.carrier 2 6)).toFront = []) := by
  let p : HabPchan := ⟨⟨0, by decide⟩, ⟨0, by decide⟩⟩
  have hseen : (Runs.exec (Link.promptStep p p) Link.start
      (oneSession p ⟨1, by decide⟩ ⟨.msg, [7]⟩)).map
        (fun l ↦ (l.front.openIdCounter, (l.back.vchan 0).handedOut)) = some (1, [⟨.msg, [7]⟩]) := by
    decide
  obtain ⟨l, hrun, hl⟩ := Option.map_eq_some_iff.mp hseen
  simp only [Prod.mk.injEq] at hl
  obtain ⟨hcounter, hhanded⟩ := hl
  obtain ⟨s, ⟨acts, hmeets, hacts⟩, rfl⟩ := exists_leads_of_prompt 2 6 (by decide) hrun
    (by simp [oneSession])
  refine ⟨acts, s, hacts, hhanded, virtio_sessions_lossless hmeets hacts ?_⟩
  exact hcounter.trans_lt (by decide)

end Stack

end Hab
