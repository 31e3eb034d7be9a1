import Hab.Vm

/-!
# Opens between different major versions

`backend_listen` keeps one request on its stack for all the rounds of its loop, for what
it waits for as for what it sends.  To an INIT of another major version it answers with
the pchan of the wait, which is NULL.
-/

namespace Hab

/-- How a round of `backend_listen` goes on after its INIT was accepted. -/
inductive RoundEnd where
  /-- `hab_vchan_alloc` fails. -/
  | noVchan
  /-- INIT_ACK cannot be sent. -/
  | notAcked (error : Errno)
  /-- What the wait for INIT_DONE returns, and what it has taken. -/
  | waited (ret : Option Errno) (recv : Option (HabOpenRequest HabPchan))

/-- A round of `backend_listen`: the INIT that it takes, the id of its vchan, and what
comes then. -/
structure ListenRound where
  init : HabOpenRequest HabPchan
  vchanId : UInt32
  ending : RoundEnd

/-- How a call comes to its end. -/
inductive ListenEnd where
  /-- It waits for an INIT. -/
  | waiting
  /-- The kernel stops. -/
  | stops
  /-- It returns an error, or its vchan. -/
  | returns (error : Option Errno) (vchan : Bool)
deriving DecidableEq

/-- What a call of `backend_listen` has done. -/
structure ListenDone where
  /-- The INITs that it has taken. -/
  inits : List (HabOpenRequest HabPchan)
  /-- What it has passed to `hab_open_request_send`, each with the INIT of the round. -/
  sends : List (HabOpenRequest HabPchan × HabOpenRequest (Option HabPchan))
  /-- What it has taken and not freed. -/
  unfreed : List (HabOpenRequest HabPchan)
  ending : ListenEnd

/-- The answer to an INIT of another major version, in the request that the wait has
used. -/
def mismatchReply (request : HabOpenRequest (Option HabPchan)) (subId : UInt32)
    (init : HabOpenRequest HabPchan) : HabOpenRequest (Option HabPchan) :=
  let reply := habOpenRequestInit request .initAck none 0 subId init.xdata.openId
  { reply with xdata := { reply.xdata with verBe := habApiVer } }

/-- The INIT_ACK of a round. -/
def roundAck (request : HabOpenRequest (Option HabPchan)) (subId : UInt32)
    (round : ListenRound) : HabOpenRequest (Option HabPchan) :=
  let ack := habOpenRequestInit request .initAck (some round.init.pchan) round.vchanId subId
    round.init.xdata.openId
  { ack with xdata := { ack.xdata with verFe := round.init.xdata.verFe, verBe := habApiVer } }

/-- The INIT_CANCEL of a round, in the request that has waited for INIT_DONE. -/
def roundCancel (ack : HabOpenRequest (Option HabPchan)) (subId : UInt32) (round : ListenRound) :
    HabOpenRequest (Option HabPchan) :=
  let done := habOpenRequestInit ack .initDone (some round.init.pchan) 0 subId
    round.init.xdata.openId
  habOpenRequestInit done .initCancel (some round.init.pchan) round.vchanId subId
    round.init.xdata.openId

/-- The loop of `backend_listen` over the rounds to come; `request` is as the round before
has left it.  `physical_channel_send` reads its pchan at once. -/
def backendRounds (subId : UInt32) :
    HabOpenRequest (Option HabPchan) → List ListenRound → ListenDone
  | _, [] => ⟨[], [], [], .waiting⟩
  | request, round :: rest =>
      let init := round.init
      let request := habOpenRequestInit request .init none 0 subId 0
      if majorVer init.xdata.verFe ≠ majorVer habApiVer then
        let reply := mismatchReply request subId init
        ⟨[init], [(init, reply)], [init],
          if reply.pchan = none then .stops else .returns (some .eproto) false⟩
      else
        let ack := roundAck request subId round
        match round.ending with
        | .noVchan => ⟨[init], [], [], .returns (some .enomem) false⟩
        | .notAcked error => ⟨[init], [(init, ack)], [], .returns (some error) false⟩
        | .waited ret recv =>
            let cancel := roundCancel ack subId round
            if ret ≠ none ∧ recv.any (fun request ↦ request.type = .initCancel) then
              ⟨[init], [(init, ack), (init, cancel)], recv.toList, .returns (some .einval) false⟩
            else if ret = some .enxio then
              ⟨[init], [(init, ack)], recv.toList, .returns (some .enxio) false⟩
            else if ret = some .eagain then
              let done := backendRounds subId
                { cancel with
                  xdata := { cancel.xdata with verFe := init.xdata.verFe, verBe := habApiVer } }
                rest
              { done with
                inits := init :: done.inits
                sends := (init, ack) :: (init, cancel) :: done.sends
                unfreed := recv.toList ++ done.unfreed }
            else if ret = none ∧ recv.isSome then ⟨[init], [(init, ack)], [], .returns none true⟩
            else ⟨[init], [(init, ack)], recv.toList, .returns (some .einval) false⟩

def backendListen (subId : UInt32) (rounds : List ListenRound) : ListenDone :=
  backendRounds subId zeroRequest rounds

/-- What `frontend_open` makes of the INIT_ACK that its wait has taken: the error or its
vchan, and what it has not freed. -/
structure FrontDone where
  error : Option Errno
  vchan : Bool
  unfreed : List (HabOpenRequest HabPchan)
deriving DecidableEq

/-- `frontend_open` from its wait on; `sent` says whether INIT_DONE can be sent. -/
def frontendAnswered (ack : HabOpenRequest HabPchan) (sent : Option Errno) : FrontDone :=
  if majorVer ack.xdata.verFe ≠ majorVer ack.xdata.verBe then ⟨some .eproto, false, [ack]⟩
  else
    match sent with
    | none => ⟨none, true, []⟩
    | some error => ⟨some error, false, []⟩

/-- What is claimed of a call of `backend_listen` and of the front ends it answers. -/
structure VersionsHandled (done : ListenDone) : Prop where
  named : ∀ send ∈ done.sends, send.2.pchan = some send.1.pchan
  answered : ∀ init ∈ done.inits, majorVer init.xdata.verFe ≠ majorVer habApiVer →
    done.ending = .returns (some .eproto) false ∧ init ∉ done.unfreed ∧
      ∃ ack, (init, ack) ∈ done.sends ∧ ack.type = .initAck ∧
        ack.xdata.openId = init.xdata.openId ∧
          ∀ sent, frontendAnswered ⟨.initAck, init.pchan, ack.xdata⟩ sent =
            ⟨some .eproto, false, []⟩

/-- The loop takes another INIT after this round. -/
def ListenRound.retries (round : ListenRound) : Prop :=
  ∃ recv, round.ending = .waited (some .eagain) recv ∧
    ¬ recv.any (fun request ↦ request.type = .initCancel)

/-- The condition: each INIT that the loop comes to is of the major version. -/
def SameMajor : List ListenRound → Prop
  | [] => True
  | round :: rest =>
      majorVer round.init.xdata.verFe = majorVer habApiVer ∧ (round.retries → SameMajor rest)

/-! ## Rounds -/

variable {subId : UInt32} {request : HabOpenRequest (Option HabPchan)} {round : ListenRound}
  {rest : List ListenRound}

/-- A round that starts over has sent an INIT_ACK and an INIT_CANCEL on the pchan of its
INIT. -/
theorem backendRounds_retries
    (hmajor : majorVer round.init.xdata.verFe = majorVer habApiVer) (hretries : round.retries) :
    ∃ ack cancel next, ack.pchan = some round.init.pchan ∧
      cancel.pchan = some round.init.pchan ∧
        (backendRounds subId request (round :: rest)).inits =
          round.init :: (backendRounds subId next rest).inits ∧
        (backendRounds subId request (round :: rest)).sends =
          (round.init, ack) :: (round.init, cancel) :: (backendRounds subId next rest).sends := by
  obtain ⟨init, vchanId, ending⟩ := round
  obtain ⟨recv, hending, hcancel⟩ := hretries
  dsimp only at hmajor hending
  subst hending
  rw [backendRounds]
  dsimp only
  rw [if_neg (not_not.mpr hmajor), if_neg fun h ↦ hcancel h.2, if_neg (by simp), if_pos rfl]
  exact ⟨_, _, _, rfl, rfl, rfl, rfl⟩

/-- A round that ends the call sends on no other pchan either. -/
theorem backendRounds_ends
    (hmajor : majorVer round.init.xdata.verFe = majorVer habApiVer) (hends : ¬ round.retries) :
    (backendRounds subId request (round :: rest)).inits = [round.init] ∧
      ∀ send ∈ (backendRounds subId request (round :: rest)).sends,
        send.2.pchan = some send.1.pchan := by
  obtain ⟨init, vchanId, ending⟩ := round
  dsimp only at hmajor
  rw [backendRounds]
  dsimp only
  rw [if_neg (not_not.mpr hmajor)]
  cases ending with
  | noVchan => exact ⟨rfl, by simp⟩
  | notAcked error => exact ⟨rfl, by simp [roundAck, habOpenRequestInit]⟩
  | waited ret recv =>
      dsimp only
      split
      next => exact ⟨rfl, by simp [roundAck, roundCancel, habOpenRequestInit]⟩
      next hcancel =>
        split
        next => exact ⟨rfl, by simp [roundAck, habOpenRequestInit]⟩
        next =>
          split
          next hagain =>
            subst hagain
            refine absurd ⟨recv, rfl, ?_⟩ hends
            intro hany
            exact hcancel ⟨by simp, hany⟩
          next => split <;> exact ⟨rfl, by simp [roundAck, habOpenRequestInit]⟩

theorem backendRounds_mismatch
    (hmajor : majorVer round.init.xdata.verFe ≠ majorVer habApiVer) :
    (round.init, mismatchReply (habOpenRequestInit request .init none 0 subId 0) subId
      round.init) ∈ (backendRounds subId request (round :: rest)).sends := by
  rw [backendRounds]
  dsimp only
  rw [if_pos hmajor]
  exact List.mem_singleton_self _

/-- If the loop comes to no INIT of another version, all that it sends names a pchan, and all
that it has taken is of the same version. -/
theorem versions_of_sameMajor {rounds : List ListenRound} (h : SameMajor rounds) :
    (∀ send ∈ (backendRounds subId request rounds).sends, send.2.pchan = some send.1.pchan) ∧
      ∀ init ∈ (backendRounds subId request rounds).inits,
        majorVer init.xdata.verFe = majorVer habApiVer := by
  induction rounds generalizing request with
  | nil => exact ⟨fun _ hsend ↦ absurd hsend List.not_mem_nil,
      fun _ hinit ↦ absurd hinit List.not_mem_nil⟩
  | cons round rest ih =>
      obtain ⟨hmajor, hrest⟩ := h
      by_cases hretries : round.retries
      · obtain ⟨ack, cancel, next, hack, hcancel, hinits, hsends⟩ :=
          backendRounds_retries hmajor hretries
        obtain ⟨hnamed, hsame⟩ := @ih next (hrest hretries)
        rw [hinits, hsends]
        simp only [List.forall_mem_cons]
        exact ⟨⟨hack, hcancel, hnamed⟩, hmajor, hsame⟩
      · obtain ⟨hinits, hsends⟩ := backendRounds_ends hmajor hretries
        rw [hinits, List.forall_mem_singleton]
        exact ⟨hsends, hmajor⟩

/-- An INIT of another version is answered on no pchan. -/
theorem sameMajor_of_named {rounds : List ListenRound}
    (h : ∀ send ∈ (backendRounds subId request rounds).sends,
      send.2.pchan = some send.1.pchan) : SameMajor rounds := by
  induction rounds generalizing request with
  | nil => trivial
  | cons round rest ih =>
      by_cases hmajor : majorVer round.init.xdata.verFe = majorVer habApiVer
      · refine ⟨hmajor, ?_⟩
        intro hretries
        obtain ⟨ack, cancel, next, -, -, -, hsends⟩ := backendRounds_retries hmajor hretries
        rw [hsends] at h
        simp only [List.forall_mem_cons] at h
        exact ih h.2.2
      · have hnull := h _ (backendRounds_mismatch hmajor)
        cases hnull

/-- A call of `backend_listen` handles the versions as claimed exactly if it comes to no INIT
of another major version. -/
theorem versionsHandled_iff (subId : UInt32) (rounds : List ListenRound) :
    VersionsHandled (backendListen subId rounds) ↔ SameMajor rounds := by
  constructor
  · intro hhandled
    exact sameMajor_of_named hhandled.named
  · intro hsame
    obtain ⟨hnamed, hmajor⟩ := versions_of_sameMajor hsame
    refine ⟨hnamed, ?_⟩
    intro init hinit hother
    exact absurd (hmajor init hinit) hother

/-- A front end of version 2.0. -/
def otherVersion : ListenRound :=
  ⟨⟨.init, vcidPchan 0, ⟨1, 1, 1, 0x00020000, 0, 1⟩⟩, 1, .noVchan⟩

/-- The answer to it has no pchan to go out on. -/
theorem not_versionsHandled :
    ¬ ∀ (subId : UInt32) (rounds : List ListenRound),
      VersionsHandled (backendListen subId rounds) := by
  intro h
  have hnamed := (h 1 [otherVersion]).named
  have hsame := sameMajor_of_named hnamed
  exact absurd hsame.1 (by decide)

end Hab
