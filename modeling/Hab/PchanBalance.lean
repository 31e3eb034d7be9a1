import Hab.Library.Runs
import Hab.MemberLookups
import Hab.VmLedger

/-!
# The balance of the pchan references (`hab_vchan_open`, `hab_vhost.c`)

The opens of a VM as `hab_vchan_open` starts them, and the files of the vhost driver,
which have the pchans of one VM at a time.
-/

namespace Hab

/-- What `hab_vchan_open` reads of the driver, the device and the contexts. -/
structure HabDriver where
  /-- `hab_driver.b_loopback` -/
  loopback : Bool
  /-- `ctx->lb_be` -/
  lbBe : ℕ → Bool
  /-- `dev->pchannels` -/
  pchannels : List HabPchan
  /-- What the head of that list is taken for after a loop without a match. -/
  head : Lookups.ListedPchan
  /-- `pchan->is_be` -/
  isBe : HabPchan → Bool

def loopbackDom : Fin 256 := ⟨255, by decide⟩

namespace HabDriver

variable (driver : HabDriver)

/-- What is read of a pchan on the list. -/
def listed (dev : HabDevice HabPchan) (pchan : HabPchan) : Lookups.ListedPchan :=
  ⟨(pchan.domId : ℕ), dev.refcount pchan, driver.isBe pchan⟩

/-- `hab_pchan_find_domid`, before it takes the reference. -/
def habPchanFindDomid (dev : HabDevice HabPchan) (domId : ℤ) : Option Cursor.Place :=
  (Lookups.habPchanFindDomid ⟨driver.pchannels.map (driver.listed dev), driver.head⟩ domId).1

/-- `frontend_open`, which looks for its pchan first; there is no result where that is the
head of the list. -/
def frontend (vm : HabVm) (ctx : ℕ) (subId : UInt32) (request : HabOpenRequest (Option HabPchan))
    (domId : ℤ) (env : Env) : Option HabVm :=
  match driver.habPchanFindDomid vm.dev domId with
  | none => some { vm with returns := vm.returns ++ [⟨true, subId, none, none, some .einval⟩] }
  | some .head => none
  | some (.member i) =>
      driver.pchannels[i]?.bind fun pchan ↦ vm.frontendOpen ctx pchan subId request env

/-- `backend_listen`, up to its first wait. -/
def backend (vm : HabVm) (ctx : ℕ) (subId : UInt32) (timed : Bool) : HabVm :=
  { vm with calls := vm.calls.spawn (.listen ⟨ctx, subId, timed⟩ .wait) }

/-- `hab_vchan_open`.  The pchan that tells the end of the device is found with a
reference of its own, which is never given back. -/
def habVchanOpen (vm : HabVm) (ctx : ℕ) (subId : UInt32) (timed : Bool)
    (request : HabOpenRequest (Option HabPchan)) (env : Env) : Option HabVm :=
  if driver.loopback then
    if driver.lbBe ctx then some (backend vm ctx subId timed)
    else driver.frontend vm ctx subId request (loopbackDom : ℕ) env
  else if vm.forbidden ctx subId then some vm
  else
    match driver.habPchanFindDomid vm.dev Lookups.habcfgVmidDontCare with
    | none => some vm
    | some .head => none
    | some (.member i) =>
        driver.pchannels[i]?.bind fun pchan ↦
          let vm := { vm with dev := vm.dev.pchanGet pchan }
          if driver.isBe pchan then some (backend vm ctx subId timed)
          else driver.frontend vm ctx subId request Lookups.habcfgVmidDontCare env

end HabDriver

/-- The call is begun by `hab_vchan_open`. -/
def VmAct.opens : VmAct → Bool
  | .frontendOpen _ _ _ _ | .backendListen _ => true
  | _ => false

/-- A VM with the files of its vhost driver. -/
structure VhostVm where
  vm : HabVm
  /-- `g_vh.vh_pchan_list` -/
  vhPchans : List HabPchan
  /-- The `vh_pchan_list` of each open file. -/
  files : Pool (List HabPchan)

/-- What may happen next. -/
inductive VhostAct where
  | habVchanOpen (ctx : ℕ) (subId : UInt32) (timed : Bool)
      (request : HabOpenRequest (Option HabPchan))
  | vhostHabOpen (habdevs : List (Fin 4096)) (vmid : Fin 256)
  | vhostHabRelease (file : ℕ)
  /-- Anything else but the start of an open. -/
  | vm (act : VmAct)

namespace VhostVm

/-- The loop of `vhost_hab_open`: did it find a pchan for each device?  With it, what is
left of `g_vh.vh_pchan_list` and what the file has. -/
def takeVhPchans (vmid : Fin 256) :
    List (Fin 4096) → List HabPchan → List HabPchan → Bool × List HabPchan × List HabPchan
  | [], free, taken => (true, free, taken)
  | habdev :: habdevs, free, taken =>
      match free.find? fun pchan ↦ pchan.mmid = habdev ∧ pchan.domId = vmid with
      | none => (false, free, taken)
      | some pchan => takeVhPchans vmid habdevs (free.erase pchan) (taken ++ [pchan])

def vhostHabOpen (s : VhostVm) (habdevs : List (Fin 4096)) (vmid : Fin 256) : VhostVm :=
  match takeVhPchans vmid habdevs s.vhPchans [] with
  | (true, free, taken) => { s with vhPchans := free, files := s.files.spawn taken }
  | (false, free, taken) => { s with vhPchans := free ++ taken }

/-- `vhost_hab_release` puts the pchans, which `vhost_hab_open` did not get. -/
def vhostHabRelease (s : VhostVm) (file : ℕ) (pchans : List HabPchan) : VhostVm :=
  { vm := { s.vm with dev := pchans.foldl HabDevice.pchanPut s.vm.dev }
    vhPchans := s.vhPchans ++ pchans
    files := s.files.set file none }

def step (driver : HabDriver) (s : VhostVm) : VhostAct × Env → Option VhostVm
  | (.habVchanOpen ctx subId timed request, env) =>
      (driver.habVchanOpen s.vm ctx subId timed request env).map fun vm ↦ { s with vm := vm }
  | (.vhostHabOpen habdevs vmid, _) => some (s.vhostHabOpen habdevs vmid)
  | (.vhostHabRelease file, _) => (s.files.get file).map fun pchans ↦ s.vhostHabRelease file pchans
  | (.vm act, env) =>
      if act.opens then none
      else (s.vm.step act env).map fun result ↦ { s with vm := result.1 }

def start (vhPchans : List HabPchan) : VhostVm := ⟨.init, vhPchans, .empty⟩

/-- A pchan has a reference for itself, for each vchan that has not been freed and for
each entry of `openq_list`, and `openq_cnt` is the length of that list. -/
structure Balanced (s : VhostVm) : Prop where
  refcount : ∀ p, s.vm.dev.refcount p =
    1 + s.vm.unfreed p + s.vm.dev.countQueued fun request ↦ request.pchan = p
  openqCnt : s.vm.dev.openqCnt = s.vm.dev.openqList.length

/-- The condition on a step: `hab_vchan_open` does not find a pchan of its own, and
`frontend_open` not the head of the list, no vhost file that has pchans is released, no
INIT_CANCEL finds the request it withdraws, and the next steps of the calls settle what they
took. -/
def Careful (driver : HabDriver) (s : VhostVm) : VhostAct × Env → Prop
  | (.habVchanOpen ctx subId _ _, _) =>
      if driver.loopback then
        driver.lbBe ctx = true ∨
          driver.habPchanFindDomid s.vm.dev (loopbackDom : ℕ) ≠ some .head
      else
        s.vm.forbidden ctx subId = true ∨
          driver.habPchanFindDomid s.vm.dev Lookups.habcfgVmidDontCare = none
  | (.vhostHabOpen _ _, _) => True
  | (.vhostHabRelease file, _) => ∀ pchans, s.files.get file = some pchans → pchans = []
  | (.vm act, env) =>
      (∀ pchan xdata, act = .receive pchan (.request .initCancel xdata) →
        s.vm.dev.openqList.any (fun node ↦ node.request.cancelledBy xdata) = false) ∧
      ∀ i call, act = .advance i → s.vm.calls.get i = some call → s.vm.Settles env call

/-! ## The invariant -/

structure Inv (s : VhostVm) : Prop where
  referenced : s.vm.Referenced
  ledger : ∀ p, s.vm.ledger p = 1
  surplus : s.vm.dev.surplus = 0

theorem inv_start (vhPchans : List HabPchan) : Inv (start vhPchans) where
  referenced := .init
  ledger _ := rfl
  surplus := rfl

variable {driver : HabDriver} {s : VhostVm}

/-- With no call in progress, what no one has is the pchan's own reference. -/
theorem Inv.balanced (h : Inv s) (hidle : ∀ i, s.vm.calls.get i = none) : s.Balanced where
  refcount p := by
    have hsum : s.vm.calls.sum (Call.pchanRefs p) = 0 := by
      refine Pool.sum_eq_zero fun i call hcall ↦ ?_
      rw [hidle i] at hcall
      cases hcall
    have hledger := h.ledger p
    rw [HabVm.ledger, HabVm.stock, HabDevice.owed, hsum] at hledger
    push_cast at hledger
    omega
  openqCnt := by
    have hsurplus := h.surplus
    rw [HabDevice.surplus] at hsurplus
    omega

theorem Inv.settled {vm' : HabVm} (h : Inv s) (href : vm'.Referenced)
    (hsettled : s.vm.Settled vm') : Inv { s with vm := vm' } where
  referenced := href
  ledger p := (hsettled.ledger p).trans (h.ledger p)
  surplus := hsettled.surplus.trans h.surplus

theorem Inv.vmStep (h : Inv s) {act : VmAct} {env : Env} {vm' : HabVm}
    {out : List (HabPchan × HabMsg)}
    (hcancel : ∀ pchan xdata, act = .receive pchan (.request .initCancel xdata) →
      s.vm.dev.openqList.any (fun node ↦ node.request.cancelledBy xdata) = false)
    (hsettles : ∀ i call, act = .advance i → s.vm.calls.get i = some call → s.vm.Settles env call)
    (hstep : s.vm.step act env = some (vm', out)) : Inv { s with vm := vm' } :=
  h.settled (h.referenced.step (HabVm.step_cases hstep))
    (HabVm.settled_step h.referenced hcancel hsettles hstep)

theorem Inv.backend (h : Inv s) (ctx : ℕ) (subId : UInt32) (timed : Bool) :
    Inv { s with vm := HabDriver.backend s.vm ctx subId timed } :=
  h.settled (h.referenced.spawn rfl) (HabVm.settled_spawn rfl (fun _ ↦ (add_zero _).symm) rfl)

theorem Inv.frontend (h : Inv s) {ctx : ℕ} {subId : UInt32}
    {request : HabOpenRequest (Option HabPchan)} {domId : ℤ} {env : Env} {vm' : HabVm}
    (hopen : driver.frontend s.vm ctx subId request domId env = some vm') :
    Inv { s with vm := vm' } := by
  unfold HabDriver.frontend at hopen
  split at hopen
  · cases hopen
    exact h.settled (h.referenced.congr rfl rfl rfl rfl rfl) ⟨fun _ ↦ rfl, rfl⟩
  · cases hopen
  · obtain ⟨pchan, -, hopen⟩ := Option.bind_eq_some_iff.mp hopen
    have hstep : s.vm.step (.frontendOpen ctx pchan subId request) env = some (vm', []) := by
      simp only [HabVm.step, hopen]
      rfl
    refine h.vmStep ?_ ?_ hstep
    · intro _ _ hact
      cases hact
    · intro _ _ hact
      cases hact

theorem Inv.step {s' : VhostVm} {act : VhostAct × Env} (h : Inv s)
    (hcareful : s.Careful driver act) (hstep : s.step driver act = some s') : Inv s' := by
  obtain ⟨act, env⟩ := act
  cases act with
  | habVchanOpen ctx subId timed request =>
      obtain ⟨vm', hopen, heq⟩ := Option.map_eq_some_iff.mp hstep
      cases heq
      unfold HabDriver.habVchanOpen at hopen
      by_cases hloopback : driver.loopback = true
      · rw [if_pos hloopback] at hopen
        split at hopen
        · cases hopen
          exact h.backend ctx subId timed
        · exact h.frontend hopen
      · rw [if_neg hloopback] at hopen
        rw [Careful, if_neg hloopback] at hcareful
        rcases hcareful with hforbidden | hnone
        · rw [if_pos hforbidden] at hopen
          cases hopen
          exact h
        · rw [hnone] at hopen
          split at hopen <;> cases hopen <;> exact h
  | vhostHabOpen habdevs vmid =>
      cases hstep
      unfold vhostHabOpen
      split <;> exact ⟨h.referenced, h.ledger, h.surplus⟩
  | vhostHabRelease file =>
      obtain ⟨pchans, hfile, heq⟩ := Option.map_eq_some_iff.mp hstep
      cases heq
      rw [hcareful pchans hfile]
      exact ⟨h.referenced, h.ledger, h.surplus⟩
  | vm act =>
      simp only [VhostVm.step] at hstep
      split at hstep
      · cases hstep
      · obtain ⟨⟨vm', out⟩, hvm, heq⟩ := Option.map_eq_some_iff.mp hstep
        cases heq
        exact h.vmStep hcareful.1 hcareful.2 hvm

/-! ## Runs -/

theorem balanced_of_exec (driver : HabDriver) (vhPchans : List HabPchan)
    (acts : List (VhostAct × Env)) {s : VhostVm}
    (hmeets : Runs.Meets (step driver) (Careful driver) (start vhPchans) acts)
    (hexec : Runs.exec (step driver) (start vhPchans) acts = some s)
    (hidle : ∀ i, s.vm.calls.get i = none) : s.Balanced := by
  have hinv : Inv s := Runs.invariant_of_meets
    (fun _ _ _ hs hcareful hstep ↦ hs.step hcareful hstep) (inv_start vhPchans) hmeets hexec
  exact hinv.balanced hidle

/-- The pchan of the examples, which stands for any other VM. -/
def loopbackPchan : HabPchan := { vcidPchan 0 with domId := loopbackDom }

/-- A front end that opens and is interrupted before it is answered. -/
def interruptedOpen : List (VhostAct × Env) :=
  [(.habVchanOpen 0 0 false zeroRequest, { idr := some (habVcidGetId 1) }), (.vm (.advance 0), {}),
    (.vm (.advance 0), { ended := some .signal }), (.vm (.advance 0), {}), (.vm (.advance 0), {})]

/-- A driver with one pchan, which is a front end. -/
def onePchan (loopback : Bool) : HabDriver :=
  ⟨loopback, fun _ ↦ false, [loopbackPchan], ⟨0, 0, false⟩, fun _ ↦ false⟩

theorem balanced_of_exec_interruptedOpen :
    ∃ s, Runs.exec (step (onePchan true)) (start []) interruptedOpen = some s ∧ s.Balanced := by
  refine ⟨_, rfl, balanced_of_exec (onePchan true) [] interruptedOpen ?_ rfl ?_⟩
  · refine ⟨Or.inr (by decide), ⟨nofun, ?_⟩, ⟨nofun, ?_⟩, ⟨nofun, ?_⟩, ⟨nofun, ?_⟩, trivial⟩
    · rintro i call ⟨⟩ ⟨⟩
      trivial
    · rintro i call ⟨⟩ ⟨⟩
      rfl
    · rintro i call ⟨⟩ ⟨⟩
      trivial
    · rintro i call ⟨⟩ ⟨⟩
      trivial
  · exact Pool.get_eq_none_of_all (by decide)

/-- Without loopback mode every open keeps a reference. -/
theorem not_forall_balanced :
    ¬ ∀ (driver : HabDriver) (vhPchans : List HabPchan) (acts : List (VhostAct × Env))
        (s : VhostVm), Runs.exec (step driver) (start vhPchans) acts = some s →
      (∀ i, s.vm.calls.get i = none) → s.Balanced := by
  intro h
  obtain ⟨s, hs⟩ : ∃ s, Runs.exec (step (onePchan false)) (start []) interruptedOpen = some s :=
    ⟨_, rfl⟩
  have hbalanced := h _ _ _ s hs
  cases hs
  have hcount := (hbalanced (Pool.get_eq_none_of_all (by decide))).refcount loopbackPchan
  exact absurd hcount (by decide)

end VhostVm

end Hab
