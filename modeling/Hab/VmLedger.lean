import Hab.VmReferences

/-!
# References to pchans (`hab_pchan_get` and `hab_pchan_put`)

Vchans, entries of `openq_list` and calls in progress have references to pchans.  A
step of a VM changes the reference count of a pchan as it changes the number of these,
except where a request that was taken from the queue is not freed, and where a cancel
frees one without its reference.
-/

namespace Hab

/-- One for the pchan itself, and none for another. -/
def HabPchan.named (p q : HabPchan) : ℕ := if q = p then 1 else 0

/-! ## The open queue -/

namespace HabDevice

open HabPchan

/-- The references to a pchan that are not those of `openq_list`. -/
def owed (dev : HabDevice HabPchan) (p : HabPchan) : ℤ :=
  dev.refcount p - dev.countQueued fun request ↦ request.pchan = p

/-- How far `openq_cnt` is ahead of `openq_list`. -/
def surplus (dev : HabDevice HabPchan) : ℤ := dev.openqCnt - dev.openqList.length

variable {dev : HabDevice HabPchan} {p q : HabPchan}

theorem owed_pchanGet : (dev.pchanGet q).owed p = dev.owed p + p.named q := by
  by_cases h : q = p
  · subst h
    simp [owed, pchanGet, countQueued, named]
    omega
  · simp [owed, pchanGet, countQueued, named, h, Ne.symm h]

theorem owed_pchanPut : (dev.pchanPut q).owed p = dev.owed p - p.named q := by
  by_cases h : q = p
  · subst h
    simp [owed, pchanPut, countQueued, named]
    omega
  · simp [owed, pchanPut, countQueued, named, h, Ne.symm h]

theorem owed_enqueue (node : HabOpenNode HabPchan) :
    (dev.enqueue node).owed p = dev.owed p - p.named node.request.pchan := by
  rw [owed, countQueued_enqueue, owed]
  by_cases h : node.request.pchan = p
  · simp [enqueue, named, h]
    omega
  · simp [enqueue, named, h]

theorem refcount_foldl_pchanPut (nodes : List (HabOpenNode HabPchan)) (dev : HabDevice HabPchan) :
    (nodes.foldl (fun dev node ↦ dev.pchanPut node.request.pchan) dev).refcount p =
      dev.refcount p - nodes.countP fun node ↦ node.request.pchan = p := by
  induction nodes generalizing dev with
  | nil => simp
  | cons node nodes ih =>
      rw [List.foldl_cons, ih]
      by_cases h : node.request.pchan = p
      · simp [pchanPut, h]
        omega
      · simp [pchanPut, h, Ne.symm h]

theorem openqCnt_foldl_pchanPut (nodes : List (HabOpenNode HabPchan)) (dev : HabDevice HabPchan) :
    (nodes.foldl (fun dev node ↦ dev.pchanPut node.request.pchan) dev).openqCnt =
      dev.openqCnt := by
  induction nodes generalizing dev with
  | nil => rfl
  | cons node nodes ih =>
      rw [List.foldl_cons, ih]
      rfl

/-- The requests that a wait throws away because they have expired. -/
def expired (dev : HabDevice HabPchan) (env : FindEnv HabPchan)
    (listen : HabOpenRequest (Option HabPchan)) : List (HabOpenNode HabPchan) :=
  if env.closing || listen.pchan.any env.closed then [] else (dev.scan listen env.now).dropped

/-- Who takes a request takes its reference; the expired ones are freed with theirs. -/
theorem owed_find (env : FindEnv HabPchan) (listen : HabOpenRequest (Option HabPchan))
    (dev : HabDevice HabPchan) (p : HabPchan) :
    (habOpenRequestFind env listen dev).2.owed p = dev.owed p +
      ((habOpenRequestFind env listen dev).1.2.elim 0 fun node ↦
        p.named node.request.pchan) := by
  simp only [habOpenRequestFind]
  split
  · simp
  · have hperm : ((dev.scan listen env.now).taken.toList ++ (dev.scan listen env.now).dropped ++
        (dev.scan listen env.now).kept).Perm dev.openqList := Scan.perm dev.openqList
    have hcount := hperm.countP_eq fun node ↦ node.request.pchan = p
    rw [List.countP_append, List.countP_append] at hcount
    have hrefcount : (dev.afterScan listen env.now).refcount p =
        dev.refcount p - (dev.scan listen env.now).dropped.countP fun node ↦
          node.request.pchan = p :=
      refcount_foldl_pchanPut _ _
    simp only [owed, countQueued, openqList_afterScan, hrefcount]
    cases htaken : (dev.scan listen env.now).taken with
    | none =>
        rw [htaken] at hcount
        simp at hcount ⊢
        omega
    | some node =>
        rw [htaken] at hcount
        by_cases h : node.request.pchan = p
        · simp [named, h] at hcount ⊢
          omega
        · simp [named, h] at hcount ⊢
          omega

/-- The expired requests are not counted off. -/
theorem surplus_find (env : FindEnv HabPchan) (listen : HabOpenRequest (Option HabPchan))
    (dev : HabDevice HabPchan) :
    (habOpenRequestFind env listen dev).2.surplus =
      dev.surplus + (dev.expired env listen).length := by
  simp only [habOpenRequestFind, expired]
  split
  · simp
  · have hperm : ((dev.scan listen env.now).taken.toList ++ (dev.scan listen env.now).dropped ++
        (dev.scan listen env.now).kept).Perm dev.openqList := Scan.perm dev.openqList
    have hlength := hperm.length_eq
    rw [List.length_append, List.length_append] at hlength
    have hcnt : (dev.afterScan listen env.now).openqCnt =
        if (dev.scan listen env.now).taken.isSome then dev.openqCnt - 1 else dev.openqCnt :=
      openqCnt_foldl_pchanPut _ _
    simp only [surplus, openqList_afterScan, hcnt]
    cases htaken : (dev.scan listen env.now).taken with
    | none =>
        rw [htaken] at hlength
        simp at hlength ⊢
        omega
    | some node =>
        rw [htaken] at hlength
        simp at hlength ⊢
        omega

theorem owed_requestAdd (type : HabPayloadType) (alloc : Bool) (xdata : HabOpenSendData) (now : ℤ) :
    (habOpenRequestAdd dev q type alloc (some xdata) now).2.owed p = dev.owed p ∧
      (habOpenRequestAdd dev q type alloc (some xdata) now).2.surplus = dev.surplus := by
  simp only [habOpenRequestAdd]
  split
  · constructor
    · rw [owed_enqueue, owed_pchanGet]
      exact add_sub_cancel_right _ _
    · simp [surplus, enqueue, pchanGet]
  · exact ⟨rfl, rfl⟩

/-- A cancel that finds no request it withdraws puts itself into the queue. -/
theorem owed_receiveCancel {xdata : HabOpenSendData} (alloc : Bool) (now : ℤ)
    (hnone : dev.openqList.any (fun node ↦ node.request.cancelledBy xdata) = false) :
    (habOpenReceiveCancel dev q (some xdata) alloc now).2.owed p = dev.owed p ∧
      (habOpenReceiveCancel dev q (some xdata) alloc now).2.surplus = dev.surplus := by
  simp only [habOpenReceiveCancel, hnone, Bool.false_eq_true, if_false]
  split
  · constructor
    · rw [owed_enqueue, owed_pchanGet]
      exact add_sub_cancel_right _ _
    · simp [surplus, enqueue, pchanGet]
  · exact ⟨rfl, rfl⟩

end HabDevice

/-! ## Calls and vchans -/

/-- The pchan that an open has looked up, or taken over from a request. -/
def Call.pchan : Call → Option HabPchan
  | .front o _ => some o.pchan
  | .round r _ => some r.init.pchan
  | _ => none

/-- The request that the call has taken from the queue and not freed yet. -/
def Call.pending : Call → Option (HabOpenRequest HabPchan)
  | .front _ (.woken _ recv) | .listen _ (.woken _ recv) | .round _ (.answered _ recv) => recv
  | _ => none

def Call.pchanRefs (p : HabPchan) (call : Call) : ℕ :=
  call.pchan.elim 0 p.named + call.pending.elim 0 fun request ↦ p.named request.pchan

namespace HabVm

/-- The vchans of a pchan that have not been freed. -/
def unfreed (vm : HabVm) (p : HabPchan) : ℕ :=
  (List.range vm.nextVchan).countP fun v ↦ (vm.vchan v).pchan = p ∧ (vm.vchan v).refcount ≠ 0

/-- The references to a pchan that are not those of its vchans and of the queue. -/
def stock (vm : HabVm) (p : HabPchan) : ℤ := vm.dev.owed p - vm.unfreed p

/-- The references to a pchan that no one has. -/
def ledger (vm : HabVm) (p : HabPchan) : ℤ := vm.stock p - vm.calls.sum (Call.pchanRefs p)

variable {vm vm' : HabVm} {i v : ℕ} {call : Call} {p : HabPchan}

theorem unfreed_eq_countBelow (vm : HabVm) (p : HabPchan) :
    vm.unfreed p = Pool.countBelow (fun vchan : Vchan ↦ vchan.pchan = p ∧ vchan.refcount ≠ 0)
      (fun v ↦ some (vm.vchan v)) vm.nextVchan := by
  rw [← Pool.countP_range]
  rfl

theorem update_some (vchan : ℕ → Vchan) (v : ℕ) (x : Vchan) :
    (fun w ↦ some (Function.update vchan v x w)) =
      Function.update (fun w ↦ some (vchan w)) v (some x) := by
  funext w
  by_cases h : w = v
  · subst h
    simp
  · simp [h]

/-- A change of one vchan. -/
theorem unfreed_write (hv : v < vm.nextVchan) (x : Vchan) (p : HabPchan) :
    (vm.write v x).unfreed p +
        (if (vm.vchan v).pchan = p ∧ (vm.vchan v).refcount ≠ 0 then 1 else 0) =
      vm.unfreed p + if x.pchan = p ∧ x.refcount ≠ 0 then 1 else 0 := by
  have hupdate : Pool.countBelow (fun vchan : Vchan ↦ vchan.pchan = p ∧ vchan.refcount ≠ 0)
      (Function.update (fun w ↦ some (vm.vchan w)) v (some x)) vm.nextVchan + _ = _ + _ :=
    Pool.countBelow_update hv (some x)
  rw [unfreed_eq_countBelow, unfreed_eq_countBelow]
  simp only [HabVm.write, update_some]
  have htest : ∀ y : Vchan, (decide (y.pchan = p ∧ y.refcount ≠ 0)).toNat =
      if y.pchan = p ∧ y.refcount ≠ 0 then 1 else 0 := by
    intro y
    split
    · rename_i hy
      rw [decide_eq_true hy, Bool.toNat_true]
    · rename_i hy
      rw [decide_eq_false hy, Bool.toNat_false]
  rw [← htest, ← htest]
  exact hupdate

/-- A change that neither frees a vchan nor brings one back. -/
theorem unfreed_write_same {x : Vchan} (hpchan : x.pchan = (vm.vchan v).pchan)
    (hcount : x.refcount = 0 ↔ (vm.vchan v).refcount = 0) (p : HabPchan) :
    (vm.write v x).unfreed p = vm.unfreed p := by
  refine List.countP_congr fun w _ ↦ ?_
  by_cases hw : w = v
  · subst hw
    simp [HabVm.write, hpchan, hcount]
  · simp [HabVm.write, hw]

/-! ## What the parts of a step do -/

/-- The last reference to a vchan frees it, and the vchan's own reference to its
pchan. -/
theorem stock_vchanPut (h : vm.Referenced) (v : ℕ) (p : HabPchan) :
    (vm.vchanPut v).stock p = vm.stock p := by
  by_cases hlast : (vm.vchan v).refcount = 1
  · have hv : v < vm.nextVchan := h.lt_nextVchan (by omega)
    have hfreed := unfreed_write hv { vm.vchan v with refcount := 0, rxList := [] } p
    have hsame : (vm.vchanPut v).unfreed p =
        (vm.write v { vm.vchan v with refcount := 0, rxList := [] }).unfreed p := by
      simp only [vchanPut, if_pos hlast]
      rfl
    have hdev : (vm.vchanPut v).dev = vm.dev.pchanPut (vm.vchan v).pchan := by
      simp only [vchanPut, if_pos hlast]
    rw [stock, stock, hsame, hdev, HabDevice.owed_pchanPut]
    by_cases hp : (vm.vchan v).pchan = p
    · simp [HabPchan.named, hp, hlast] at hfreed ⊢
      omega
    · simp [HabPchan.named, hp] at hfreed ⊢
      omega
  · have hsame : vm.vchanPut v =
        vm.write v { vm.vchan v with refcount := (vm.vchan v).refcount - 1 } := by
      simp only [vchanPut, if_neg hlast]
    have hunfreed : (vm.write v
        { vm.vchan v with refcount := (vm.vchan v).refcount - 1 }).unfreed p = vm.unfreed p := by
      apply unfreed_write_same
      · rfl
      · simp only
        omega
    rw [stock, hsame, hunfreed]
    rfl

theorem surplus_vchanPut (vm : HabVm) (v : ℕ) : (vm.vchanPut v).dev.surplus = vm.dev.surplus := by
  unfold vchanPut
  simp only
  split <;> rfl

theorem stock_release (h : vm.Referenced) (v : ℕ) (next : Option Call) (p : HabPchan) :
    (vm.release i v next).stock p = vm.stock p := stock_vchanPut h v p

theorem stock_openErr (h : vm.Referenced) (v : ℕ) (q : HabPchan) (next : Option Call)
    (result : List OpenReturn) (p : HabPchan) :
    (vm.openErr i v q next result).stock p = vm.stock p - p.named q := by
  have hput := stock_vchanPut h v p
  rw [stock] at hput
  have hunfreed : (vm.openErr i v q next result).unfreed p = (vm.vchanPut v).unfreed p := rfl
  have howed : (vm.openErr i v q next result).dev.owed p =
      (vm.vchanPut v).dev.owed p - p.named q := by
    change ((vm.vchanPut v).dev.pchanPut q).owed p = _
    exact HabDevice.owed_pchanPut
  rw [stock, hunfreed, howed]
  omega

theorem surplus_openErr (vm : HabVm) (i v : ℕ) (q : HabPchan) (next : Option Call)
    (result : List OpenReturn) :
    (vm.openErr i v q next result).dev.surplus = vm.dev.surplus := surplus_vchanPut vm v

theorem stock_vchanAlloc (vm : HabVm) (ctx : ℕ) (q : HabPchan) (openId otherendId : UInt32)
    (id : Fin 4096) (p : HabPchan) :
    (vm.vchanAlloc ctx q openId otherendId id).stock p = vm.stock p := by
  have hunfreed : (vm.vchanAlloc ctx q openId otherendId id).unfreed p =
      vm.unfreed p + p.named q := by
    simp only [unfreed, vchanAlloc, List.range_succ, List.countP_append]
    congr 1
    · refine List.countP_congr fun w hw ↦ ?_
      simp [Nat.ne_of_lt (List.mem_range.mp hw)]
    · by_cases hq : q = p <;> simp [HabPchan.named, hq]
  have howed : (vm.vchanAlloc ctx q openId otherendId id).dev.owed p =
      vm.dev.owed p + p.named q := by
    change (vm.dev.pchanGet q).owed p = _
    exact HabDevice.owed_pchanGet
  rw [stock, hunfreed, howed, stock]
  push_cast
  omega

/-- What a wait took is the request whose reference it has now. -/
theorem owed_poll (vm : HabVm) (listen : HabOpenRequest (Option HabPchan))
    (timed forbidden : Bool) (env : Env) (p : HabPchan) :
    (vm.poll listen timed forbidden env).2.owed p = vm.dev.owed p +
      ((vm.poll listen timed forbidden env).1.bind Prod.snd).elim 0 fun request ↦
        p.named request.pchan := by
  have howed := HabDevice.owed_find ⟨false, vm.pchanClosed, forbidden, env.now⟩ listen vm.dev p
  have hnone : (habOpenRequestFind ⟨false, vm.pchanClosed, forbidden, env.now⟩ listen
      vm.dev).1.1 = false → (habOpenRequestFind ⟨false, vm.pchanClosed, forbidden, env.now⟩ listen
        vm.dev).1.2 = none := by
    simp only [habOpenRequestFind]
    split
    · intro h
      cases h
    · intro h
      cases htaken : (vm.dev.scan listen env.now).taken with
      | none => rfl
      | some node => simp [htaken] at h
  simp only [poll]
  rw [howed]
  cases hmet : (habOpenRequestFind ⟨false, vm.pchanClosed, forbidden, env.now⟩ listen
      vm.dev).1.1 with
  | true =>
      rw [if_pos rfl]
      cases (habOpenRequestFind ⟨false, vm.pchanClosed, forbidden, env.now⟩ listen vm.dev).1.2 with
      | none => simp
      | some node => simp
  | false =>
      rw [hnone hmet, if_neg Bool.false_ne_true]
      split
      · simp
      · split <;> simp
      · simp

/-- The requests that the wait of a call throws away because they have expired. -/
def expired (vm : HabVm) (listen : HabOpenRequest (Option HabPchan)) (env : Env) :
    List (HabOpenNode HabPchan) :=
  vm.dev.expired ⟨false, vm.pchanClosed, false, env.now⟩ listen

theorem surplus_poll (vm : HabVm) (listen : HabOpenRequest (Option HabPchan))
    (timed forbidden : Bool) (env : Env) :
    (vm.poll listen timed forbidden env).2.surplus =
      vm.dev.surplus + (vm.expired listen env).length :=
  HabDevice.surplus_find ⟨false, vm.pchanClosed, forbidden, env.now⟩ listen vm.dev

/-! ## Calls in progress -/

/-- The step leaves what no one has a reference for as it was. -/
structure Settled (vm vm' : HabVm) : Prop where
  ledger : ∀ p, vm'.ledger p = vm.ledger p
  surplus : vm'.dev.surplus = vm.dev.surplus

/-- A call goes on, or returns: its references are accounted for. -/
theorem settled_of (hi : vm.calls.get i = some call) {next : Option Call}
    (hcalls : vm'.calls = vm.calls.set i next)
    (hstock : ∀ p, vm'.stock p + call.pchanRefs p =
      vm.stock p + (next.elim 0 (Call.pchanRefs p) : ℕ))
    (hsurplus : vm'.dev.surplus = vm.dev.surplus) : vm.Settled vm' where
  ledger p := by
    have hsum : (vm.calls.set i next).sum (Call.pchanRefs p) + _ = _ := Pool.sum_set hi next
    have hstock := hstock p
    rw [ledger, ledger, hcalls]
    omega
  surplus := hsurplus

/-- A wait goes on, or ends with what it took. -/
theorem settled_poll {listen : HabOpenRequest (Option HabPchan)} (timed forbidden : Bool)
    {env : Env} (hi : vm.calls.get i = some call) (hpending : call.pending = none)
    (hexpired : vm.expired listen env = [])
    (next : WaitEnd → Option (HabOpenRequest HabPchan) → Call)
    (hnext : ∀ ended recv, (next ended recv).pchan = call.pchan ∧
      (next ended recv).pending = recv) :
    vm.Settled
      (match (vm.poll listen timed forbidden env).1 with
      | none => { vm with dev := (vm.poll listen timed forbidden env).2 }
      | some (ended, recv) =>
          { vm.become i (some (next ended recv)) with
            dev := (vm.poll listen timed forbidden env).2 }) := by
  have howed := vm.owed_poll listen timed forbidden env
  have hsurplus := vm.surplus_poll listen timed forbidden env
  rw [hexpired] at hsurplus
  cases hpoll : (vm.poll listen timed forbidden env).1 with
  | none =>
      refine ⟨fun p ↦ ?_, by simpa using hsurplus⟩
      have howed := howed p
      rw [hpoll] at howed
      simp only [ledger, stock, howed, unfreed]
      simp
  | some result =>
      obtain ⟨ended, recv⟩ := result
      obtain ⟨hpchan, hrecv⟩ := hnext ended recv
      refine settled_of hi rfl (fun p ↦ ?_) (by simpa using hsurplus)
      have howed := howed p
      rw [hpoll] at howed
      change (vm.poll listen timed forbidden env).2.owed p - vm.unfreed p + _ = _
      simp only [howed, stock, Call.pchanRefs, hpending, hpchan, hrecv, Option.bind,
        Option.elim_some, Option.elim_none]
      push_cast
      omega

/-- The condition on the next step of a call: its wait throws no expired request away,
and a request that it took is one it goes on with. -/
def Settles (vm : HabVm) (env : Env) : Call → Prop
  | .front o .wait => vm.expired o.listen env = []
  | .front o (.woken ended (some request)) => vm.FrontAccepts o ended request
  | .listen l .wait => vm.expired l.request env = []
  | .listen l (.woken ended (some request)) => vm.ListenAccepts l ended request
  | .round r .wait => vm.expired r.request env = []
  | .round r (.answered ended (some _)) => vm.RoundAccepts r ended
  | _ => True

variable {env : Env}

theorem settled_advanceFront (h : vm.Referenced) {o : FrontOpen} {stage : FrontStage}
    (hi : vm.calls.get i = some (.front o stage)) (hsettles : vm.Settles env (.front o stage)) :
    vm.Settled (vm.advanceFront i env o stage).1 := by
  -- an error gives back the vchan and the pchan
  have herr : ∀ result, (Call.front o stage).pending = none →
      vm.Settled (vm.openErr i o.vchan o.pchan none result) := by
    intro result hpending
    refine settled_of hi calls_openErr (fun p ↦ ?_) (surplus_openErr vm i o.vchan o.pchan none result)
    rw [stock_openErr h]
    simp [Call.pchanRefs, Call.pchan, hpending]
  cases stage with
  | init =>
      simp only [advanceFront]
      split
      · exact settled_of hi rfl (fun p ↦ rfl) rfl
      · exact herr _ rfl
  | wait =>
      have hpoll := settled_poll false (vm.forbidden o.ctx o.subId) hi rfl
        hsettles (fun ended recv ↦ .front o (.woken ended recv)) fun _ _ ↦ ⟨rfl, rfl⟩
      simp only [advanceFront]
      split
      · rename_i hnone
        rw [hnone] at hpoll
        exact hpoll
      · rename_i ended recv hsome
        rw [hsome] at hpoll
        exact hpoll
  | woken ended recv =>
      cases recv with
      | none =>
          have hcancel : ∀ error, vm.Settled (vm.become i (some (.front o (.cancel none error)))) :=
            fun error ↦ settled_of hi rfl (fun p ↦ rfl) rfl
          simp only [advanceFront]
          split
          · rename_i hsome
            cases hsome
          · exact hcancel _
      | some request =>
          obtain ⟨hlisten, hver⟩ := hsettles
          simp only [advanceFront, hlisten, hver, ne_eq, not_true_eq_false, if_false]
          refine settled_of hi rfl (fun p ↦ ?_) rfl
          have hunfreed : (vm.frontPair i o request).unfreed p = vm.unfreed p := by
            change (vm.write o.vchan _).unfreed p = _
            apply unfreed_write_same
            · rfl
            · exact Iff.rfl
          have howed : (vm.frontPair i o request).dev.owed p =
              vm.dev.owed p - p.named request.pchan := HabDevice.owed_pchanPut
          simp only [stock, hunfreed, howed, Call.pchanRefs, Call.pchan, Call.pending,
            Option.elim_some, Option.elim_none]
          push_cast
          omega
  | cancel recv error => exact herr _ rfl
  | paired request =>
      simp only [advanceFront]
      split
      · refine settled_of hi rfl (fun p ↦ ?_) rfl
        have howed : (vm.frontAccept i o request).dev.owed p = vm.dev.owed p - p.named o.pchan :=
          HabDevice.owed_pchanPut
        have hunfreed : (vm.frontAccept i o request).unfreed p = vm.unfreed p := rfl
        simp only [stock, hunfreed, howed, Call.pchanRefs, Call.pchan, Call.pending,
          Option.elim_some, Option.elim_none]
        push_cast
        omega
      · exact herr _ rfl

theorem settled_advanceListen {l : BackListen} {stage : ListenStage}
    (hi : vm.calls.get i = some (.listen l stage)) (hsettles : vm.Settles env (.listen l stage))
    (hadvance : vm.advanceListen i env l stage = some vm') : vm.Settled vm' := by
  cases stage with
  | wait =>
      have hpoll := settled_poll l.timed (vm.forbidden l.ctx l.subId) hi rfl
        hsettles (fun ended recv ↦ .listen l (.woken ended recv)) fun _ _ ↦ ⟨rfl, rfl⟩
      simp only [advanceListen] at hadvance
      split at hadvance
      · rename_i hnone
        cases hadvance
        rw [hnone] at hpoll
        exact hpoll
      · rename_i ended recv hsome
        cases hadvance
        rw [hsome] at hpoll
        exact hpoll
  | woken ended recv =>
      cases recv with
      | none =>
          simp only [advanceListen] at hadvance
          split at hadvance
          · rename_i hsome
            cases hsome
          · cases hadvance
            exact settled_of hi rfl (fun p ↦ rfl) rfl
      | some request =>
          obtain ⟨hlisten, hver⟩ := hsettles
          simp only [advanceListen, hlisten, hver, ne_eq, not_true_eq_false, if_false] at hadvance
          split at hadvance
          · cases hadvance
            refine settled_of hi rfl (fun p ↦ ?_) rfl
            change (((vm.dev.pchanGet request.pchan).pchanPut request.pchan).pchanPut
              request.pchan).owed p - vm.unfreed p + _ = _
            simp only [HabDevice.owed_pchanPut, HabDevice.owed_pchanGet, stock, Call.pchanRefs,
              Call.pchan, Call.pending, Option.elim_some, Option.elim_none]
            push_cast
            omega
          · rename_i id _
            split at hadvance
            · cases hadvance
              refine settled_of hi rfl (fun p ↦ ?_) rfl
              have halloc := (vm.backHear request).stock_vchanAlloc l.ctx request.pchan
                request.xdata.openId request.xdata.vchanId id p
              change ((vm.backHear request).vchanAlloc l.ctx request.pchan request.xdata.openId
                request.xdata.vchanId id).stock p + _ = _
              rw [halloc]
              change ((vm.dev.pchanGet request.pchan).pchanPut request.pchan).owed p -
                vm.unfreed p + _ = _
              simp only [HabDevice.owed_pchanPut, HabDevice.owed_pchanGet, stock, Call.pchanRefs,
                Call.pchan, Call.pending, Option.elim_some, Option.elim_none]
              push_cast
              omega
            · cases hadvance

theorem settled_advanceRound (h : vm.Referenced) {r : BackRound} {stage : RoundStage}
    (hi : vm.calls.get i = some (.round r stage)) (hsettles : vm.Settles env (.round r stage)) :
    vm.Settled (vm.advanceRound i env r stage).1 := by
  -- an error gives back the vchan and the pchan
  have herr : ∀ next result, (Call.round r stage).pending = none →
      (∀ p, next.elim 0 (Call.pchanRefs p) = 0) →
      vm.Settled (vm.openErr i r.vchan r.init.pchan next result) := by
    intro next result hpending hnext
    refine settled_of hi calls_openErr (fun p ↦ ?_)
      (surplus_openErr vm i r.vchan r.init.pchan next result)
    rw [stock_openErr h, hnext]
    simp [Call.pchanRefs, Call.pchan, hpending]
  cases stage with
  | ack =>
      simp only [advanceRound]
      split
      · exact settled_of hi rfl (fun p ↦ rfl) rfl
      · exact herr none _ rfl fun _ ↦ rfl
  | wait =>
      have hpoll := settled_poll true (vm.forbidden r.listen.ctx r.listen.subId) hi rfl
        hsettles (fun ended recv ↦ .round r (.answered ended recv)) fun _ _ ↦ ⟨rfl, rfl⟩
      simp only [advanceRound]
      split
      · rename_i hnone
        rw [hnone] at hpoll
        exact hpoll
      · rename_i ended recv hsome
        rw [hsome] at hpoll
        exact hpoll
  | answered ended recv =>
      cases recv with
      | none =>
          have hcancel : ∀ error, vm.Settled (vm.become i (some (.round r (.cancel none error)))) :=
            fun error ↦ settled_of hi rfl (fun p ↦ rfl) rfl
          simp only [advanceRound]
          split
          · exact hcancel _
          · split
            · exact herr none _ rfl fun _ ↦ rfl
            · split
              · exact hcancel _
              · split
                · rename_i hsome
                  cases hsome
                · exact herr none _ rfl fun _ ↦ rfl
      | some request =>
          have hlisten : habOpenListen true false ended
              (vm.forbidden r.listen.ctx r.listen.subId) = none := hsettles
          simp only [advanceRound, hlisten, ne_eq, not_true_eq_false, false_and, if_false,
            reduceCtorEq]
          refine settled_of hi rfl (fun p ↦ ?_) rfl
          change ((vm.dev.pchanPut request.pchan).pchanPut r.init.pchan).owed p -
            vm.unfreed p + _ = _
          simp only [HabDevice.owed_pchanPut, stock, Call.pchanRefs, Call.pchan, Call.pending,
            Option.elim_some, Option.elim_none]
          push_cast
          omega
  | cancel recv error =>
      cases error with
      | some error => exact herr none _ rfl fun _ ↦ rfl
      | none => exact herr (some (.listen r.listen .wait)) _ rfl fun _ ↦ rfl

/-- A step of a call that is not opening a vchan. -/
theorem settled_release {x : Vchan} (h : (vm.write v x).Referenced)
    (hi : vm.calls.get i = some call) (hcall : ∀ p, call.pchanRefs p = 0)
    (hpchan : x.pchan = (vm.vchan v).pchan) (hcount : x.refcount = (vm.vchan v).refcount) :
    vm.Settled ((vm.write v x).release i v none) := by
  refine settled_of hi calls_release (fun p ↦ ?_) (surplus_vchanPut (vm.write v x) v)
  have hunfreed : (vm.write v x).unfreed p = vm.unfreed p :=
    unfreed_write_same hpchan (by rw [hcount]) p
  rw [stock_release h, hcall]
  simp only [stock, hunfreed]
  rfl

theorem settled_advance (h : vm.Referenced) {out : List (HabPchan × HabMsg)}
    (hi : vm.calls.get i = some call) (hsettles : vm.Settles env call)
    (hadvance : vm.advance i env call = some (vm', out)) : vm.Settled vm' := by
  cases call with
  | front o stage =>
      have hfront : vm.Settled (vm.advanceFront i env o stage).1 :=
        settled_advanceFront h hi hsettles
      have heq : vm.advanceFront i env o stage = (vm', out) := Option.some.inj hadvance
      rwa [heq] at hfront
  | listen l stage =>
      obtain ⟨vm₁, hlisten, heq⟩ := Option.map_eq_some_iff.mp hadvance
      cases heq
      exact settled_advanceListen hi hsettles hlisten
  | round r stage =>
      have hround : vm.Settled (vm.advanceRound i env r stage).1 :=
        settled_advanceRound h hi hsettles
      have heq : vm.advanceRound i env r stage = (vm', out) := Option.some.inj hadvance
      rwa [heq] at hround
  | opened v =>
      cases hadvance
      exact settled_of hi rfl (fun p ↦ rfl) rfl
  | sending v message nonblocking =>
      simp only [advance] at hadvance
      split at hadvance
      · cases hadvance
        exact settled_release (h.write rfl rfl rfl) hi (fun _ ↦ rfl) rfl rfl
      · split at hadvance
        · cases hadvance
          refine settled_of hi calls_release (fun p ↦ ?_) (surplus_vchanPut vm v)
          rw [stock_release h]
          rfl
        · cases hadvance
          exact ⟨fun _ ↦ rfl, rfl⟩
  | receiving v =>
      cases hadvance
      exact settled_release (h.write rfl rfl rfl) hi (fun _ ↦ rfl) rfl rfl
  | closing v =>
      simp only [advance] at hadvance
      split at hadvance
      · cases hadvance
        refine settled_of hi rfl (fun p ↦ ?_) rfl
        have hunfreed : (vm.logSent v none).unfreed p = vm.unfreed p := by
          apply unfreed_write_same
          · rfl
          · exact Iff.rfl
        change vm.dev.owed p - (vm.logSent v none).unfreed p + _ = _
        rw [hunfreed]
        rfl
      · cases hadvance
        exact settled_of hi rfl (fun p ↦ rfl) rfl
  | stopping v =>
      cases hadvance
      exact settled_release (h.write rfl rfl rfl) hi (fun _ ↦ rfl) rfl rfl

/-! ## A VM -/

theorem Settled.refl (vm : HabVm) : vm.Settled vm := ⟨fun _ ↦ rfl, rfl⟩

/-- A call starts. -/
theorem settled_spawn (hcalls : vm'.calls = vm.calls.spawn call)
    (hstock : ∀ p, vm'.stock p = vm.stock p + call.pchanRefs p)
    (hsurplus : vm'.dev.surplus = vm.dev.surplus) : vm.Settled vm' where
  ledger p := by
    rw [ledger, ledger, hcalls, Pool.sum_spawn, hstock]
    push_cast
    omega
  surplus := hsurplus

theorem stock_write {x : Vchan} (hpchan : x.pchan = (vm.vchan v).pchan)
    (hcount : x.refcount = 0 ↔ (vm.vchan v).refcount = 0) (p : HabPchan) :
    (vm.write v x).stock p = vm.stock p := by
  have hunfreed : (vm.write v x).unfreed p = vm.unfreed p := unfreed_write_same hpchan hcount p
  rw [stock, hunfreed]
  rfl

theorem settled_write {x : Vchan} (hpchan : x.pchan = (vm.vchan v).pchan)
    (hcount : x.refcount = 0 ↔ (vm.vchan v).refcount = 0) : vm.Settled (vm.write v x) where
  ledger p := congrArg (· - _) (stock_write hpchan hcount p)
  surplus := rfl

theorem stock_vchanRef (h : (vm.vchan v).refcount ≠ 0) (p : HabPchan) :
    (vm.vchanRef v).stock p = vm.stock p := by
  apply stock_write
  · rfl
  · simp [h]

theorem settled_hold (h : (vm.vchan v).refcount ≠ 0) (hcall : ∀ p, call.pchanRefs p = 0) :
    vm.Settled (vm.hold v call) := by
  refine settled_spawn rfl (fun p ↦ ?_) rfl
  rw [hcall]
  exact (stock_vchanRef h p).trans (add_zero _).symm

theorem settled_receive (pchan : HabPchan) (env : Env) (msg : HabMsg)
    (hcancel : ∀ xdata, msg = .request .initCancel xdata →
      vm.dev.openqList.any (fun node ↦ node.request.cancelledBy xdata) = false) :
    vm.Settled (vm.receive pchan env msg) := by
  have hdev : ∀ dev : HabDevice HabPchan, (∀ p, dev.owed p = vm.dev.owed p) →
      dev.surplus = vm.dev.surplus → vm.Settled { vm with dev := dev } := by
    intro dev howed hsurplus
    refine ⟨fun p ↦ ?_, hsurplus⟩
    change dev.owed p - vm.unfreed p - _ = _
    rw [howed p]
    rfl
  cases msg with
  | request type xdata =>
      have hadd : ∀ type, vm.Settled { vm with
          dev := (habOpenRequestAdd vm.dev pchan type env.alloc (some xdata) env.now).2 } := by
        intro type
        refine hdev _ (fun p ↦ ?_) ?_
        · exact (HabDevice.owed_requestAdd type env.alloc xdata env.now).1
        · exact (HabDevice.owed_requestAdd (p := pchan) type env.alloc xdata env.now).2
      cases type with
      | init => exact hadd .init
      | initAck => exact hadd .initAck
      | initDone => exact hadd .initDone
      | initCancel =>
          have hnone := hcancel xdata rfl
          refine hdev _ (fun p ↦ ?_) ?_
          · exact (HabDevice.owed_receiveCancel env.alloc env.now hnone).1
          · exact (HabDevice.owed_receiveCancel (p := pchan) env.alloc env.now hnone).2
      | _ => exact Settled.refl vm
  | data id sessionId message =>
      simp only [receive]
      split
      · exact Settled.refl vm
      · split
        · exact Settled.refl vm
        · apply settled_write
          · rfl
          · exact Iff.rfl
  | close id sessionId =>
      simp only [receive]
      split
      · exact Settled.refl vm
      · apply settled_write
        · rfl
        · exact Iff.rfl

theorem settled_opens (vm : HabVm) (ctx : ℕ) (pchan : HabPchan) (subId : UInt32)
    (request : HabOpenRequest (Option HabPchan)) (id : Fin 4096) :
    vm.Settled
      { (vm.countOpen pchan).vchanAlloc ctx pchan (UInt32.ofNat (vm.openIdCounter + 1)) 0 id with
        calls := vm.calls.spawn
          (.front ⟨ctx, pchan, subId, UInt32.ofNat (vm.openIdCounter + 1), vm.nextVchan, request⟩
            .init) } := by
  refine settled_spawn rfl (fun p ↦ ?_) rfl
  change ((vm.countOpen pchan).vchanAlloc ctx pchan _ 0 id).stock p = _
  rw [stock_vchanAlloc]
  change (vm.dev.pchanGet pchan).owed p - vm.unfreed p = _
  simp only [HabDevice.owed_pchanGet, stock, Call.pchanRefs, Call.pchan, Call.pending,
    Option.elim_some, Option.elim_none]
  push_cast
  omega

/-- Every step but an unlucky wait, a request that is taken and not used, and a cancel
that withdraws a request. -/
theorem settled_step (h : vm.Referenced) {act : VmAct} {out : List (HabPchan × HabMsg)}
    (hcancel : ∀ pchan xdata, act = .receive pchan (.request .initCancel xdata) →
      vm.dev.openqList.any (fun node ↦ node.request.cancelledBy xdata) = false)
    (hsettles : ∀ i call, act = .advance i → vm.calls.get i = some call → vm.Settles env call)
    (hstep : vm.step act env = some (vm', out)) : vm.Settled vm' := by
  have hcases := step_cases hstep
  cases hcases with
  | openFails ctx pchan subId request => exact ⟨fun _ ↦ rfl, rfl⟩
  | opens ctx pchan subId request id hfree => exact vm.settled_opens ctx pchan subId request id
  | listens l => exact settled_spawn rfl (fun _ ↦ (add_zero _).symm) rfl
  | sendFails ctx vcid message nonblocking => exact Settled.refl vm
  | sendLeaks ctx vcid message nonblocking v hv =>
      have hlive := h.listed_ne_zero (vchanFromVcid_eq_some hv).1
      exact ⟨fun p ↦ congrArg (· - _) (stock_vchanRef hlive p), rfl⟩
  | sends ctx vcid message nonblocking v hv hmessage =>
      exact settled_hold (h.listed_ne_zero (vchanFromVcid_eq_some hv).1) fun _ ↦ rfl
  | recvFails ctx vcid => exact Settled.refl vm
  | recvs ctx vcid v hv =>
      exact settled_hold (h.listed_ne_zero (vchanFromVcid_eq_some hv).1) fun _ ↦ rfl
  | closes ctx vcid v hv =>
      have hclosed : ∀ p, (vm.vchanClosed v).stock p = vm.stock p := by
        apply stock_write
        · rfl
        · exact Iff.rfl
      exact settled_spawn rfl (fun p ↦ (hclosed p).trans (add_zero _).symm) rfl
  | stops ctx subId => exact ⟨fun _ ↦ rfl, rfl⟩
  | closesPchan pchan => exact ⟨fun _ ↦ rfl, rfl⟩
  | receives pchan msg =>
      exact settled_receive pchan env msg fun xdata hmsg ↦ hcancel pchan xdata (hmsg ▸ rfl)
  | advances i call vm' out hi hadvance =>
      have hrun : vm.advance i env call = some (vm', out) := by
        simpa only [step, hi] using hstep
      exact settled_advance h hi (hsettles i call rfl hi) hrun

end HabVm

end Hab
