import Hab.VmReferences

/-!
# What a VM never takes back

A vchan stays who it is, a freed one stays freed, a closed one closed, and what
has been sent or handed out on it stays sent or handed out.
-/

namespace Hab

/-- `vchan'` is the same vchan at a later time. -/
structure Vchan.Later (vchan vchan' : Vchan) : Prop where
  ctx : vchan'.ctx = vchan.ctx
  pchan : vchan'.pchan = vchan.pchan
  idr : vchan'.idr = vchan.idr
  sessionId : vchan'.sessionId = vchan.sessionId
  freed : vchan.refcount = 0 → vchan'.refcount = 0
  closed : vchan.closed = true → vchan'.closed = true
  otherendClosed : vchan.otherendClosed = true → vchan'.otherendClosed = true
  log : vchan.log <+: vchan'.log
  handed : vchan.handed <+: vchan'.handed

namespace Vchan.Later

variable {vchan vchan' vchan'' : Vchan}

theorem refl (vchan : Vchan) : vchan.Later vchan :=
  ⟨rfl, rfl, rfl, rfl, fun h ↦ h, fun h ↦ h, fun h ↦ h, List.prefix_refl _, List.prefix_refl _⟩

theorem trans (h : vchan.Later vchan') (h' : vchan'.Later vchan'') : vchan.Later vchan'' where
  ctx := h'.ctx.trans h.ctx
  pchan := h'.pchan.trans h.pchan
  idr := h'.idr.trans h.idr
  sessionId := h'.sessionId.trans h.sessionId
  freed := fun hzero ↦ h'.freed (h.freed hzero)
  closed := fun hclosed ↦ h'.closed (h.closed hclosed)
  otherendClosed := fun hclosed ↦ h'.otherendClosed (h.otherendClosed hclosed)
  log := h.log.trans h'.log
  handed := h.handed.trans h'.handed

theorem put (vchan : Vchan) : vchan.Later vchan.put := by
  have hcount := vchan.refcount_put
  obtain ⟨refcount, rxList, h⟩ := vchan.put_eq
  rw [h] at hcount ⊢
  have hcount' : refcount = vchan.refcount - 1 := hcount
  exact ⟨rfl, rfl, rfl, rfl, fun hzero ↦ by simp [hcount', hzero], fun h ↦ h, fun h ↦ h,
    List.prefix_refl _, List.prefix_refl _⟩

theorem id_eq (h : vchan.Later vchan') : vchan'.id = vchan.id := by
  rw [Vchan.id, Vchan.id, h.pchan, h.idr]

end Vchan.Later

namespace HabVm

variable {vm vm' vm'' : HabVm} {v : ℕ}

/-- `vm'` is the same VM at a later time. -/
structure Later (vm vm' : HabVm) : Prop where
  nextVchan : vm.nextVchan ≤ vm'.nextVchan
  vchan : ∀ v, v < vm.nextVchan → (vm.vchan v).Later (vm'.vchan v)

namespace Later

/-- Only the vchans matter. -/
theorem of_eq (hvchan : vm'.vchan = vm.vchan) (hnext : vm'.nextVchan = vm.nextVchan) :
    vm.Later vm' := by
  refine ⟨hnext.ge, fun v _ ↦ ?_⟩
  rw [hvchan]
  exact Vchan.Later.refl _

theorem trans (h : vm.Later vm') (h' : vm'.Later vm'') : vm.Later vm'' :=
  ⟨h.nextVchan.trans h'.nextVchan,
    fun v hv ↦ (h.vchan v hv).trans (h'.vchan v (Nat.lt_of_lt_of_le hv h.nextVchan))⟩

theorem write {vchan : Vchan} (h : (vm.vchan v).Later vchan) : vm.Later (vm.write v vchan) := by
  refine ⟨Nat.le_refl _, fun w _ ↦ ?_⟩
  by_cases hw : w = v
  · subst hw
    simpa [HabVm.write] using h
  · simpa [HabVm.write, hw] using Vchan.Later.refl _

theorem release (i v : ℕ) (next : Option Call) : vm.Later (vm.release i v next) := by
  refine ⟨nextVchan_release.ge, fun w _ ↦ ?_⟩
  rw [vchan_release]
  by_cases hw : w = v
  · subst hw
    rw [if_pos rfl]
    exact Vchan.Later.put _
  · rw [if_neg hw]
    exact Vchan.Later.refl _

theorem openErr (i v : ℕ) (pchan : HabPchan) (next : Option Call) (result : List OpenReturn) :
    vm.Later (vm.openErr i v pchan next result) :=
  (release i v next).trans (of_eq rfl rfl)

theorem vchanRef (hv : (vm.vchan v).refcount ≠ 0) : vm.Later (vm.vchanRef v) :=
  write ⟨rfl, rfl, rfl, rfl, fun hzero ↦ absurd hzero hv, id, id, List.prefix_refl _,
    List.prefix_refl _⟩

theorem vchanAlloc (ctx : ℕ) (pchan : HabPchan) (openId otherendId : UInt32) (id : Fin 4096) :
    vm.Later (vm.vchanAlloc ctx pchan openId otherendId id) := by
  refine ⟨Nat.le_succ _, fun w hw ↦ ?_⟩
  simp only [HabVm.vchanAlloc, Function.update_of_ne (Nat.ne_of_lt hw)]
  exact Vchan.Later.refl _

theorem logSent (v : ℕ) (entry : Option Message) : vm.Later (vm.logSent v entry) :=
  write ⟨rfl, rfl, rfl, rfl, id, id, id, List.prefix_append _ _, List.prefix_refl _⟩

theorem msgQueue (v : ℕ) (message : Message) : vm.Later (vm.msgQueue v message) :=
  write ⟨rfl, rfl, rfl, rfl, id, id, id, List.prefix_refl _, List.prefix_refl _⟩

theorem msgDequeue (v rsize : ℕ) (waited : RxWait) : vm.Later (vm.msgDequeue v rsize waited) :=
  write ⟨rfl, rfl, rfl, rfl, id, id, id, List.prefix_refl _, List.prefix_append _ _⟩

theorem vchanStop (v : ℕ) : vm.Later (vm.vchanStop v) :=
  write ⟨rfl, rfl, rfl, rfl, id, id, fun _ ↦ rfl, List.prefix_refl _, List.prefix_refl _⟩

theorem vchanClosed (v : ℕ) : vm.Later (vm.vchanClosed v) :=
  write ⟨rfl, rfl, rfl, rfl, id, fun _ ↦ rfl, id, List.prefix_refl _, List.prefix_refl _⟩

theorem frontPair (i : ℕ) (o : FrontOpen) (request : HabOpenRequest HabPchan) :
    vm.Later (vm.frontPair i o request) := by
  have hwrite : vm.Later (vm.write o.vchan
      { vm.vchan o.vchan with otherendId := request.xdata.vchanId }) :=
    write ⟨rfl, rfl, rfl, rfl, id, id, id, List.prefix_refl _, List.prefix_refl _⟩
  exact hwrite.trans (of_eq rfl rfl)

theorem backTake (i : ℕ) (l : BackListen) (request : HabOpenRequest HabPchan) (id : Fin 4096) :
    vm.Later (vm.backTake i l request id) :=
  (vchanAlloc _ _ _ _ _).trans (of_eq rfl rfl)

theorem receive (pchan : HabPchan) (env : Env) (msg : HabMsg) :
    vm.Later (vm.receive pchan env msg) := by
  cases msg with
  | request type xdata =>
      simp only [HabVm.receive]
      split <;> exact of_eq rfl rfl
  | data id sessionId message =>
      simp only [HabVm.receive]
      split
      · exact of_eq rfl rfl
      · split
        · exact of_eq rfl rfl
        · exact msgQueue _ _
  | close id sessionId =>
      simp only [HabVm.receive]
      split
      · exact of_eq rfl rfl
      · exact vchanStop _

theorem advance {i : ℕ} {env : Env} {call : Call} {out : List (HabPchan × HabMsg)}
    (hstep : vm.Advance i env call vm' out) : vm.Later vm' := by
  cases hstep with
  | frontPair o ended request haccept => exact frontPair i o request
  | frontErr o stage error => exact openErr _ _ _ _ _
  | frontCancel o recv error => exact openErr _ _ _ _ _
  | listenTake l ended request id haccept hfree =>
      have hhear : vm.Later (vm.backHear request) := of_eq rfl rfl
      exact hhear.trans (backTake i l request id)
  | roundErr r stage error hrefuse => exact openErr _ _ _ _ _
  | roundCancel r recv error => exact openErr _ _ _ _ _
  | roundRetry r recv out hout => exact openErr _ _ _ _ _
  | sent v message nonblocking => exact (logSent v (some message)).trans (release i v none)
  | sendErr v message nonblocking => exact release i v none
  | dequeue v rsize waited => exact (msgDequeue v rsize waited).trans (release i v none)
  | closeSent v hopen => exact (logSent v none).trans (of_eq rfl rfl)
  | stopped v => exact (vchanStop v).trans (release i v none)
  | _ => exact of_eq rfl rfl

theorem step (h : vm.Referenced) {act : VmAct} {env : Env} {out : List (HabPchan × HabMsg)}
    (hstep : vm.Step env act vm' out) : vm.Later vm' := by
  have hlisted : ∀ {vcid ctx ignoreRemote v},
      vm.vchanFromVcid vcid ctx ignoreRemote = some v → (vm.vchan v).refcount ≠ 0 :=
    fun hv ↦ h.listed_ne_zero (vchanFromVcid_eq_some hv).1
  cases hstep with
  | opens ctx pchan subId request id hfree =>
      have hcount : vm.Later (vm.countOpen pchan) := of_eq rfl rfl
      have halloc := hcount.trans
        (vchanAlloc ctx pchan (UInt32.ofNat (vm.openIdCounter + 1)) 0 id)
      exact halloc.trans (of_eq rfl rfl)
  | sendLeaks ctx vcid message nonblocking v hv => exact vchanRef (hlisted hv)
  | sends ctx vcid message nonblocking v hv hmessage =>
      exact (vchanRef (hlisted hv)).trans (of_eq rfl rfl)
  | recvs ctx vcid v hv => exact (vchanRef (hlisted hv)).trans (of_eq rfl rfl)
  | closes ctx vcid v hv => exact (vchanClosed v).trans (of_eq rfl rfl)
  | receives pchan msg => exact receive pchan env msg
  | advances i call vm' out hi hadvance => exact advance hadvance
  | _ => exact of_eq rfl rfl

end Later

end HabVm

end Hab
