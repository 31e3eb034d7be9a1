import Hab.VmSteps

/-!
# References to vchans

Every call that uses a vchan and every entry of `ctx->vchannels` has a reference
of its own, a vchan that is still being opened has no other one, and `vchan_idr`
knows exactly the vchans that have a reference left.
-/

namespace Hab

namespace Call

/-- The call has a reference to the vchan. -/
def holds (v : ℕ) (call : Call) : Bool := call.vchan = some v

/-- The call is opening its vchan. -/
def opening : Call → Bool
  | .front _ _ | .round _ _ | .opened _ => true
  | _ => false

@[simp] theorem holds_eq_true {v : ℕ} {call : Call} :
    call.holds v = true ↔ call.vchan = some v := decide_eq_true_iff

theorem toNat_holds {v : ℕ} {call : Call} (h : call.vchan = some v) (w : ℕ) :
    (call.holds w).toNat = if w = v then 1 else 0 := by
  by_cases hw : w = v
  · simp [holds, h, hw]
  · simp [holds, h, hw, Ne.symm hw]

end Call

/-- What `hab_vchan_put` makes of a vchan. -/
def Vchan.put (vchan : Vchan) : Vchan :=
  if vchan.refcount = 1 then { vchan with refcount := 0, rxList := [] }
  else { vchan with refcount := vchan.refcount - 1 }

section Put

variable (vchan : Vchan)

@[simp] theorem Vchan.refcount_put : vchan.put.refcount = vchan.refcount - 1 := by
  by_cases h : vchan.refcount = 1 <;> simp [put, h]

/-- The fields that a put never changes. -/
theorem Vchan.put_eq : ∃ refcount rxList,
    vchan.put = { vchan with refcount := refcount, rxList := rxList } := by
  by_cases h : vchan.refcount = 1
  · exact ⟨0, [], by rw [put, if_pos h]⟩
  · exact ⟨vchan.refcount - 1, vchan.rxList, by rw [put, if_neg h]⟩

@[simp] theorem Vchan.pchan_put : vchan.put.pchan = vchan.pchan := by
  obtain ⟨_, _, h⟩ := vchan.put_eq
  rw [h]

@[simp] theorem Vchan.idr_put : vchan.put.idr = vchan.idr := by
  obtain ⟨_, _, h⟩ := vchan.put_eq
  rw [h]

end Put

namespace HabVm

variable {vm vm' : HabVm} {i v w : ℕ} {call call' : Call}

/-- The references to a vchan that are known of. -/
def refs (vm : HabVm) (v : ℕ) : ℕ :=
  vm.calls.count (Call.holds v) + vm.vchannels.count v

structure Referenced (vm : HabVm) : Prop where
  refs_le : ∀ v, vm.refs v ≤ (vm.vchan v).refcount
  fresh : ∀ v, vm.nextVchan ≤ v → (vm.vchan v).refcount = 0
  opening : ∀ i call v, vm.calls.get i = some call → call.opening = true →
    call.vchan = some v → (vm.vchan v).refcount = 1
  found : ∀ pchan id v, vm.vchanIdr pchan id = some v →
    (vm.vchan v).refcount ≠ 0 ∧ (vm.vchan v).pchan = pchan ∧ (vm.vchan v).idr = id
  entered : ∀ v, (vm.vchan v).refcount ≠ 0 →
    vm.vchanIdr (vm.vchan v).pchan (vm.vchan v).idr = some v
  idr_ne : ∀ v, v < vm.nextVchan → (vm.vchan v).idr ≠ ⟨0, by decide⟩

theorem Referenced.init : HabVm.init.Referenced where
  refs_le := fun _ ↦ Nat.le_refl 0
  fresh := fun _ _ ↦ rfl
  opening := by
    intro i call v h
    cases h
  found := by
    intro pchan id v h
    cases h
  entered := fun _ h ↦ absurd rfl h
  idr_ne := fun v h ↦ absurd h (Nat.not_lt_zero v)

section Release

variable {next : Option Call}

@[simp] theorem calls_release : (vm.release i v next).calls = vm.calls.set i next := by
  by_cases h : (vm.vchan v).refcount = 1 <;> simp [HabVm.release, HabVm.become, vchanPut, h, write]

@[simp] theorem vchannels_release : (vm.release i v next).vchannels = vm.vchannels := by
  by_cases h : (vm.vchan v).refcount = 1 <;> simp [HabVm.release, HabVm.become, vchanPut, h, write]

@[simp] theorem nextVchan_release : (vm.release i v next).nextVchan = vm.nextVchan := by
  by_cases h : (vm.vchan v).refcount = 1 <;> simp [HabVm.release, HabVm.become, vchanPut, h, write]

@[simp] theorem returns_release : (vm.release i v next).returns = vm.returns := by
  by_cases h : (vm.vchan v).refcount = 1 <;> simp [HabVm.release, HabVm.become, vchanPut, h, write]

theorem vchan_release (w : ℕ) :
    (vm.release i v next).vchan w = if w = v then (vm.vchan v).put else vm.vchan w := by
  by_cases h : (vm.vchan v).refcount = 1
  · simp [HabVm.release, HabVm.become, vchanPut, h, write, Vchan.put, Function.update_apply]
  · simp [HabVm.release, HabVm.become, vchanPut, h, write, Vchan.put, Function.update_apply]

@[simp] theorem calls_openErr {pchan : HabPchan} {result : List OpenReturn} :
    (vm.openErr i v pchan next result).calls = vm.calls.set i next := calls_release

theorem vchan_openErr {pchan : HabPchan} {result : List OpenReturn} (w : ℕ) :
    (vm.openErr i v pchan next result).vchan w =
      if w = v then (vm.vchan v).put else vm.vchan w := by
  change (vm.release i v next).vchan w = _
  exact vchan_release w

/-- The id is released with the last reference. -/
theorem vchanIdr_release (pchan : HabPchan) (id : Fin 4096) :
    (vm.release i v next).vchanIdr pchan id =
      if (vm.vchan v).refcount = 1 ∧ (vm.vchan v).pchan = pchan ∧ (vm.vchan v).idr = id then none
      else vm.vchanIdr pchan id := by
  by_cases h : (vm.vchan v).refcount = 1
  · by_cases hp : pchan = (vm.vchan v).pchan
    · subst hp
      by_cases hid : id = (vm.vchan v).idr
      · subst hid
        simp [HabVm.release, HabVm.become, vchanPut, h]
      · simp [HabVm.release, HabVm.become, vchanPut, h, hid, Ne.symm hid]
    · simp [HabVm.release, HabVm.become, vchanPut, h, hp, Ne.symm hp]
  · simp [HabVm.release, HabVm.become, vchanPut, h, write]

end Release

namespace Referenced

/-- Only the parts that the invariant speaks of matter. -/
theorem congr (h : vm.Referenced) (hcalls : vm'.calls = vm.calls) (hvchan : vm'.vchan = vm.vchan)
    (hnext : vm'.nextVchan = vm.nextVchan) (hidr : vm'.vchanIdr = vm.vchanIdr)
    (hlist : vm'.vchannels = vm.vchannels) : vm'.Referenced := by
  constructor
  · intro v
    rw [refs, hcalls, hlist, hvchan]
    exact h.refs_le v
  · rw [hnext, hvchan]
    exact h.fresh
  · rw [hcalls, hvchan]
    exact h.opening
  · rw [hidr, hvchan]
    exact h.found
  · rw [hidr, hvchan]
    exact h.entered
  · rw [hnext, hvchan]
    exact h.idr_ne

/-! ## What follows from it -/

theorem refcount_ne_zero (h : vm.Referenced) (hcall : vm.calls.get i = some call)
    (hv : call.vchan = some v) : (vm.vchan v).refcount ≠ 0 := by
  have hpos := Pool.count_pos hcall (Call.holds_eq_true.mpr hv)
  have hle := h.refs_le v
  rw [refs] at hle
  omega

theorem listed_ne_zero (h : vm.Referenced) (hv : v ∈ vm.vchannels) :
    (vm.vchan v).refcount ≠ 0 := by
  have hpos := List.count_pos_iff.mpr hv
  have hle := h.refs_le v
  rw [refs] at hle
  omega

theorem lt_nextVchan (h : vm.Referenced) (hv : (vm.vchan v).refcount ≠ 0) : v < vm.nextVchan := by
  by_contra hge
  exact hv (h.fresh v (Nat.le_of_not_lt hge))

/-- A vchan that is being opened is used by no other call. -/
theorem eq_of_opening (h : vm.Referenced) {j : ℕ} (hi : vm.calls.get i = some call)
    (hopen : call.opening = true) (hv : call.vchan = some v) (hj : vm.calls.get j = some call')
    (hv' : call'.vchan = some v) : j = i := by
  apply Pool.eq_of_count_le_one _ hj hi (Call.holds_eq_true.mpr hv') (Call.holds_eq_true.mpr hv)
  have hle := h.refs_le v
  rw [refs, h.opening i call v hi hopen hv] at hle
  omega

theorem not_listed_of_opening (h : vm.Referenced) (hi : vm.calls.get i = some call)
    (hopen : call.opening = true) (hv : call.vchan = some v) : v ∉ vm.vchannels := by
  intro hmem
  have hpos := Pool.count_pos hi (Call.holds_eq_true.mpr hv)
  have hlisted := List.count_pos_iff.mpr hmem
  have hle := h.refs_le v
  rw [refs, h.opening i call v hi hopen hv] at hle
  omega

/-- A new vchan is used by no call and is in no list. -/
theorem not_holds_nextVchan (h : vm.Referenced) (hi : vm.calls.get i = some call) :
    call.vchan ≠ some vm.nextVchan :=
  fun hv ↦ h.refcount_ne_zero hi hv (h.fresh vm.nextVchan (Nat.le_refl _))

/-! ## What a step does -/

/-- A change of a vchan that leaves its references and its id. -/
theorem write (h : vm.Referenced) {vchan : Vchan} (hcount : vchan.refcount = (vm.vchan v).refcount)
    (hpchan : vchan.pchan = (vm.vchan v).pchan) (hidr : vchan.idr = (vm.vchan v).idr) :
    (vm.write v vchan).Referenced := by
  have hsame : ∀ w, ((vm.write v vchan).vchan w).refcount = (vm.vchan w).refcount ∧
      ((vm.write v vchan).vchan w).pchan = (vm.vchan w).pchan ∧
        ((vm.write v vchan).vchan w).idr = (vm.vchan w).idr := by
    intro w
    by_cases hw : w = v
    · subst hw
      simp [HabVm.write, hcount, hpchan, hidr]
    · simp [HabVm.write, hw]
  constructor
  · intro w
    rw [(hsame w).1]
    exact h.refs_le w
  · intro w hw
    rw [(hsame w).1]
    exact h.fresh w hw
  · intro j call w hj hopen hw
    rw [(hsame w).1]
    exact h.opening j call w hj hopen hw
  · intro pchan id w hw
    rw [(hsame w).1, (hsame w).2.1, (hsame w).2.2]
    exact h.found pchan id w hw
  · intro w hw
    rw [(hsame w).1] at hw
    rw [(hsame w).2.1, (hsame w).2.2]
    exact h.entered w hw
  · intro w hw
    rw [(hsame w).2.2]
    exact h.idr_ne w hw

theorem vchanClosed (h : vm.Referenced) (v : ℕ) : (vm.vchanClosed v).Referenced :=
  h.write rfl rfl rfl

theorem backHear (h : vm.Referenced) (request : HabOpenRequest HabPchan) :
    (vm.backHear request).Referenced := h.congr rfl rfl rfl rfl rfl

/-- A call goes on with the same vchan, or without one as before. -/
theorem become (h : vm.Referenced) (hi : vm.calls.get i = some call) {next : Option Call}
    (hv : next.bind Call.vchan = call.vchan)
    (hopen : ∀ call', next = some call' → call'.opening = true → call.opening = true) :
    (vm.become i next).Referenced := by
  have hholds : ∀ w,
      (vm.calls.set i next).count (Call.holds w) = vm.calls.count (Call.holds w) := by
    intro w
    have hset : (vm.calls.set i next).count (Call.holds w) + (call.holds w).toNat =
        vm.calls.count (Call.holds w) + (next.any (Call.holds w)).toNat := Pool.count_set hi next
    have hsame : next.any (Call.holds w) = call.holds w := by
      cases next with
      | none => simp [Call.holds, ← hv]
      | some call' => simp [Call.holds, ← hv]
    rw [hsame] at hset
    omega
  constructor
  · intro w
    rw [refs, HabVm.become, hholds]
    exact h.refs_le w
  · exact h.fresh
  · intro j call' w hj hopen' hw
    rcases (Pool.get_set (Pool.lt_next hi)).mp hj with ⟨rfl, rfl⟩ | ⟨-, hj⟩
    · exact h.opening j call w hi (hopen call' rfl hopen') (hv.symm.trans hw)
    · exact h.opening j call' w hj hopen' hw
  · exact h.found
  · exact h.entered
  · exact h.idr_ne

theorem spawn (h : vm.Referenced) (hv : call.vchan = none) :
    { vm with calls := vm.calls.spawn call }.Referenced := by
  constructor
  · intro w
    rw [refs, Pool.count_spawn, show call.holds w = false by simp [Call.holds, hv]]
    exact h.refs_le w
  · exact h.fresh
  · intro j call' w hj hopen hw
    rcases Pool.get_spawn.mp hj with ⟨-, rfl⟩ | hj
    · rw [hv] at hw
      cases hw
    · exact h.opening j call' w hj hopen hw
  · exact h.found
  · exact h.entered
  · exact h.idr_ne

/-- A call gives its vchan back. -/
theorem release (h : vm.Referenced) (hi : vm.calls.get i = some call)
    (hv : call.vchan = some v) {next : Option Call} (hnext : next.bind Call.vchan = none) :
    (vm.release i v next).Referenced := by
  have hset : ∀ w, (vm.calls.set i next).count (Call.holds w) + (call.holds w).toNat =
      vm.calls.count (Call.holds w) := by
    intro w
    have hcount : (vm.calls.set i next).count (Call.holds w) + (call.holds w).toNat =
        vm.calls.count (Call.holds w) + (next.any (Call.holds w)).toNat := Pool.count_set hi next
    have hnone : next.any (Call.holds w) = false := by
      cases next with
      | none => rfl
      | some call' =>
          have hcall' : call'.vchan = none := hnext
          simp [Call.holds, hcall']
    rw [hnone] at hcount
    exact hcount
  constructor
  · intro w
    have hle := h.refs_le w
    have hcount := hset w
    rw [refs] at hle
    rw [refs, calls_release, vchannels_release, vchan_release]
    by_cases hw : w = v
    · subst hw
      rw [Call.holds_eq_true.mpr hv, Bool.toNat_true] at hcount
      rw [if_pos rfl, Vchan.refcount_put]
      omega
    · rw [if_neg hw]
      omega
  · intro w hw
    rw [nextVchan_release] at hw
    have hzero := h.fresh w hw
    rw [vchan_release]
    by_cases hwv : w = v
    · subst hwv
      rw [if_pos rfl, Vchan.refcount_put, hzero]
    · rw [if_neg hwv]
      exact hzero
  · intro j call' w hj hopen hw
    rw [calls_release] at hj
    rcases (Pool.get_set (Pool.lt_next hi)).mp hj with ⟨rfl, rfl⟩ | ⟨hji, hj⟩
    · rw [Option.bind_some, hw] at hnext
      cases hnext
    · have hwv : w ≠ v := by
        rintro rfl
        exact hji (h.eq_of_opening hj hopen hw hi hv).symm
      rw [vchan_release, if_neg hwv]
      exact h.opening j call' w hj hopen hw
  · intro pchan id w hw
    rw [vchanIdr_release, ite_eq_iff] at hw
    obtain ⟨-, hw⟩ | ⟨hkept, hw⟩ := hw
    · cases hw
    obtain ⟨hne, hpchan, hidr⟩ := h.found pchan id w hw
    rw [vchan_release]
    by_cases hwv : w = v
    · subst hwv
      have hmore : (vm.vchan w).refcount ≠ 1 := fun hone ↦ hkept ⟨hone, hpchan, hidr⟩
      rw [if_pos rfl, Vchan.refcount_put, Vchan.pchan_put, Vchan.idr_put]
      exact ⟨by omega, hpchan, hidr⟩
    · rw [if_neg hwv]
      exact ⟨hne, hpchan, hidr⟩
  · intro w hw
    rw [vchan_release] at hw ⊢
    by_cases hwv : w = v
    · subst hwv
      rw [if_pos rfl, Vchan.refcount_put] at hw
      rw [if_pos rfl, Vchan.pchan_put, Vchan.idr_put]
      rw [vchanIdr_release, if_neg (fun hlast ↦ by omega)]
      exact h.entered w (by omega)
    · rw [if_neg hwv] at hw ⊢
      have hent := h.entered w hw
      rw [vchanIdr_release, if_neg]
      · exact hent
      · rintro ⟨hone, hpchan, hidr⟩
        have hent' := h.entered v (by omega)
        rw [hpchan, hidr, hent] at hent'
        exact hwv (Option.some.inj hent')
  · intro w hw
    have hidr := h.idr_ne w (by rwa [nextVchan_release] at hw)
    rw [vchan_release]
    by_cases hwv : w = v
    · subst hwv
      rw [if_pos rfl, Vchan.idr_put]
      exact hidr
    · rw [if_neg hwv]
      exact hidr

/-- A listed vchan gets another reference, for a call that starts or for nobody. -/
theorem take (h : vm.Referenced) (hv : v ∈ vm.vchannels) {calls : Pool Call}
    (hcount : ∀ w, calls.count (Call.holds w) ≤
      vm.calls.count (Call.holds w) + if w = v then 1 else 0)
    (hopening : ∀ j call', calls.get j = some call' → call'.opening = true →
      vm.calls.get j = some call') :
    { vm.vchanRef v with calls := calls }.Referenced := by
  have hne := h.listed_ne_zero hv
  constructor
  · intro w
    have hle := h.refs_le w
    have hmore := hcount w
    rw [refs] at hle
    by_cases hw : w = v
    · subst hw
      simp only [refs, vchanRef, HabVm.write, Function.update_self]
      rw [if_pos rfl] at hmore
      omega
    · simp only [refs, vchanRef, HabVm.write, Function.update_of_ne hw]
      rw [if_neg hw] at hmore
      omega
  · intro w hw
    have hwv : w ≠ v := by
      rintro rfl
      exact hne (h.fresh w hw)
    simp only [vchanRef, HabVm.write, Function.update_of_ne hwv]
    exact h.fresh w hw
  · intro j call' w hj hopen hw
    have hold := hopening j call' hj hopen
    have hwv : w ≠ v := by
      rintro rfl
      exact h.not_listed_of_opening hold hopen hw hv
    simp only [vchanRef, HabVm.write, Function.update_of_ne hwv]
    exact h.opening j call' w hold hopen hw
  · intro pchan id w hw
    have hfound := h.found pchan id w hw
    by_cases hwv : w = v
    · subst hwv
      simpa [vchanRef, HabVm.write] using hfound.2
    · simpa [vchanRef, HabVm.write, hwv] using hfound
  · intro w hw
    by_cases hwv : w = v
    · subst hwv
      simpa [vchanRef, HabVm.write] using h.entered w hne
    · simp only [vchanRef, HabVm.write, Function.update_of_ne hwv] at hw ⊢
      exact h.entered w hw
  · intro w hw
    have hidr := h.idr_ne w hw
    by_cases hwv : w = v
    · subst hwv
      simpa [vchanRef, HabVm.write] using hidr
    · simpa [vchanRef, HabVm.write, hwv] using hidr

theorem hold (h : vm.Referenced) (hv : v ∈ vm.vchannels) (hcall : call.vchan = some v)
    (hopen : call.opening = false) : (vm.hold v call).Referenced := by
  apply h.take hv
  · intro w
    rw [Pool.count_spawn, Call.toNat_holds hcall]
  · intro j call' hj hopen'
    rcases Pool.get_spawn.mp hj with ⟨-, rfl⟩ | hj
    · rw [hopen] at hopen'
      cases hopen'
    · exact hj

theorem vchanAlloc (h : vm.Referenced) {ctx : ℕ} {pchan : HabPchan} {openId otherendId : UInt32}
    {id : Fin 4096} (hfree : vm.idrFree pchan id = true) {calls : Pool Call}
    (hcount : ∀ w, calls.count (Call.holds w) ≤
      vm.calls.count (Call.holds w) + if w = vm.nextVchan then 1 else 0)
    (hopening : ∀ j call', calls.get j = some call' → call'.opening = true →
      vm.calls.get j = some call' ∨ call'.vchan = some vm.nextVchan) :
    { vm.vchanAlloc ctx pchan openId otherendId id with calls := calls }.Referenced := by
  obtain ⟨hid, hnone⟩ : id ≠ ⟨0, by decide⟩ ∧ vm.vchanIdr pchan id = none := by
    simpa [idrFree] using hfree
  have hnew : vm.refs vm.nextVchan = 0 :=
    Nat.le_zero.mp ((h.refs_le _).trans (h.fresh _ (Nat.le_refl _)).le)
  constructor
  · intro w
    have hle := h.refs_le w
    have hmore := hcount w
    rw [refs] at hle hnew
    by_cases hw : w = vm.nextVchan
    · subst hw
      simp only [refs, HabVm.vchanAlloc, Function.update_self]
      rw [if_pos rfl] at hmore
      omega
    · simp only [refs, HabVm.vchanAlloc, Function.update_of_ne hw]
      rw [if_neg hw] at hmore
      omega
  · intro w hw
    have hlt : vm.nextVchan < w := hw
    simp only [HabVm.vchanAlloc, Function.update_of_ne hlt.ne']
    exact h.fresh w hlt.le
  · intro j call' w hj hopen hw
    by_cases hwn : w = vm.nextVchan
    · subst hwn
      simp [HabVm.vchanAlloc]
    · simp only [HabVm.vchanAlloc, Function.update_of_ne hwn]
      rcases hopening j call' hj hopen with hold | hnew
      · exact h.opening j call' w hold hopen hw
      · exact absurd (Option.some.inj (hw.symm.trans hnew)) hwn
  · intro p id' w hw
    by_cases hpid : p = pchan ∧ id' = id
    · obtain ⟨rfl, rfl⟩ := hpid
      simp only [HabVm.vchanAlloc, Function.update_self, Option.some.injEq] at hw
      subst hw
      simp [HabVm.vchanAlloc]
    · have hwas : vm.vchanIdr p id' = some w := by
        simp only [HabVm.vchanAlloc] at hw
        by_cases hp : p = pchan
        · subst hp
          rwa [Function.update_self, Function.update_of_ne (fun heq ↦ hpid ⟨rfl, heq⟩)] at hw
        · rwa [Function.update_of_ne hp] at hw
      obtain ⟨hne, hrest⟩ := h.found p id' w hwas
      have hwn := (h.lt_nextVchan hne).ne
      simp only [HabVm.vchanAlloc, Function.update_of_ne hwn]
      exact ⟨hne, hrest⟩
  · intro w hw
    by_cases hwn : w = vm.nextVchan
    · subst hwn
      simp [HabVm.vchanAlloc]
    · simp only [HabVm.vchanAlloc, Function.update_of_ne hwn] at hw ⊢
      have hent := h.entered w hw
      by_cases hp : (vm.vchan w).pchan = pchan
      · subst hp
        have hidw : (vm.vchan w).idr ≠ id := by
          rintro rfl
          rw [hent] at hnone
          cases hnone
        rw [Function.update_self, Function.update_of_ne hidw]
        exact hent
      · rw [Function.update_of_ne hp]
        exact hent
  · intro w hw
    by_cases hwn : w = vm.nextVchan
    · subst hwn
      simpa [HabVm.vchanAlloc] using hid
    · simp only [HabVm.vchanAlloc, Function.update_of_ne hwn]
      exact h.idr_ne w (Nat.lt_of_le_of_ne (Nat.le_of_lt_succ hw) hwn)

theorem publish (h : vm.Referenced) (hi : vm.calls.get i = some (.opened v)) :
    { vm.become i none with vchannels := vm.vchannels ++ [v] }.Referenced := by
  constructor
  · intro w
    have hle := h.refs_le w
    have hcount : (vm.calls.set i none).count (Call.holds w) +
        ((Call.opened v).holds w).toNat = vm.calls.count (Call.holds w) :=
      Pool.count_set hi none
    rw [refs] at hle
    simp only [refs, HabVm.become, List.count_append]
    by_cases hw : v = w
    · subst hw
      rw [List.count_singleton_self]
      simp only [Call.holds, Call.vchan, decide_true, Bool.toNat_true] at hcount
      omega
    · have hzero : [v].count w = 0 := by simp [hw]
      omega
  · exact h.fresh
  · intro j call' w hj hopen hw
    rcases (Pool.get_set (Pool.lt_next hi)).mp hj with ⟨-, heq⟩ | ⟨-, hj⟩
    · cases heq
    · exact h.opening j call' w hj hopen hw
  · exact h.found
  · exact h.entered
  · exact h.idr_ne

theorem unlist (h : vm.Referenced) (hv : v ∈ vm.vchannels) :
    { vm with
      vchannels := vm.vchannels.erase v
      calls := vm.calls.spawn (.closing v) }.Referenced := by
  constructor
  · intro w
    have hle := h.refs_le w
    rw [refs] at hle
    simp only [refs, Pool.count_spawn]
    by_cases hw : v = w
    · subst hw
      have hpos := List.count_pos_iff.mpr hv
      have hself : ((Call.closing v).holds v).toNat = 1 := by simp [Call.holds, Call.vchan]
      rw [List.count_erase_self]
      omega
    · have hother : ((Call.closing v).holds w).toNat = 0 := by simp [Call.holds, Call.vchan, hw]
      rw [List.count_erase_of_ne (Ne.symm hw)]
      omega
  · exact h.fresh
  · intro j call' w hj hopen hw
    rcases Pool.get_spawn.mp hj with ⟨-, rfl⟩ | hj
    · cases hopen
    · exact h.opening j call' w hj hopen hw
  · exact h.found
  · exact h.entered
  · exact h.idr_ne

/-! ## Every step keeps it -/

theorem openErr (h : vm.Referenced) (hi : vm.calls.get i = some call) (hv : call.vchan = some v)
    {next : Option Call} (hnext : next.bind Call.vchan = none) {pchan : HabPchan}
    {result : List OpenReturn} : (vm.openErr i v pchan next result).Referenced :=
  (h.release hi hv hnext).congr rfl rfl rfl rfl rfl

theorem openErr_freed (h : vm.Referenced) (hi : vm.calls.get i = some call)
    (hopen : call.opening = true) (hv : call.vchan = some v) {pchan : HabPchan}
    {next : Option Call} {result : List OpenReturn} :
    ((vm.openErr i v pchan next result).vchan v).refcount = 0 := by
  rw [vchan_openErr, if_pos rfl, Vchan.refcount_put, h.opening i call v hi hopen hv]

theorem frontPair (h : vm.Referenced) {o : FrontOpen} {stage : FrontStage}
    (hi : vm.calls.get i = some (.front o stage)) (request : HabOpenRequest HabPchan) :
    (vm.frontPair i o request).Referenced := by
  have hwrite : (vm.write o.vchan
      { vm.vchan o.vchan with otherendId := request.xdata.vchanId }).Referenced :=
    h.write rfl rfl rfl
  have hbecome : ((vm.write o.vchan
      { vm.vchan o.vchan with otherendId := request.xdata.vchanId }).become i
        (some (.front o (.paired request)))).Referenced :=
    hwrite.become hi rfl (fun _ _ _ ↦ rfl)
  exact hbecome.congr rfl rfl rfl rfl rfl

theorem frontAccept (h : vm.Referenced) {o : FrontOpen} {stage : FrontStage}
    (hi : vm.calls.get i = some (.front o stage)) (request : HabOpenRequest HabPchan) :
    (vm.frontAccept i o request).Referenced := by
  have hbecome : (vm.become i (some (.opened o.vchan))).Referenced :=
    h.become hi rfl (fun _ _ _ ↦ rfl)
  exact hbecome.congr rfl rfl rfl rfl rfl

theorem backAccept (h : vm.Referenced) {r : BackRound} {stage : RoundStage}
    (hi : vm.calls.get i = some (.round r stage)) (request : HabOpenRequest HabPchan) :
    (vm.backAccept i r request).Referenced := by
  have hbecome : (vm.become i (some (.opened r.vchan))).Referenced :=
    h.become hi rfl (fun _ _ _ ↦ rfl)
  exact hbecome.congr rfl rfl rfl rfl rfl

theorem backTake (h : vm.Referenced) {l : BackListen} {stage : ListenStage}
    (hi : vm.calls.get i = some (.listen l stage)) {request : HabOpenRequest HabPchan}
    {id : Fin 4096} (hfree : vm.idrFree request.pchan id = true) :
    (vm.backTake i l request id).Referenced := by
  apply h.vchanAlloc hfree
  · intro w
    have hcount : (vm.calls.set i (some (.round ⟨l, request, vm.nextVchan⟩ .ack))).count
        (Call.holds w) + (Call.holds w (.listen l stage)).toNat =
          vm.calls.count (Call.holds w) +
            (Call.holds w (.round ⟨l, request, vm.nextVchan⟩ .ack)).toNat :=
      Pool.count_set hi _
    have hround : (Call.holds w (.round ⟨l, request, vm.nextVchan⟩ .ack)).toNat =
        if w = vm.nextVchan then 1 else 0 := Call.toNat_holds rfl w
    change (vm.calls.set i (some (.round ⟨l, request, vm.nextVchan⟩ .ack))).count
      (Call.holds w) ≤ _
    rw [hround] at hcount
    exact (Nat.le_add_right _ _).trans hcount.le
  · intro j call' hj hopen
    rcases (Pool.get_set (Pool.lt_next hi)).mp hj with ⟨-, heq⟩ | ⟨-, hj⟩
    · cases heq
      exact Or.inr rfl
    · exact Or.inl hj

theorem receive (h : vm.Referenced) {pchan : HabPchan} {env : Env} (msg : HabMsg) :
    (vm.receive pchan env msg).Referenced := by
  cases msg with
  | request type xdata =>
      simp only [HabVm.receive]
      split <;> exact h.congr rfl rfl rfl rfl rfl
  | data id sessionId message =>
      simp only [HabVm.receive]
      split
      · exact h
      · split
        · exact h
        · exact h.write rfl rfl rfl
  | close id sessionId =>
      simp only [HabVm.receive]
      split
      · exact h
      · exact h.write rfl rfl rfl

theorem advance (h : vm.Referenced) {env : Env} {out : List (HabPchan × HabMsg)}
    (hi : vm.calls.get i = some call) (hstep : vm.Advance i env call vm' out) :
    vm'.Referenced := by
  have hfront : ∀ {o stage} stage', call = .front o stage →
      (vm.become i (some (.front o stage'))).Referenced := by
    rintro o stage stage' rfl
    exact h.become hi rfl (fun _ _ _ ↦ rfl)
  have hlisten : ∀ {l stage} stage', call = .listen l stage →
      (vm.become i (some (.listen l stage'))).Referenced := by
    rintro l stage stage' rfl
    refine h.become hi rfl ?_
    rintro _ ⟨⟩ hopen
    cases hopen
  have hround : ∀ {r stage} stage', call = .round r stage →
      (vm.become i (some (.round r stage'))).Referenced := by
    rintro r stage stage' rfl
    exact h.become hi rfl (fun _ _ _ ↦ rfl)
  have hstop : ∀ v call', some (Call.stopping v) = some call' → call'.opening = true →
      (Call.closing v).opening = true := by
    rintro v _ ⟨⟩ hopen
    cases hopen
  cases hstep with
  | frontInit o => exact hfront .wait rfl
  | frontPoll o dev hdev => exact h.congr rfl rfl rfl rfl rfl
  | frontWoken o dev ended recv hdev hmet =>
      exact (hfront (.woken ended recv) rfl).congr rfl rfl rfl rfl rfl
  | frontPair o ended request haccept => exact h.frontPair hi request
  | frontGiveUp o ended recv error => exact hfront (.cancel recv error) rfl
  | frontErr o stage error => exact h.openErr hi rfl rfl
  | frontCancel o recv error => exact h.openErr hi rfl rfl
  | frontAccept o request => exact h.frontAccept hi request
  | listenPoll l dev hdev => exact h.congr rfl rfl rfl rfl rfl
  | listenWoken l dev ended recv hdev hmet =>
      exact (hlisten (.woken ended recv) rfl).congr rfl rfl rfl rfl rfl
  | listenErr l ended recv error dev hdev memProto =>
      have hend : (vm.become i none).Referenced := h.become hi rfl (fun _ heq ↦ by cases heq)
      exact hend.congr rfl rfl rfl rfl rfl
  | listenTake l ended request id haccept hfree => exact (h.backHear request).backTake hi hfree
  | roundAck r => exact hround .wait rfl
  | roundPoll r dev hdev => exact h.congr rfl rfl rfl rfl rfl
  | roundAnswered r dev ended recv hdev hmet =>
      exact (hround (.answered ended recv) rfl).congr rfl rfl rfl rfl rfl
  | roundAccept r ended request haccept => exact h.backAccept hi request
  | roundGiveUp r ended recv error hrefuse hretry hcancel => exact hround (.cancel recv error) rfl
  | roundErr r stage error hrefuse => exact h.openErr hi rfl rfl
  | roundCancel r recv error => exact h.openErr hi rfl rfl
  | roundRetry r recv out hout => exact h.openErr hi rfl rfl
  | publish v => exact h.publish hi
  | sent v message nonblocking =>
      have hlog : (vm.logSent v (some message)).Referenced := h.write rfl rfl rfl
      exact hlog.release hi rfl rfl
  | sendAgain v message nonblocking => exact h
  | sendErr v message nonblocking => exact h.release hi rfl rfl
  | dequeue v rsize waited =>
      have hrx : (vm.msgDequeue v rsize waited).Referenced := h.write rfl rfl rfl
      exact hrx.release hi rfl rfl
  | closeSent v hopen =>
      have hlog : (vm.logSent v none).Referenced := h.write rfl rfl rfl
      exact hlog.become hi rfl (hstop v)
  | closeSkip v hskip => exact h.become hi rfl (hstop v)
  | stopped v =>
      have hstopped : (vm.vchanStop v).Referenced := h.write rfl rfl rfl
      exact hstopped.release hi rfl rfl

theorem step (h : vm.Referenced) {act : VmAct} {env : Env} {out : List (HabPchan × HabMsg)}
    (hstep : vm.Step env act vm' out) : vm'.Referenced := by
  cases hstep with
  | openFails ctx pchan subId request => exact h.congr rfl rfl rfl rfl rfl
  | opens ctx pchan subId request id hfree =>
      have hcount : (vm.countOpen pchan).Referenced := h.congr rfl rfl rfl rfl rfl
      apply hcount.vchanAlloc hfree
      · intro w
        rw [Pool.count_spawn, Call.toNat_holds rfl]
        exact Nat.le_refl _
      · intro j call' hj _
        rcases Pool.get_spawn.mp hj with ⟨-, rfl⟩ | hj
        · exact Or.inr rfl
        · exact Or.inl hj
  | listens l => exact h.spawn rfl
  | sendFails ctx vcid message nonblocking => exact h
  | sendLeaks ctx vcid message nonblocking v hv =>
      exact h.take (vchanFromVcid_eq_some hv).1 (fun _ ↦ Nat.le_add_right _ _) (fun _ _ hj _ ↦ hj)
  | sends ctx vcid message nonblocking v hv hmessage =>
      exact h.hold (vchanFromVcid_eq_some hv).1 rfl rfl
  | recvFails ctx vcid => exact h
  | recvs ctx vcid v hv => exact h.hold (vchanFromVcid_eq_some hv).1 rfl rfl
  | closes ctx vcid v hv => exact (h.vchanClosed v).unlist hv
  | stops ctx subId => exact h.congr rfl rfl rfl rfl rfl
  | closesPchan pchan => exact h.congr rfl rfl rfl rfl rfl
  | receives pchan msg => exact h.receive msg
  | advances i call vm' out hi hadvance => exact h.advance hi hadvance

end Referenced

end HabVm

end Hab
