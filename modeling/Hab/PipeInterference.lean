import Hab.PipeReads

/-!
# Two pipes and one sticky flag

`hab_pipe_read` keeps the outcome of its last header check in a static
variable, which every pipe shares.  A run reads from two pipes in any order;
the second pipe's reads are compared with the run without the reads on the
first.
-/

namespace Hab

open Runs

/-- The reading side of a pipe. -/
structure ReadSide where
  ep : HabPipeEndpoint
  shBuf : HabSharedBuf
  bufSize : UInt32
deriving DecidableEq

/-- What a caller of `hab_pipe_read` can tell: the value returned, the buffer,
`rx_info.index` and `rd_count`. -/
structure ReadResult where
  ret : UInt32
  p : List UInt8
  index : UInt32
  rdCount : UInt32
deriving DecidableEq

/-- What a call leaves of the pipe. -/
def PipeRead.side (r : PipeRead) (bufSize : UInt32) : ReadSide := ⟨r.ep, r.shBuf, bufSize⟩

/-- What a call's result shows. -/
def PipeRead.result (r : PipeRead) : ReadResult :=
  ⟨r.ret, r.p, r.ep.rxInfo.index, r.shBuf.rdCount⟩

/-- Two pipes of one VM, with what the reads on the second showed. -/
structure TwoPipes where
  a : ReadSide
  b : ReadSide
  signatureMismatch : UInt8
  /-- What the last header check on `b` left in the flag. -/
  checkedB : UInt8
  seen : List ReadResult
deriving DecidableEq

/-- A read on one of the pipes, or a change the peer makes to its ring. -/
inductive PipesEvent where
  | readA (size clear : UInt32) (p : CallerBuffer size)
  | readB (size clear : UInt32) (p : CallerBuffer size)
  | peerA (shBuf : HabSharedBuf)
  | peerB (shBuf : HabSharedBuf)

namespace PipesEvent

/-- Everything but a read on the first pipe. -/
def kept : PipesEvent → Bool
  | .readA _ _ _ => false
  | _ => true

end PipesEvent

namespace ReadSide

/-- A read on this pipe. -/
def read (side : ReadSide) (size clear : UInt32) (p : CallerBuffer size)
    (signatureMismatch : UInt8) : Option PipeRead :=
  habPipeRead side.ep side.shBuf side.bufSize (some p.bytes) size clear signatureMismatch

/-- The bytes the two copies of a read leave in the caller's buffer. -/
def copied (side : ReadSide) (size : UInt32) (p : CallerBuffer size) : Option (List UInt8) :=
  copyRing side.shBuf.data p.bytes side.bufSize side.ep.rxInfo.index (toRead side.shBuf size)

/-- The read gets as far as the header check. -/
def Checks (side : ReadSide) (size clear : UInt32) : Prop :=
  ¬ ReadRefused side.ep side.shBuf side.bufSize size ∧ ChecksHeader size clear

instance (side : ReadSide) (size clear : UInt32) : Decidable (side.Checks size clear) :=
  instDecidableAnd

/-- The read depends on the flag: it is not refused, and not one for a header
that shows a valid signature. -/
def Consults (side : ReadSide) (size clear : UInt32) (p : CallerBuffer size) : Prop :=
  ¬ ReadRefused side.ep side.shBuf side.bufSize size ∧
    ¬ (ChecksHeader size clear ∧
      (side.copied size p).bind headSignature = some habHeadSignature)

instance (side : ReadSide) (size clear : UInt32) (p : CallerBuffer size) :
    Decidable (side.Consults size clear p) := instDecidableAnd

end ReadSide

namespace TwoPipes

/-- Both pipes before the first read: the flag is clear. -/
def start (a b : ReadSide) : TwoPipes := ⟨a, b, 0, 0, []⟩

/-- One event. -/
def step (s : TwoPipes) : PipesEvent → Option TwoPipes
  | .readA size clear p => do
      let r ← s.a.read size clear p s.signatureMismatch
      pure { s with a := r.side s.a.bufSize, signatureMismatch := r.signatureMismatch }
  | .readB size clear p => do
      let r ← s.b.read size clear p s.signatureMismatch
      pure
        { s with
          b := r.side s.b.bufSize
          signatureMismatch := r.signatureMismatch
          checkedB := if s.b.Checks size clear then r.signatureMismatch else s.checkedB
          seen := s.seen ++ [r.result] }
  | .peerA shBuf => some { s with a := { s.a with shBuf := shBuf } }
  | .peerB shBuf => some { s with b := { s.b with shBuf := shBuf } }

/-- The state after a read on the second pipe. -/
def afterReadB (s : TwoPipes) (size clear : UInt32) (r : PipeRead) : TwoPipes :=
  { s with
    b := r.side s.b.bufSize
    signatureMismatch := r.signatureMismatch
    checkedB := if s.b.Checks size clear then r.signatureMismatch else s.checkedB
    seen := s.seen ++ [r.result] }

/-- A read on the second pipe that depends on the flag finds in it the outcome
of that pipe's own last header check. -/
def OwnFlag (s : TwoPipes) : PipesEvent → Prop
  | .readB size clear p =>
      s.b.Consults size clear p → (s.signatureMismatch = 0 ↔ s.checkedB = 0)
  | _ => True

end TwoPipes

/-! ## One read under two flags -/

section TwoFlags

variable {side : ReadSide} {size clear : UInt32} {p : CallerBuffer size}

/-- Whether a read stays in its ring does not depend on the flag. -/
theorem ReadSide.read_cases (side : ReadSide) (size clear : UInt32) (p : CallerBuffer size) :
    (ReadRefused side.ep side.shBuf side.bufSize size ∧
      ∀ flag, side.read size clear p flag =
        some ⟨0, side.ep, side.shBuf, p.bytes, flag⟩) ∨
    (¬ ReadRefused side.ep side.shBuf side.bufSize size ∧ side.copied size p = none ∧
      ∀ flag, side.read size clear p flag = none) ∨
    (¬ ReadRefused side.ep side.shBuf side.bufSize size ∧
      ∃ p', side.copied size p = some p' ∧
        ∀ flag, side.read size clear p flag =
          some (afterCopy side.ep side.shBuf side.bufSize p' size clear flag)) := by
  by_cases hrefused : ReadRefused side.ep side.shBuf side.bufSize size
  · exact Or.inl ⟨hrefused, fun flag ↦ hrefused.habPipeRead_eq p.bytes clear flag⟩
  · refine Or.inr ?_
    cases hcopy : side.copied size p with
    | none =>
        exact Or.inl ⟨hrefused, rfl, fun flag ↦
          habPipeRead_of_copyRing_none hrefused hcopy clear flag⟩
    | some p' =>
        exact Or.inr ⟨hrefused, p', rfl, fun flag ↦
          habPipeRead_of_copyRing hrefused p.fits hcopy clear flag⟩

end TwoFlags

section AfterCopy

variable {ep : HabPipeEndpoint} {shBuf : HabSharedBuf} {bufSize size clear : UInt32}
  {p : List UInt8} {flag flag' : UInt8}

theorem signatureMismatch_afterCopy :
    (afterCopy ep shBuf bufSize p size clear flag).signatureMismatch =
      mismatchAfter p size clear flag := by
  by_cases h : mismatchAfter p size clear flag = 0
  · rw [afterCopy, if_pos h]
    rfl
  · rw [afterCopy, if_neg h]
    rfl

/-- Flags that agree on being clear show the same. -/
theorem afterCopy_congr
    (h : (ChecksHeader size clear ∧ headSignature p = some habHeadSignature) ∨
      (flag = 0 ↔ flag' = 0)) :
    (afterCopy ep shBuf bufSize p size clear flag).result =
        (afterCopy ep shBuf bufSize p size clear flag').result ∧
      (afterCopy ep shBuf bufSize p size clear flag).side bufSize =
        (afterCopy ep shBuf bufSize p size clear flag').side bufSize := by
  unfold afterCopy mismatchAfter
  by_cases hchecks : ChecksHeader size clear
  · simp only [if_pos hchecks]
    by_cases hgood : headSignature p = some habHeadSignature
    · simp only [if_pos hgood]
      exact ⟨rfl, rfl⟩
    · have hsame := h.resolve_left fun hc ↦ hgood hc.2
      have hone : ¬ (1 : UInt8) = 0 := by decide
      simp only [if_neg hgood, if_neg hone, and_iff_right hchecks, hsame, and_self]
  · have hsame := h.resolve_left fun hc ↦ hchecks hc.1
    have hno (f : UInt8) : ¬ (ChecksHeader size clear ∧ f = 0) := fun hc ↦ hchecks hc.1
    simp only [if_neg hchecks, if_neg (hno _)]
    by_cases hclear : flag = 0
    · rw [if_pos hclear, if_pos (hsame.mp hclear)]
      exact ⟨rfl, rfl⟩
    · rw [if_neg hclear, if_neg fun hc ↦ hclear (hsame.mpr hc)]
      exact ⟨rfl, rfl⟩

/-- A read that depends on the flag tells a clear flag from a set one. -/
theorem afterCopy_ne
    (h : ¬ (ChecksHeader size clear ∧ headSignature p = some habHeadSignature))
    (hflag : flag ≠ 0) :
    (afterCopy ep shBuf bufSize p size clear 0).result ≠
      (afterCopy ep shBuf bufSize p size clear flag).result := by
  unfold afterCopy mismatchAfter
  by_cases hchecks : ChecksHeader size clear
  · have hbad : headSignature p ≠ some habHeadSignature := fun hc ↦ h ⟨hchecks, hc⟩
    have hone : ¬ (1 : UInt8) = 0 := by decide
    simp only [if_pos hchecks, if_neg hbad, if_neg hone, and_iff_right hchecks, if_neg hflag]
    intro heq
    have hret : (0xFFFFFFFF : UInt32) = 0xFFFFFFFE := congrArg ReadResult.ret heq
    exact absurd hret (by decide)
  · have hno (f : UInt8) : ¬ (ChecksHeader size clear ∧ f = 0) := fun hc ↦ hchecks hc.1
    simp only [if_neg hchecks, if_neg (hno _), if_neg hflag]
    intro heq
    have hret : toRead shBuf size = 0xFFFFFFFE := congrArg ReadResult.ret heq
    have hcount : shBuf.rdCount + toRead shBuf size = shBuf.rdCount + 1 :=
      congrArg ReadResult.rdCount heq
    rw [hret] at hcount
    exact absurd (UInt32.add_right_inj _ |>.mp hcount) (by decide)

end AfterCopy

namespace TwoPipes

/-! ## The run with and without the other reads -/

/-- A run and the one without the reads on the first pipe, as long as the
second pipe's reads show the same. -/
structure Alike (s t : TwoPipes) : Prop where
  b : s.b = t.b
  seen : s.seen = t.seen
  flag : t.signatureMismatch = s.checkedB

theorem step_readB {s : TwoPipes} {size clear : UInt32} {p : CallerBuffer size} {r : PipeRead}
    (h : s.b.read size clear p s.signatureMismatch = some r) :
    step s (.readB size clear p) = some (s.afterReadB size clear r) := by
  rw [step, h]
  rfl

theorem Alike.readA {s t s' : TwoPipes} (h : Alike s t) {size clear : UInt32}
    {p : CallerBuffer size} (hstep : step s (.readA size clear p) = some s') : Alike s' t := by
  obtain ⟨r, -, hs'⟩ := Option.bind_eq_some_iff.mp hstep
  cases hs'
  exact ⟨h.b, h.seen, h.flag⟩

/-- A read that finds the outcome of its own pipe's last header check shows what
it shows without the other pipe. -/
theorem Alike.readB {s t s' : TwoPipes} (h : Alike s t) {size clear : UInt32}
    {p : CallerBuffer size} (hown : OwnFlag s (.readB size clear p))
    (hstep : step s (.readB size clear p) = some s') :
    ∃ t', step t (.readB size clear p) = some t' ∧ Alike s' t' := by
  obtain ⟨a, b, flag, checked, seen⟩ := s
  obtain ⟨a', b', flag', checked', seen'⟩ := t
  obtain ⟨(rfl : b = b'), (rfl : seen = seen'), (rfl : flag' = checked)⟩ := h
  obtain ⟨r, hread, hs'⟩ := Option.bind_eq_some_iff.mp hstep
  cases hs'
  rcases b.read_cases size clear p with ⟨hrefused, hcall⟩ | ⟨-, -, hcall⟩ |
    ⟨hopen, p', hcopy, hcall⟩
  · rw [hcall] at hread
    cases hread
    have hno : ¬ b.Checks size clear := fun hc ↦ hc.1 hrefused
    exact ⟨_, step_readB (hcall flag'), rfl, rfl, (if_neg hno).symm⟩
  · rw [hcall] at hread
    cases hread
  · rw [hcall] at hread
    cases hread
    have hsame : (ChecksHeader size clear ∧ headSignature p' = some habHeadSignature) ∨
        (flag = 0 ↔ flag' = 0) := by
      by_cases hgood : ChecksHeader size clear ∧ headSignature p' = some habHeadSignature
      · exact Or.inl hgood
      · refine Or.inr (hown ⟨hopen, fun hc ↦ hgood ⟨hc.1, ?_⟩⟩)
        rw [← hc.2]
        exact (congrArg (Option.bind · headSignature) hcopy).symm
    obtain ⟨hresult, hside⟩ := @afterCopy_congr b.ep b.shBuf b.bufSize size clear p' _ _ hsame
    refine ⟨_, step_readB (hcall flag'), hside, ?_, ?_⟩
    · show seen ++ [_] = seen ++ [_]
      rw [hresult]
    · show (afterCopy _ _ _ p' size clear flag').signatureMismatch =
        if b.Checks size clear then (afterCopy _ _ _ p' size clear flag).signatureMismatch
        else flag'
      rw [signatureMismatch_afterCopy, signatureMismatch_afterCopy]
      by_cases hchecks : ChecksHeader size clear
      · have hyes : b.Checks size clear := ⟨hopen, hchecks⟩
        rw [if_pos hyes, mismatchAfter, mismatchAfter, if_pos hchecks, if_pos hchecks]
      · have hno : ¬ b.Checks size clear := fun hc ↦ hchecks hc.2
        rw [if_neg hno, mismatchAfter, if_neg hchecks]

/-- A read that depends on the flag and finds another pipe's outcome in it
shows something else. -/
theorem Alike.readB_ne {s t s' : TwoPipes} (h : Alike s t) {size clear : UInt32}
    {p : CallerBuffer size} (hown : ¬ OwnFlag s (.readB size clear p))
    (hstep : step s (.readB size clear p) = some s') :
    ∃ t' r r', step t (.readB size clear p) = some t' ∧ s'.seen = s.seen ++ [r] ∧
      t'.seen = t.seen ++ [r'] ∧ r ≠ r' := by
  obtain ⟨a, b, flag, checked, seen⟩ := s
  obtain ⟨a', b', flag', checked', seen'⟩ := t
  obtain ⟨(rfl : b = b'), (rfl : seen = seen'), (rfl : flag' = checked)⟩ := h
  obtain ⟨(hconsults : b.Consults size clear p), (hflag : ¬ (flag = 0 ↔ flag' = 0))⟩ :=
    Classical.not_imp.mp hown
  obtain ⟨r, hread, hs'⟩ := Option.bind_eq_some_iff.mp hstep
  cases hs'
  rcases b.read_cases size clear p with ⟨hrefused, -⟩ | ⟨-, -, hcall⟩ | ⟨-, p', hcopy, hcall⟩
  · exact (hconsults.1 hrefused).elim
  · rw [hcall] at hread
    cases hread
  · rw [hcall] at hread
    cases hread
    have hbad : ¬ (ChecksHeader size clear ∧ headSignature p' = some habHeadSignature) := by
      have hno := hconsults.2
      rwa [hcopy] at hno
    refine ⟨_, _, _, step_readB (hcall flag'), rfl, rfl, ?_⟩
    show (afterCopy _ _ _ p' size clear flag).result ≠ (afterCopy _ _ _ p' size clear flag').result
    by_cases hclear : flag = 0
    · rw [hclear]
      exact afterCopy_ne hbad fun hc ↦ hflag (iff_of_true hclear hc)
    · have hset : flag' = 0 := by
        by_contra hc
        exact hflag (iff_of_false hclear hc)
      rw [hset]
      exact (afterCopy_ne hbad hclear).symm

theorem Alike.peerA {s t : TwoPipes} (h : Alike s t) (shBuf : HabSharedBuf) :
    ∃ t', step t (.peerA shBuf) = some t' ∧
      Alike { s with a := { s.a with shBuf := shBuf } } t' :=
  ⟨_, rfl, h.b, h.seen, h.flag⟩

theorem Alike.peerB {s t : TwoPipes} (h : Alike s t) (shBuf : HabSharedBuf) :
    ∃ t', step t (.peerB shBuf) = some t' ∧
      Alike { s with b := { s.b with shBuf := shBuf } } t' := by
  refine ⟨_, rfl, ?_, h.seen, h.flag⟩
  show { s.b with shBuf := shBuf } = { t.b with shBuf := shBuf }
  rw [h.b]

theorem seen_prefix_of_step {s t : TwoPipes} {e : PipesEvent} (h : step s e = some t) :
    s.seen <+: t.seen := by
  cases e with
  | readA size clear p =>
      obtain ⟨r, -, ht⟩ := Option.bind_eq_some_iff.mp h
      cases ht
      exact List.prefix_refl _
  | readB size clear p =>
      obtain ⟨r, -, ht⟩ := Option.bind_eq_some_iff.mp h
      cases ht
      exact List.prefix_append _ _
  | peerA shBuf =>
      cases h
      exact List.prefix_refl _
  | peerB shBuf =>
      cases h
      exact List.prefix_refl _

theorem seen_prefix_of_exec {s t : TwoPipes} {es : List PipesEvent}
    (h : exec step s es = some t) : s.seen <+: t.seen := by
  apply invariant_of_exec (I := fun u ↦ s.seen <+: u.seen) _ (List.prefix_refl _) h
  exact fun u e v hu hstep ↦ hu.trans (seen_prefix_of_step hstep)

theorem Alike.iff_meets {s t s' : TwoPipes} (h : Alike s t) {es : List PipesEvent}
    (hrun : exec step s es = some s') :
    (∃ t', exec step t (es.filter PipesEvent.kept) = some t' ∧ t'.seen = s'.seen) ↔
      Meets step OwnFlag s es := by
  induction es generalizing s t with
  | nil =>
      cases hrun
      exact iff_of_true ⟨t, rfl, h.seen.symm⟩ trivial
  | cons e es ih =>
      obtain ⟨u, hu, hrest⟩ := exec_cons_eq_some.mp hrun
      rw [meets_cons hu]
      cases e with
      | readA size clear p =>
          rw [List.filter_cons_of_neg Bool.false_ne_true, ih (h.readA hu) hrest]
          exact (and_iff_right trivial).symm
      | readB size clear p =>
          rw [List.filter_cons_of_pos rfl]
          by_cases hown : OwnFlag s (.readB size clear p)
          · obtain ⟨t', ht', hnext⟩ := h.readB hown hu
            rw [exec_cons ht', ih hnext hrest, and_iff_right hown]
          · obtain ⟨t', r, r', ht', hr, hr', hne⟩ := h.readB_ne hown hu
            rw [exec_cons ht']
            refine iff_of_false ?_ fun hc ↦ hown hc.1
            rintro ⟨t'', hrun', hseen⟩
            have hfull := seen_prefix_of_exec hrest
            have hkept := seen_prefix_of_exec hrun'
            rw [hr] at hfull
            rw [hr', hseen, ← h.seen] at hkept
            have heq := List.prefix_of_prefix_length_le hfull hkept (by simp)
            rw [List.prefix_append_right_inj] at heq
            exact hne (List.cons_prefix_cons.mp heq).1
      | peerA shBuf =>
          cases hu
          obtain ⟨t', ht', hnext⟩ := h.peerA shBuf
          rw [List.filter_cons_of_pos rfl, exec_cons ht', ih hnext hrest]
          exact (and_iff_right trivial).symm
      | peerB shBuf =>
          cases hu
          obtain ⟨t', ht', hnext⟩ := h.peerB shBuf
          rw [List.filter_cons_of_pos rfl, exec_cons ht', ih hnext hrest]
          exact (and_iff_right trivial).symm

/-- Two pipes do not influence each other in a run exactly as long as every
read on the second that depends on the sticky flag finds in it the outcome of
the last header check on that same pipe. -/
theorem reads_alike_iff (a b : ReadSide) (es : List PipesEvent) (s : TwoPipes)
    (hrun : exec step (start a b) es = some s) :
    (∃ t, exec step (start a b) (es.filter PipesEvent.kept) = some t ∧ t.seen = s.seen) ↔
      Meets step OwnFlag (start a b) es :=
  Alike.iff_meets ⟨rfl, rfl, rfl⟩ hrun

/-- A ring of twenty zero bytes with a header's worth of them available. -/
def zeroRing : ReadSide := ⟨⟨⟨0, 0⟩, ⟨0⟩⟩, ⟨0, 20, 20, List.replicate 20 0⟩, 20⟩

/-- A ring of zero bytes from which one byte was read, or skipped. -/
def zeroRingOne : ReadSide := ⟨⟨⟨0, 0⟩, ⟨1⟩⟩, ⟨1, 20, 20, List.replicate 20 0⟩, 20⟩

/-- The header read uses up its retries, which copy the same bytes again. -/
theorem step_headerA :
    step (start zeroRing zeroRing) (.readA 20 1 ⟨List.replicate 20 0, Nat.le_refl 20⟩) =
      some ⟨zeroRingOne, zeroRing, 1, 0, []⟩ := by
  have hopen : ¬ ReadRefused zeroRing.ep zeroRing.shBuf zeroRing.bufSize 20 := by decide
  have hcopy : copyRing zeroRing.shBuf.data (List.replicate 20 0) zeroRing.bufSize
      zeroRing.ep.rxInfo.index (toRead zeroRing.shBuf 20) = some (List.replicate 20 0) := by
    decide +kernel
  have hread : zeroRing.read 20 1 ⟨List.replicate 20 0, Nat.le_refl 20⟩ 0 =
      some (afterCopy zeroRing.ep zeroRing.shBuf zeroRing.bufSize (List.replicate 20 0) 20 1 0) :=
    habPipeRead_of_copyRing hopen (by decide) hcopy 1 0
  rw [step, start, hread]
  decide +kernel

theorem exec_headerA_byteB :
    exec step (start zeroRing zeroRing)
      [.readA 20 1 ⟨List.replicate 20 0, Nat.le_refl 20⟩, .readB 1 0 ⟨[0], Nat.le_refl 1⟩] =
        some ⟨zeroRingOne, zeroRingOne, 1, 0, [⟨0xFFFFFFFE, [0], 1, 1⟩]⟩ := by
  rw [exec_cons step_headerA]
  decide +kernel

theorem exec_byteB :
    exec step (start zeroRing zeroRing) [.readB 1 0 ⟨[0], Nat.le_refl 1⟩] =
        some ⟨zeroRing, zeroRingOne, 0, 0, [⟨1, [0], 1, 1⟩]⟩ := by
  decide +kernel

/-- A ring that holds a header with the signature. -/
def headerRing : ReadSide :=
  ⟨⟨⟨0, 0⟩, ⟨0⟩⟩,
    ⟨0, 20, 20, List.replicate 12 0 ++ [0xE1, 0xBE, 0xE1, 0xBE, 0, 0, 0, 0]⟩, 20⟩

theorem exec_goodHeaderA_byteB :
    (exec step (start headerRing zeroRing)
      [.readA 20 1 ⟨List.replicate 20 0, Nat.le_refl 20⟩, .readB 1 0 ⟨[0], Nat.le_refl 1⟩]).map
        (fun s ↦ (s.a.shBuf.rdCount, s.signatureMismatch, s.seen)) =
      some (20, 0, [⟨1, [0], 1, 1⟩]) := by
  decide +kernel

/-- A good header is read on the first pipe and then a byte on the second. -/
theorem reads_alike_iff_goodHeader :
    ∃ s : TwoPipes, s.seen = [⟨1, [0], 1, 1⟩] ∧
      ((∃ t, exec step (start headerRing zeroRing) [.readB 1 0 ⟨[0], Nat.le_refl 1⟩] = some t ∧
        t.seen = s.seen) ↔
        Meets step OwnFlag (start headerRing zeroRing)
          [.readA 20 1 ⟨List.replicate 20 0, Nat.le_refl 20⟩,
            .readB 1 0 ⟨[0], Nat.le_refl 1⟩]) := by
  obtain ⟨s, hrun, hs⟩ := Option.map_eq_some_iff.mp exec_goodHeaderA_byteB
  refine ⟨s, congrArg (·.2.2) hs, ?_⟩
  exact reads_alike_iff headerRing zeroRing
    [.readA 20 1 ⟨List.replicate 20 0, Nat.le_refl 20⟩, .readB 1 0 ⟨[0], Nat.le_refl 1⟩] s hrun

/-- A corrupt header on the first pipe changes what a payload read on the second
returns. -/
theorem reads_not_alike :
    ¬ ∀ (a b : ReadSide) (es : List PipesEvent) (s : TwoPipes),
      exec step (start a b) es = some s →
        ∃ t, exec step (start a b) (es.filter PipesEvent.kept) = some t ∧ t.seen = s.seen := by
  intro h
  have hlater := h _ _ _ _ exec_headerA_byteB
  rw [List.filter_cons_of_neg Bool.false_ne_true, List.filter_cons_of_pos rfl,
    List.filter_nil, exec_byteB] at hlater
  obtain ⟨t, ht, hseen⟩ := hlater
  rw [← Option.some.inj ht] at hseen
  exact absurd hseen (by decide)

end TwoPipes

end Hab
