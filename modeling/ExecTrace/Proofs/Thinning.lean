import ExecTrace.Proofs.Erasure
import ExecTrace.Proofs.Preservation

/-
  Options only erase events. A source program is told twice, once
  with the events that some options ask for and once without
  them: the same events remain, as long as values have the types
  of their expressions and primitives are captured as primitives.
  So two instrumented programs that differ in such options leave
  the same events behind the same calls.

  Main declarations:
    * `Observer.vigilant` and `Splice.vigilant`
    * `Bond.thinned`
    * `retellers_thinned`
    * `options_erase_events`
-/

namespace ExecTrace

open Run
open Teller (Retellers Ahead Even Held Kept)
open Instrument (Options)

------------------------------------------------------------
-- Vigilant Observers
------------------------------------------------------------

/- Why a run stops before a primitive is taken for a reference. -/
def misfit : String := "misfit"

/-
  The observer that stops a run at an expression whose value is
  not one of its type, and before a primitive is captured as a
  reference.
-/
def Observer.vigilant : Observer
  | .value e v, _ => if Val.fits e.ty v then none else some untyped
  | .captured kind v, _ =>
    if isMisfit kind v then some misfit else none
  | _, _ => none

/- How a program is compared when its values are watched. -/
def Splice.vigilant
    (o : Options)
    (exclusions : List Pattern) : Splice :=
  ⟨o, exclusions, .vigilant, fun _ => true⟩

/- Options that ask for no events. -/
def Instrument.Options.bare (o : Options) : Options :=
  { o with recordReads := false, recordOperators := false }

/- What excuses a run of the instrumented program. -/
def Slack.watched : Slack :=
  { misses := fun why => why == ExecTrace.untyped
    behind := true }

section Vigilant

variable {e : Expr}
variable {v : Val}

/- The value of an expression is watched. -/
theorem watch_vigilant
    (e : Expr)
    (v : Val)
    (m : Machine) :
    Val.fits e.ty v = true ∧
        watch Observer.vigilant (.value e v) m = (.ok (), m) ∨
      watch Observer.vigilant (.value e v) m
        = (.error (.stopped untyped), m) := by
  unfold watch
  simp only [Observer.vigilant]
  cases Val.fits e.ty v with
  | true => exact .inl ⟨rfl, rfl⟩
  | false => exact .inr rfl

/- A vigilant observer follows itself. -/
theorem Observer.follows_vigilant :
    Observer.vigilant.Follows Slack.watched Observer.vigilant where
  coarse :=
    { loaded := fun _ _ _ => rfl
      locals := fun x m l => by cases x <;> rfl
      ended := fun _ _ _ _ => rfl }
  misses := fun x m why hValue hWhy => by
    cases x with
    | value e v =>
      simp only [Observer.vigilant] at hWhy
      split at hWhy <;> cases hWhy
      rfl
    | loaded e v => cases hWhy
    | _ => cases hValue
  others := fun _ _ _ => rfl
  admits := fun e e' v m hTy ⟨k, hNone⟩ => by
    simp only [Observer.vigilant, hTy] at hNone ⊢
    exact hNone
  void := fun e v m hTy => by
    simp only [Observer.vigilant, hTy]
    cases v <;> rfl

/- A vigilant observer is wary. -/
theorem Observer.wary_vigilant : Observer.vigilant.Wary where
  misfits := fun kind v m h => by
    simp [Observer.vigilant, h]
  uniform := fun _ _ _ _ => rfl

/- Vigilant runs tell every action, and look at no recorder. -/
theorem Splice.plain_vigilant
    (o : Options)
    (exclusions : List Pattern) :
    (Splice.vigilant o exclusions).Plain where
  sound := fun _ => rfl
  recorded := fun _ => rfl
  wary := Observer.wary_vigilant

end Vigilant

------------------------------------------------------------
-- Thinned Machines
------------------------------------------------------------

/- The same frames, and recorders of which the same remains. -/
def Joint.thinned : Joint :=
  fun a b => b.1 = a.1 ∧
    ∃ r t, a.2 = some r ∧ b.2 = some t ∧ r.Thinned t

/- The same remains of two recorders all the time. -/
def Bond.thinned : Bond where
  Ghost := Unit
  rets := fun _ => True
  holds := fun _ => .thinned
  ended := fun _ _ => .thinned
  done := fun _ => .thinned
  lost := fun _ => .thinned
  push := fun _ g => g
  doneOfHolds := fun _ _ _ h => h
  lostOfHolds := fun _ _ _ h => h
  lostOfEnded := fun _ _ _ _ h => h
  pushed := fun _ _ _ _ _ h =>
    ⟨congrArg (_ :: ·) h.1, h.2⟩
  popped := fun _ _ _ _ h => ⟨congrArg List.tail h.1, h.2⟩
  poppedLost := fun _ _ _ _ h => ⟨congrArg List.tail h.1, h.2⟩
  length := fun _ _ _ h => congrArg List.length h.1.symm

/-
  What excuses a run that tells more: stops, panics and the lack
  of fuel.
-/
def Slack.ahead : Slack :=
  { stops := fun _ => true
    breaks := fun _ => true
    short := true }

/- A first run that tells more is excused for every hard cut. -/
theorem Slack.first_ahead
    {c : Interrupt}
    (h : ∀ m k, hard c m k) : Slack.ahead.first c = true := by
  have hCut := h {} {}
  cases c with
  | throw v => exact absurd rfl (hCut.1 v)
  | fault cause => exact absurd rfl (hCut.2 cause)
  | _ => rfl

/- An optional action is captured as an optional one. -/
theorem isOptional_of_captured
    {α : Type}
    {f : α → Run Snapshot}
    {a : Action Unit α}
    {b : Action Unit Snapshot}
    {m k : Machine}
    (h : a.mapM f m = (.ok b, k))
    (hOptional : a.isOptional = true) : b.isOptional = true := by
  cases a with
  | operation o =>
    rcases bind_returned h with ⟨o', _, ho, h⟩
    cases h
    cases o with
    | read place v =>
      rcases bind_returned ho with ⟨_, _, _, ho⟩
      rcases bind_returned ho with ⟨_, _, _, ho⟩
      cases ho
      rfl
    | unary operator operand result =>
      rcases bind_returned ho with ⟨_, _, _, ho⟩
      rcases bind_returned ho with ⟨_, _, _, ho⟩
      cases ho
      rfl
    | _ => cases hOptional
  | binary operator lhs rhs result =>
    rcases bind_returned h with ⟨_, _, _, h⟩
    rcases bind_returned h with ⟨_, _, _, h⟩
    rcases bind_returned h with ⟨_, _, _, h⟩
    cases h
    rfl
  | _ => cases hOptional

section Telling

variable {o : Options}
variable {exclusions : List Pattern}
variable {p : Program}
variable {i j : Invoker}
variable {n k : Nat}
variable {s : Shape}
variable {span : Span}
variable {m m' : Machine}
variable {act act' : Machine → Action Unit Shown}

/- Thinned machines have the same frames. -/
theorem Linked.thinned_frames
    (hm : Linked .thinned s m m') : m'.frames = m.frames :=
  hm.world.joint.1

/- Recorders of thinned machines are exchanged. -/
theorem Linked.thinned_record
    (hm : Linked .thinned s m m')
    {r t : Recorder}
    (h : r.Thinned t) :
    Linked .thinned s { m with recorder := some r }
      { m' with recorder := some t } :=
  hm.onJoint (K := .thinned) ⟨hm.thinned_frames, r, t, rfl, rfl, h⟩

/- Both runs tell an action. -/
theorem sim_tell_thinned
    (hp : p.isTextless = true)
    (hPaced : Paced Slack.ahead n k)
    (hSame : ∀ m m', Linked .thinned s m m' → act' m' = act m) :
    Sim Slack.ahead (Linked .thinned s)
      (fun _ _ m m' => Linked .thinned s m m') hard
      ((Splice.vigilant o exclusions).teller.tell p i n span act)
      ((Splice.vigilant o.bare exclusions).teller.tell p j k span
        act') := by
  intro m m' hm
  rcases hm.world.joint with ⟨_, r, t, hr, ht, hThinned⟩
  rw [(Splice.plain_vigilant o exclusions).tell_noting hp hr
      hThinned.running,
    (Splice.plain_vigilant o.bare exclusions).tell_noting hp ht
      hThinned.running', hSame m m' hm, hm.world.heap]
  have hLess : n ≤ k := by
    rcases hPaced with h | h | h
    · exact Nat.le_of_eq h
    · exact h.2
    · cases h.1
  have hCaptured :
      (Splice.vigilant o exclusions).captured p n m.heap (act m)
        = .error .outOfFuel ∨
      (Splice.vigilant o.bare exclusions).captured p k m.heap
          (act m)
        = (Splice.vigilant o exclusions).captured p n m.heap
          (act m) :=
    (Splice.plain_vigilant o exclusions).captured_mono hp hLess
      m.heap (act m)
  generalize hRun :
    (Splice.vigilant o exclusions).captured p n m.heap (act m)
      = captured at hCaptured
  rcases hCaptured with rfl | hCaptured
  · exact .first rfl
  rw [hCaptured]
  cases captured with
  | error c => exact .first (Slack.first_ahead (Splice.hard_captured hRun))
  | ok a =>
    simp only [noting]
    cases hCommit : r.commit a span with
    | error why => exact .first rfl
    | ok r' =>
      rcases hThinned.both hCommit with ⟨t', hCommit', hAfter⟩
      simp only [hCommit']
      exact .ok (hm.thinned_record hAfter)

/- The first run alone tells an optional action. -/
theorem sim_tell_alone
    (hp : p.isTextless = true)
    (hOptional : ∀ m, (act m).isOptional = true) :
    Sim Slack.ahead (Linked .thinned s)
      (fun _ _ m m' => Linked .thinned s m m') hard
      ((Splice.vigilant o exclusions).teller.tell p i n span act)
      (pure ()) := by
  intro m m' hm
  rcases hm.world.joint with ⟨hFrames, r, t, hr, ht, hThinned⟩
  rw [(Splice.plain_vigilant o exclusions).tell_noting hp hr
    hThinned.running]
  cases hRun :
      (Splice.vigilant o exclusions).captured p n m.heap (act m) with
  | error c => exact .first (Slack.first_ahead (Splice.hard_captured hRun))
  | ok a =>
    simp only [noting]
    cases hCommit : r.commit a span with
    | error why => exact .first rfl
    | ok r' =>
      have hCaptured : ((Splice.vigilant o exclusions).captures p
          .spent n (act m) { heap := m.heap }) = (.ok a, _) :=
        Prod.ext hRun rfl
      have hAfter := hThinned.alone
        (isOptional_of_captured hCaptured (hOptional m)) hCommit
      refine .ok ?_
      have hSame : m' = { m' with recorder := some t } := by
        rw [← ht]
      rw [hSame]
      exact hm.thinned_record hAfter

/- Both runs look at a value. -/
theorem sim_watch_vigilant
    (e : Expr)
    (v : Val) :
    Sim Slack.ahead (Linked .thinned s)
      (fun _ _ m m' => Val.fits e.ty v = true ∧
        Linked .thinned s m m') hard
      (watch Observer.vigilant (.value e v))
      (watch Observer.vigilant (.value e v)) := by
  intro m m' hm
  rcases watch_vigilant e v m with ⟨hFits, hWatch⟩ | hStop
  · rcases watch_vigilant e v m' with ⟨_, hWatch'⟩ | hStop'
    · rw [hWatch, hWatch']
      exact .ok ⟨hFits, hm⟩
    · simp only [watch, Observer.vigilant, hFits, if_true]
        at hStop'
      cases hStop'
  · rw [hStop]
    exact .first rfl

/- The first run alone looks at a value. -/
theorem sim_watch_alone
    (e : Expr)
    (v : Val) :
    Sim Slack.ahead (Linked .thinned s)
      (fun _ _ m m' => Val.fits e.ty v = true ∧
        Linked .thinned s m m') hard
      (watch Observer.vigilant (.value e v)) (pure ()) := by
  intro m m' hm
  rcases watch_vigilant e v m with ⟨hFits, hWatch⟩ | hStop
  · rw [hWatch]
    exact .ok ⟨hFits, hm⟩
  · rw [hStop]
    exact .first rfl

/- A frame of thinned machines is marked. -/
theorem sim_mark_thinned :
    Sim Slack.ahead (Linked .thinned s)
      (fun _ _ m m' => Linked .thinned s m m') hard
      markInstrumented markInstrumented := by
  intro m m' hm
  have hJoint := hm.world.joint
  unfold markInstrumented
  rw [modify_apply, modify_apply, hm.thinned_frames]
  cases hFrames : m.frames with
  | nil => exact .ok hm
  | cons f rest =>
    refine .ok (hm.onJoint (K := .thinned) ⟨rfl, hJoint.2⟩)

/- A value that fits is held as it is. -/
theorem held_of_fits
    {T U : Teller}
    {ty : Ty}
    {v : Val}
    (hSame : T.spliced = U.spliced)
    (hFits : Val.fits ty v = true) : Held T U ty v where
  kept := Teller.Retold.keep_eq hSame ty v
  alone := fun _ => by
    unfold Teller.keep
    rw [v.convert_of_fits ty hFits, ite_self]

/- One program, told with and without reads and operators. -/
theorem retellers_thinned
    (o : Options)
    (exclusions : List Pattern)
    (hp : p.isTextless = true)
    (hPasses : p.passes Test.source = true) :
    Retellers Slack.ahead Bond.thinned (fun _ _ g => g)
      (fun _ g => g) p (Splice.vigilant o exclusions).teller
      (Splice.vigilant o.bare exclusions).teller Test.source where
  ahead := fun _ n i i' _ =>
    { reads := rfl
      operators := rfl
      tell := fun span act hOptional g s _ =>
        (sim_tell_alone hp hOptional).weaken (fun _ _ hm => hm)
          (fun _ _ _ _ hm => ⟨rfl, trivial, hm⟩)
          fun _ _ _ hm => Bond.thinned.cut_hard hm
      look := fun e v g s _ =>
        (sim_watch_alone e v).weaken (fun _ _ hm => hm)
          (fun _ _ _ _ hm =>
            ⟨rfl, v.convert_of_fits e.ty hm.1, hm.2⟩)
          fun _ _ _ hm => Bond.thinned.cut_hard hm }
  leavesOut := rfl
  rets := fun _ => trivial
  passes := hPasses
  sourceExpr := fun _ he => he
  sourceStmt := fun _ hs => hs
  compounds := .inl rfl
  lostCalled := fun _ _ _ _ _ h => h
  lostInto := fun _ _ _ _ h => h
  endedInto := fun _ _ _ _ h => h
  stuck := fun _ _ _ _ _ _ _ hw => .inr hw.joint
  tell := fun n k i i' hPaced _ span act act' _ hSame g s hs =>
    (sim_tell_thinned hp hPaced fun m m' hm =>
      (hSame g s hs m m' hm).same (.inl rfl)).weaken
      (fun _ _ hm => hm) (fun _ _ _ _ hm => ⟨rfl, trivial, hm⟩)
      fun _ _ _ hm => Bond.thinned.cut_hard hm
  tellCall := fun n k i i' hPaced _ span callee receiver args g s =>
    sim_tell_thinned hp hPaced fun _ _ _ => rfl
  tellResume := fun n k i i' hPaced _ span cls method how how' g s
      hSame => by
    rw [hSame rfl]
    exact sim_tell_thinned hp hPaced fun _ _ _ => rfl
  tellLeave := fun n k r r' hPaced _ span method how g s =>
    sim_tell_thinned hp hPaced fun _ _ _ => rfl
  entering := fun n k r r' hPaced _ c d g s => by
    refine sim_mark_thinned.bind fun _ _ => ?_
    have hTell : Sim Slack.ahead (Linked .thinned s)
        (fun _ _ m m' => Linked .thinned s m m') hard
        ((Splice.vigilant o exclusions).teller.tell p r.invoke n
          d.span fun m => .enter ⟨c.name, d.name, d.signature⟩
            (enclosingFrames m.frames))
        ((Splice.vigilant o.bare exclusions).teller.tell p
          r'.invoke k d.span fun m =>
            .enter ⟨c.name, d.name, d.signature⟩
              (enclosingFrames m.frames)) := by
      refine sim_tell_thinned hp hPaced fun m m' hm => ?_
      rw [hm.thinned_frames]
    exact hTell.bind fun _ _ => Sim.pure fun _ _ hm => hm
  loaded := fun e v => Yields.pure trivial
  lookBack := fun e v g s _ =>
    (sim_watch_vigilant e v).weaken (fun _ _ hm => hm)
      (fun _ _ _ _ hm => ⟨rfl, rfl, hm.2⟩)
      fun _ _ _ hm => Bond.thinned.cut_hard hm
  look := fun e v g s _ =>
    (sim_watch_vigilant e v).weaken (fun _ _ hm => hm)
      (fun _ _ _ _ hm => ⟨rfl, trivial, hm.2⟩)
      fun _ _ _ hm => Bond.thinned.cut_hard hm
  value := fun e a b hResult g s _ => by
    have hSame : a = b := by
      rcases hResult with hSame | ⟨v, rfl, rfl⟩
      · exact hSame
      · rfl
    subst hSame
    exact (sim_watch_vigilant e a).weaken (fun _ _ hm => hm)
      (fun _ _ _ _ hm => ⟨rfl, ⟨rfl, held_of_fits rfl hm.1⟩, hm.2⟩)
      fun _ _ _ hm => Bond.thinned.cut_hard hm
  ended := fun _ _ _ _ _ _ => .inl ⟨rfl, rfl⟩

end Telling

------------------------------------------------------------
-- Calls from the Host
------------------------------------------------------------

section Calls

variable {o o₁ o₂ : Options}
variable {exclusions : List Pattern}
variable {p q q₁ q₂ : Program}
variable {m m' : Machine}

/- A new recorder is a thinned one of any new recorder. -/
theorem Recorder.thinned_create
    (echo echo' : Bool)
    (time time' : Timestamp) :
    (create echo time).Thinned (create echo' time') where
  running := rfl
  running' := rfl
  numbered := numbered_create echo time
  numbered' := numbered_create echo' time'
  room := Nat.le_refl _
  reduced := rfl
  marks := rfl

/- Calls that are told with and without reads and operators. -/
theorem hosted_thinned
    (o : Options)
    (exclusions : List Pattern)
    (hSource : p.passes Test.source = true)
    (hp : p.isTextless = true)
    (fuel : Nat)
    (c : HostCall) :
    Sim Slack.ahead (World .thinned {})
      (fun a b m n => a = b ∧ World .thinned {} m n)
      (Bond.thinned.cut () fun J => World J {})
      (Call.hosted p
        ((Splice.vigilant o exclusions).teller.invoke p fuel) c)
      (Call.hosted p
        ((Splice.vigilant o.bare exclusions).teller.invoke p fuel)
        c) :=
  (retellers_thinned o exclusions hp hSource).hosted (.inl rfl) c ()

/-
  A call of an instrumented program that ends leaves the same
  behind as the call that is told without reads and operators,
  and both complete or none.
-/
theorem request_thinned
    (hSource : p.passes Test.source = true)
    (hp : p.isTextless = true)
    (hPaired : Paired (splicedPairing o exclusions) p q)
    {fuel most : Nat}
    (hFuel : fuel ≤ most)
    {c : HostCall}
    {r : Except Interrupt Val}
    (hRun : Machine.request .vigilant q fuel c.cls c.method c.args m
      = (r, m'))
    (hEnd : Settles r)
    {t t' : Machine}
    {e : Except Interrupt Val}
    (hThinned : World .thinned {} m t)
    (hRun' : Call.hosted p
        ((Splice.vigilant o.bare exclusions).teller.invoke p most)
        c t
      = (e, t')) :
    (Completes r ↔ Completes e) ∧ World .thinned {} m' t' := by
  have hSpliced := hosted_spliced (X := .vigilant o exclusions)
    Observer.follows_vigilant (Splice.fair_of_sound fun _ => rfl)
    hPaired ⟨rfl, rfl⟩ rfl (.inr ⟨rfl, hFuel⟩) c m m
    (World.level_self m)
  have hTold := hosted_thinned o exclusions hSource hp most c m t
    hThinned
  rw [Machine.request_eq_hosted] at hRun
  rw [hRun] at hSpliced
  rw [hRun'] at hTold
  generalize Call.hosted p
    ((Splice.vigilant o exclusions).teller.invoke p most) c m = x
    at hSpliced hTold
  rcases hSpliced.settled (K := World Joint.level {}) (.inr hEnd)
    (fun c _ => by cases c <;> rfl)
    (fun d hd => by subst hd; cases d <;> first | rfl | cases hEnd)
    (fun _ _ _ _ h => h.2) (fun _ _ _ h => h) (fun _ _ _ h => h)
    with ⟨hTelling, _, hSame, hLevel⟩
  rcases hTold.settled (K := World .thinned {}) (.inl hTelling)
    (fun c hc => by
      rw [hc] at hTelling
      cases c <;> first | rfl | cases hTelling)
    (fun d _ => by cases d <;> rfl)
    (fun _ _ _ _ h => h.2) (fun _ _ _ h => h) (fun _ _ _ h => h)
    with ⟨_, _, hSame', hAfter⟩
  refine ⟨hSame.symm.trans hSame', ?_⟩
  -- The recorder of the call is the one of the telling run.
  rw [hLevel.eq_of_level]
  exact hAfter.locals _ _

/- Thinned machines have recorded the same, but for options. -/
theorem World.reduced_of_thinned
    {since : Heap}
    {t : Machine}
    (hm : World .thinned since m t) :
    ∃ r s, m.recorder = some r ∧ t.recorder = some s ∧
      s.reduced = r.reduced := by
  rcases hm.joint with ⟨_, r, s, hr, hs, hThinned⟩
  exact ⟨r, s, hr, hs, hThinned.reduced⟩

/- Calls of two instrumented programs leave the same behind. -/
theorem serves_thinned
    (hSource : p.passes Test.source = true)
    (hp : p.isTextless = true)
    (hPaired₁ : Paired (splicedPairing o₁ exclusions) p q₁)
    (hPaired₂ : Paired (splicedPairing o₂ exclusions) p q₂)
    (hBare : o₂.bare = o₁.bare)
    {cs : List HostCall}
    {m₁ m₂ k₁ k₂ t : Machine}
    (hServes₁ : Machine.Serves .vigilant q₁ Settles m₁ cs k₁)
    (hServes₂ : Machine.Serves .vigilant q₂ Settles m₂ cs k₂)
    (hm₁ : World .thinned {} m₁ t)
    (hm₂ : World .thinned {} m₂ t) :
    ∃ t', World .thinned {} k₁ t' ∧ World .thinned {} k₂ t' := by
  induction cs generalizing m₁ m₂ t with
  | nil =>
    cases hServes₁
    cases hServes₂
    exact ⟨t, hm₁, hm₂⟩
  | cons c cs ih =>
    rcases hServes₁ with _ | ⟨fuel₁, hRun₁, hEnd₁, hServes₁⟩
    rcases hServes₂ with _ | ⟨fuel₂, hRun₂, hEnd₂, hServes₂⟩
    -- Both are compared with one run that has fuel for both.
    have hAfter₁ := request_thinned hSource hp hPaired₁
      (Nat.le_max_left fuel₁ fuel₂) hRun₁ hEnd₁ hm₁ rfl
    have hAfter₂ := request_thinned hSource hp hPaired₂
      (Nat.le_max_right fuel₁ fuel₂) hRun₂ hEnd₂ hm₂ rfl
    rw [hBare] at hAfter₂
    exact ih hServes₁ hServes₂ hAfter₁.2 hAfter₂.2

/-
  Options only erase events. If a source program, in which no
  object has a text of its own, is instrumented twice with the
  same excluded classes, then the same calls leave the same events
  behind, apart from reads and operators and with places for
  numbers. This holds of all calls that settle, as long as values
  have the types of their expressions and no primitive is
  captured as a reference.
-/
theorem options_erase_events
    (hSource : p.passes Test.source = true)
    (hTextless : p.isTextless = true)
    (hExcluded : o₂.excludeClasses = o₁.excludeClasses)
    (hInstrument₁ : instrument o₁ p = .ok q₁)
    (hInstrument₂ : instrument o₂ p = .ok q₂)
    {maxDepth : Nat}
    {echo₁ echo₂ : Bool}
    {time₁ time₂ : Timestamp}
    {cs : List HostCall}
    {m₁ m₂ : Machine}
    (hServes₁ : Machine.Serves .vigilant q₁ Settles
      (.recorded maxDepth echo₁ time₁) cs m₁)
    (hServes₂ : Machine.Serves .vigilant q₂ Settles
      (.recorded maxDepth echo₂ time₂) cs m₂) :
    ∃ r₁ r₂, m₁.recorder = some r₁ ∧ m₂.recorder = some r₂ ∧
      r₁.reduced = r₂.reduced := by
  rcases Instrument.exclusions_of_ok hInstrument₁ with
    ⟨exclusions, hExclusions₁⟩
  have hBare : o₂.bare = o₁.bare := by
    simp only [Instrument.Options.bare, hExcluded]
  have hExclusions₂ : o₂.exclusions? = .ok exclusions := by
    rw [← hExclusions₁]
    simp only [Instrument.Options.exclusions?, hExcluded]
  have hStart : ∀ echo time, World .thinned {}
      (.recorded maxDepth echo time)
      (.recorded maxDepth false time₁) := by
    intro echo time
    exact ⟨rfl, rfl, rfl, rfl, rfl,
      ⟨rfl, _, _, rfl, rfl, Recorder.thinned_create _ _ _ _⟩,
      (World.level_self _).grown⟩
  rcases serves_thinned hSource hTextless
    (paired_instrument hExclusions₁ hSource hInstrument₁)
    (paired_instrument hExclusions₂ hSource hInstrument₂) hBare
    hServes₁ hServes₂ (hStart echo₁ time₁) (hStart echo₂ time₂)
    with ⟨t, hm₁, hm₂⟩
  rcases hm₁.reduced_of_thinned with ⟨r₁, s₁, hr₁, hs₁, hSame₁⟩
  rcases hm₂.reduced_of_thinned with ⟨r₂, s₂, hr₂, hs₂, hSame₂⟩
  refine ⟨r₁, r₂, hr₁, hr₂, ?_⟩
  have hSame : s₂ = s₁ := Option.some.inj (hs₂.symm.trans hs₁)
  rw [← hSame₁, ← hSame₂, hSame]

end Calls

/- The instrumented sum settles, whatever the options are. -/
theorem settles_sum
    (reads operators : Bool)
    (q : Program)
    (hq : instrument
        { recordReads := reads, recordOperators := operators }
        sumProgram
      = .ok q) :
    Settles (Machine.request .vigilant q 32 "Main" "main" []
      (.recorded 64 false .epoch)).1 := by
  have hAll : ∀ reads operators : Bool,
      (instrument
        { recordReads := reads, recordOperators := operators }
        sumProgram).toOption.all (fun q => decide (Settles
          (Machine.request .vigilant q 32 "Main" "main" []
            (.recorded 64 false .epoch)).1)) = true := by
    decide +kernel
  have hOne := hAll reads operators
  rw [hq] at hOne
  exact of_decide_eq_true hOne

/- Without reads and operators the sum leaves the same events. -/
theorem options_erase_events_sum :
    ∃ q₁ q₂ m₁ m₂, instrument {} sumProgram = .ok q₁ ∧
      instrument { recordReads := false, recordOperators := false }
        sumProgram = .ok q₂ ∧
      Machine.Serves .vigilant q₁ Settles
        (.recorded 64 false .epoch) [⟨"Main", "main", []⟩] m₁ ∧
      Machine.Serves .vigilant q₂ Settles
        (.recorded 64 false .epoch) [⟨"Main", "main", []⟩] m₂ ∧
      ∃ r₁ r₂, m₁.recorder = some r₁ ∧ m₂.recorder = some r₂ ∧
        r₁.reduced = r₂.reduced := by
  have hInstrument₁ : ∃ q, instrument {} sumProgram = .ok q :=
    ⟨_, rfl⟩
  have hInstrument₂ : ∃ q, instrument
      { recordReads := false, recordOperators := false }
      sumProgram = .ok q := ⟨_, rfl⟩
  rcases hInstrument₁ with ⟨q₁, hq₁⟩
  rcases hInstrument₂ with ⟨q₂, hq₂⟩
  have hExcluded : Options.excludeClasses
        { recordReads := false, recordOperators := false }
      = Options.excludeClasses {} := rfl
  have hServes₁ := Machine.Serves.one ⟨"Main", "main", []⟩
    (settles_sum true true q₁ hq₁)
  have hServes₂ := Machine.Serves.one ⟨"Main", "main", []⟩
    (settles_sum false false q₂ hq₂)
  exact ⟨q₁, q₂, _, _, hq₁, hq₂, hServes₁, hServes₂,
    options_erase_events (by decide) (by decide) hExcluded hq₁ hq₂
      hServes₁ hServes₂⟩

end ExecTrace
