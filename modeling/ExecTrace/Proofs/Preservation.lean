import ExecTrace.Proofs.Congruence
import ExecTrace.Proofs.Splicing.Hosting

/-
  Instrumentation preserves what a program does. Without a
  recorder, the instrumented program and the source program end
  every call from a host in the same way and leave the same heap,
  static fields and output, as long as every expression of the
  plain run has a value of its type. The telling run lies between
  the two: it differs from the plain run in conversions that
  change no value of the right type, and from the run of the
  instrumented program in hidden variables.

  Main declarations:
    * `Observer.typed`
    * `Bond.unrecorded`
    * `retellers_unrecorded`
    * `Machine.calls`
    * `calls_instrument`
-/

namespace ExecTrace

open Run
open Teller (Retellers)
open Instrument (Options)

------------------------------------------------------------
-- Values of the Right Type
------------------------------------------------------------

/- Why a run stops at a value that is not one of its type. -/
def untyped : String := "untyped"

/-
  The observer that stops a run at an expression, or at a target
  that is changed, whose value is not one of its type.
-/
def Observer.typed : Observer
  | .value e v, _ => if Val.fits e.ty v then none else some untyped
  | .loaded target v, _ =>
    if Val.fits target.ty v then none else some untyped
  | _, _ => none

/- What excuses a comparison with a run of typed values. -/
def Slack.untyped : Slack :=
  { stops := fun why => why == ExecTrace.untyped
    panics := false
    halts := false }

/- Ends that are comparable without an excuse or a defect. -/
inductive Clean
    {α : Type}
    (post : α → α → Machine → Machine → Prop)
    (cut : Cut) : End α → End α → Prop where
  | ok
      {a b : α} {m n : Machine}
      (h : post a b m n) : Clean post cut (.ok a, m) (.ok b, n)
  | throw
      {v : Val} {m n : Machine}
      (hv : v ≠ .null)
      (h : cut (.throw v) m n) :
      Clean post cut (.error (.throw v), m) (.error (.throw v), n)
  | fault
      {c d : Fault} {m n : Machine}
      (h : cut (.fault c) m n) :
      Clean post cut (.error (.fault c), m) (.error (.fault d), n)
  | outOfFuel
      {m n : Machine} :
      Clean post cut (.error .outOfFuel, m) (.error .outOfFuel, n)

/- A run of typed values is compared without an excuse. -/
theorem Outcome.clean
    {α : Type}
    {post : α → α → Machine → Machine → Prop}
    {cut : Cut}
    {r t : End α}
    (h : Outcome Slack.untyped post cut r t)
    (hTyped : ∀ why, r.1 ≠ .error (.stopped why)) :
    Clean post cut r t := by
  cases h with
  | ok hPost => exact .ok hPost
  | alike hAlike hCut =>
    cases hAlike with
    | throw v hv => exact .throw hv hCut
    | fault c d => exact .fault hCut
    | outOfFuel => exact .outOfFuel
    | panic text hPanics => cases hPanics
    | stopped why hHalts => cases hHalts
    | answered why text hAnswers => cases hAnswers
  | @first c m t hFirst =>
    cases c with
    | stopped why => exact absurd rfl (hTyped why)
    | _ => cases hFirst
  | @second d n r hSecond => cases d <;> cases hSecond

------------------------------------------------------------
-- Machines without Recorders
------------------------------------------------------------

/- The class and the method of a frame. -/
def Frame.place (f : Frame) : String × String :=
  (f.cls, f.method)

/- The same frames, up to marks, and no recorders. -/
def Joint.unrecorded : Joint := fun a b =>
  b.1.map Frame.place = a.1.map Frame.place ∧ a.2 = none
    ∧ b.2 = none

/- Frames are the same up to marks, and nothing is recorded. -/
def Bond.unrecorded : Bond where
  Ghost := Unit
  rets := fun _ => True
  holds := fun _ => Joint.unrecorded
  ended := fun _ _ => Joint.unrecorded
  done := fun _ => Joint.unrecorded
  lost := fun _ => Joint.unrecorded
  push := fun _ g => g
  doneOfHolds := fun _ _ _ h => h
  lostOfHolds := fun _ _ _ h => h
  lostOfEnded := fun _ _ _ _ h => h
  pushed := fun _ _ _ _ _ ⟨hFrames, h⟩ =>
    ⟨by simp [hFrames], h⟩
  popped := fun _ _ _ _ ⟨hFrames, h⟩ =>
    ⟨by rw [List.map_tail, List.map_tail, hFrames], h⟩
  poppedLost := fun _ _ _ _ ⟨hFrames, h⟩ =>
    ⟨by rw [List.map_tail, List.map_tail, hFrames], h⟩
  length := fun _ a b ⟨hFrames, _⟩ => by
    have hLength := congrArg List.length hFrames
    simpa using hLength.symm

section Unrecorded

variable {p : Program}
variable {U : Teller}
variable {s : Shape}
variable {m n : Machine}

/- A teller that tells nothing to a machine without recorder. -/
def Teller.Idle (U : Teller) : Prop :=
  ∀ p i n span act m, m.recorder = none →
    U.tell p i n span act m = (.ok (), m)

/- The plain run of the same program, watched for its types. -/
def Teller.plain (U : Teller) : Teller :=
  { U.muted with observer := .typed }

/- A frame may be marked. -/
theorem Linked.mark
    (hm : Linked Joint.unrecorded s m n) :
    ∃ k, markInstrumented n = (.ok (), k) ∧
      Linked Joint.unrecorded s m k := by
  rcases n with ⟨heap, statics, frames, locals, nextId, output,
    recorder, maxDepth⟩
  cases frames with
  | nil => exact ⟨_, rfl, hm⟩
  | cons f rest =>
    exact ⟨_, rfl, hm.onJoint hm.world.joint⟩

/- A value of the right type is held in one way. -/
theorem Teller.kept_plain
    (ty : Ty)
    (v : Val)
    (hv : Val.fits ty v = true) : Teller.Kept U.plain U ty v := by
  change v = U.keep ty v
  unfold Teller.keep
  split
  · exact (Val.convert_of_fits ty v hv).symm
  · rfl

/- A value of the right type is held in one way. -/
theorem Teller.held_plain
    (ty : Ty)
    (v : Val)
    (hv : Val.fits ty v = true) : Teller.Held U.plain U ty v where
  kept := Teller.kept_plain ty v hv
  alone := fun _ => rfl

/- A silent observer does not look. -/
theorem Teller.look_silent
    (hSilent : U.observer = .silent)
    (e : Expr)
    (v : Val) : U.look e v = pure () := by
  unfold Teller.look
  rw [hSilent, watch_silent, ite_self]

/- A value of the right type is watched for its type. -/
theorem yields_typed
    {x : Moment}
    {ty : Ty}
    {v : Val}
    {P : Prop}
    (hx : ∀ m, Observer.typed x m
      = if Val.fits ty v then none else some ExecTrace.untyped)
    (hP : Val.fits ty v = true → P) :
    Yields Slack.untyped Bond.unrecorded (fun _ => P)
      (watch .typed x) (watch .silent x) := by
  intro g s _ m n hm
  unfold watch
  rw [hx]
  cases hv : Val.fits ty v with
  | true => exact .ok ⟨rfl, hP hv, hm⟩
  | false => exact .first rfl

/- An idle teller tells no end. -/
theorem Teller.Idle.leave_apply
    (hIdle : U.Idle)
    (hSilent : U.observer = .silent)
    (r : SiteRunner)
    (k : Nat)
    (span : Span)
    (method : String)
    (how : Exit Shown)
    (hn : n.recorder = none) :
    U.leave p r k span method how n = (.ok (), n) := by
  unfold Teller.leave
  split
  · rw [hSilent, watch_silent, pure_bind]
    exact hIdle _ _ _ _ _ _ hn
  · rfl

/- An idle teller marks frames and does nothing else. -/
theorem Teller.Idle.sim_entering
    (hIdle : U.Idle)
    (hSilent : U.observer = .silent)
    (r r' : SiteRunner)
    (l k : Nat)
    (c : ClassDef)
    (d : MethodDef) :
    Sim Slack.untyped (Linked Joint.unrecorded s)
      (fun _ _ m n => Linked Joint.unrecorded s m n) hard
      (U.plain.entering p r l c d) (U.entering p r' k c d) := by
  intro m n hm
  unfold Teller.entering
  split
  · rename_i hSpliced
    cases hSpliced
  · split
    · rcases hm.mark with ⟨n', hMark, hn⟩
      rw [bind_ok hMark, hSilent, watch_silent, bind_ok
        (hIdle _ _ _ _ _ _ hn.world.joint.2.2)]
      exact .ok hn
    · exact .ok hm

/- A plain run and a run that tells nothing go side by side. -/
theorem retellers_unrecorded
    (hIdle : U.Idle)
    (hSilent : U.observer = .silent)
    (hPasses : p.passes Test.plainSource = true) :
    Retellers Slack.untyped Bond.unrecorded (fun _ _ g => g)
      (fun _ g => g) p U.plain U Test.plainSource where
  ahead := fun hOdd => absurd ⟨rfl, rfl⟩ hOdd
  leavesOut := rfl
  rets := fun _ => trivial
  passes := hPasses
  sourceExpr := fun e he => by
    simp only [Test.plainSource, Bool.and_eq_true] at he
    exact he.1
  sourceStmt := fun _ hs => hs
  compounds := .inr ⟨rfl, fun e he => by
    simp only [Test.plainSource, Bool.and_eq_true] at he
    exact .inl he.2⟩
  lostCalled := fun _ _ _ _ _ h => h
  lostInto := fun _ _ _ _ h => h
  endedInto := fun _ _ _ _ h => h
  stuck := fun _ _ _ _ _ _ _ hw => .inr hw.joint
  tell := fun _ _ _ _ _ _ _ _ _ _ _ _ _ _ m n hm => by
    rw [hIdle _ _ _ _ _ n hm.world.joint.2.2]
    exact .ok ⟨rfl, trivial, hm⟩
  tellCall := fun _ _ _ _ _ _ _ _ _ _ _ _ m n hm => by
    rw [hIdle _ _ _ _ _ n hm.world.joint.2.2]
    exact .ok hm
  tellResume := fun _ _ _ _ _ _ _ _ _ _ _ _ _ _ m n hm => by
    rw [hIdle _ _ _ _ _ n hm.world.joint.2.2]
    exact .ok hm
  tellLeave := fun _ _ _ _ _ _ _ _ _ _ _ m n hm => by
    rw [hIdle.leave_apply hSilent _ _ _ _ _ hm.world.joint.2.2]
    exact .ok hm
  entering := fun n k r r' _ _ c d _ _ =>
    hIdle.sim_entering hSilent r r' n k c d
  loaded := fun e v => by
    rw [hSilent]
    exact (yields_typed (P := True) (fun _ => rfl)
      fun _ => trivial).agrees
  lookBack := fun e v => by
    unfold Teller.lookBack
    rw [hSilent, Teller.look_silent hSilent]
    exact (yields_typed (fun _ => rfl)
      (Teller.kept_plain e.ty v)).bind fun _ hKept =>
        Yields.pure hKept
  look := fun e v => by
    rw [Teller.look_silent hSilent]
    exact Yields.pure trivial
  value := fun e a b hResult => by
    rw [hSilent]
    have hFits : Val.fits e.ty a = true →
        a = b ∧ Teller.Held U.plain U e.ty a := by
      intro ha
      refine ⟨?_, Teller.held_plain e.ty a ha⟩
      rcases hResult with hSame | ⟨v, rfl, rfl⟩
      · exact hSame
      · exact Teller.kept_plain (U := U) e.ty _ ha
    exact yields_typed (fun _ => rfl) hFits
  ended := fun _ _ _ _ _ _ => by
    rw [hSilent]
    exact .inl ⟨rfl, rfl⟩

end Unrecorded

------------------------------------------------------------
-- One Call
------------------------------------------------------------

section Calls

variable {p q : Program}
variable {o : Options}
variable {m n : Machine}
variable {c : HostCall}

/- Machines of the plain and of the instrumented program. -/
def Preserved (m n : Machine) : Prop :=
  ∃ k, World Joint.unrecorded {} m k ∧ World Joint.level {} k n

/- Machines without recorders that are both like a third one. -/
theorem World.unrecorded_join
    {k m n : Machine}
    {since : Heap}
    (hm : World Joint.unrecorded since k m)
    (hn : World Joint.unrecorded since k n) :
    World Joint.unrecorded since m n where
  heap := hn.heap.trans hm.heap.symm
  statics := hn.statics.trans hm.statics.symm
  nextId := hn.nextId.trans hm.nextId.symm
  output := hn.output.trans hm.output.symm
  maxDepth := hn.maxDepth.trans hm.maxDepth.symm
  joint := ⟨hn.joint.1.trans hm.joint.1.symm, hm.joint.2.2,
    hn.joint.2.2⟩
  grown := by
    rw [hm.heap]
    exact hn.grown

/- A machine without recorder is like itself. -/
theorem World.unrecorded_self
    {since : Heap}
    (hm : World Joint.unrecorded since m n) :
    World Joint.unrecorded since m m :=
  ⟨rfl, rfl, rfl, rfl, rfl, ⟨rfl, hm.joint.2.1, hm.joint.2.1⟩,
    hm.grown⟩

/- How an instrumented program is compared without a recorder. -/
def Splice.silent
    (o : Options)
    (exclusions : List Pattern) : Splice :=
  ⟨o, exclusions, .silent, fun _ => true⟩

/- Without a recorder no sound action is told. -/
theorem Splice.idle_of_sound
    {X : Splice}
    (hSound : ∀ a, X.sound a = true) : X.teller.Idle := by
  intro p i n span act m hm
  rw [X.tell_apply (hSound _)]
  have hOff : m.recording = false := by
    simp only [Machine.recording, hm]
  rw [hOff]
  rfl

/- The told run lies between two runs of a call from the host. -/
theorem hosted_unrecorded
    {U : Teller}
    (hIdle : U.Idle)
    (hSilent : U.observer = .silent)
    (hPasses : p.passes Test.plainSource = true)
    (fuel : Nat)
    (c : HostCall) :
    Sim Slack.untyped (World Joint.unrecorded {})
      (fun a b m n => a = b ∧ World Joint.unrecorded {} m n)
      (Bond.unrecorded.cut () fun J => World J {})
      (Call.hosted p (invoke .typed p fuel) c)
      (Call.hosted p (U.invoke p fuel) c) := by
  have hCall := (retellers_unrecorded hIdle hSilent
    hPasses).hosted (n := fuel) (.inl rfl) c ()
  have hPlain : U.plain.invoke p fuel = invoke .typed p fuel :=
    (Teller.runs_mute ⟨rfl, fun _ _ _ _ _ => rfl⟩ p fuel).2.2
  rw [hPlain] at hCall
  exact hCall

/- How a plain run is compared with one that is watched. -/
theorem hosted_watched
    (hPasses : p.passes Test.plainSource = true)
    (fuel : Nat)
    (c : HostCall) :
    Sim Slack.untyped (World Joint.unrecorded {})
      (fun a b m n => a = b ∧ World Joint.unrecorded {} m n)
      (Bond.unrecorded.cut () fun J => World J {})
      (Call.hosted p (invoke .typed p fuel) c)
      (Call.hosted p (invoke .silent p fuel) c) := by
  have hMute : (Splice.silent {} []).teller.muted.Mute :=
    Teller.mute_muted _
  have hIdle : (Splice.silent {} []).teller.muted.Idle :=
    fun _ _ _ _ _ _ _ => rfl
  have hInvoke := (Teller.runs_mute hMute p fuel).2.2
  have hSim := hosted_unrecorded hIdle rfl hPasses fuel c
  rw [hInvoke] at hSim
  exact hSim

/- Machines agree with the third machine in between. -/
theorem Preserved.join
    {k₀ k₁ k₂ : Machine}
    (h₀ : World Joint.unrecorded {} k₁ k₀)
    (h₂ : World Joint.unrecorded {} k₁ k₂)
    (h₃ : World Joint.level {} k₂ n) : Preserved k₀ n :=
  ⟨k₂, h₀.unrecorded_join h₂, h₃⟩

/- What is known after a call of the instrumented program. -/
def preservedCut : Cut
  | .throw _, m, n => Preserved m n
  | .fault _, m, n => Preserved m n
  | _, _, _ => True

/-
  A call of the instrumented program does what the call of the
  source program does, unless one of them has too little fuel.
-/
theorem request_instrument
    (hSource : p.passes Test.plainSource = true)
    (hInstrument : instrument o p = .ok q)
    {first : Bool}
    {fuel fuel' : Nat}
    (hFuel : Enough (.lacking first) fuel fuel')
    (h : Preserved m n)
    (hTyped : ∀ why,
      (Machine.request .typed p fuel c.cls c.method c.args m).1
        ≠ .error (.stopped why)) :
    Clean (fun a b m n => a = b ∧ Preserved m n) preservedCut
      (Machine.request .silent p fuel c.cls c.method c.args m)
      (Machine.request .silent q fuel' c.cls c.method c.args n)
    ∨ first = true ∧
      (Machine.request .silent p fuel c.cls c.method c.args m).1
        = .error .outOfFuel
    ∨ first = false ∧
      (Machine.request .silent q fuel' c.cls c.method c.args n).1
        = .error .outOfFuel := by
  rcases Instrument.exclusions_of_ok hInstrument with
    ⟨exclusions, hExclusions⟩
  have hPaired := paired_instrument hExclusions
    (Program.passes_weaker Test.plainSource_weaker hSource)
    hInstrument
  rcases h with ⟨k, hm, hn⟩
  have hSelf := hosted_watched hSource fuel c m m
    hm.unrecorded_self
  have hTold := hosted_unrecorded
    (Splice.idle_of_sound (X := .silent o exclusions) fun _ => rfl)
    rfl hSource fuel c m k hm
  have hSpliced := hosted_spliced (S := .lacking first)
    (w := .silent) (Observer.Coarse.follows ⟨fun _ _ _ => rfl,
      fun _ _ _ => rfl, fun _ _ _ _ => rfl⟩ (fun _ _ _ => rfl) _)
    (Splice.fair_of_sound (X := .silent o exclusions)
      fun _ => rfl)
    hPaired ⟨rfl, rfl⟩ rfl hFuel c k n hn
  simp only [Machine.request_eq_hosted] at hTyped ⊢
  replace hSelf := hSelf.clean hTyped
  replace hTold := hTold.clean hTyped
  generalize Call.hosted p (invoke .typed p fuel) c m = r₁
    at hSelf hTold
  generalize Call.hosted p (invoke .silent p fuel) c m = r₀
    at hSelf
  generalize Call.hosted p
    ((Splice.silent o exclusions).teller.invoke p fuel) c k = r₂
    at hTold hSpliced
  generalize Call.hosted q (invoke .silent q fuel') c n = r₃
    at hSpliced
  -- A second run without fuel is the only other end.
  have hBehind : ∀ {d : Interrupt},
      (Slack.lacking first).second d = true →
      first = false ∧ d = .outOfFuel := by
    intro d hd
    cases d with
    | outOfFuel =>
      have hNot : (!first) = true := hd
      exact ⟨by simpa using hNot, rfl⟩
    | _ => cases hd
  cases hSelf with
  | ok h₀ =>
    rcases h₀ with ⟨rfl, h₀⟩
    cases hTold with
    | ok h₂ =>
      rcases h₂ with ⟨rfl, h₂⟩
      cases hSpliced with
      | ok h₃ => exact .inl (.ok ⟨h₃.1, .join h₀ h₂ h₃.2⟩)
      | second hSecond =>
        rcases hBehind hSecond with ⟨hFirst, rfl⟩
        exact .inr (.inr ⟨hFirst, rfl⟩)
  | throw hv h₀ =>
    cases hTold with
    | throw _ h₂ =>
      cases hSpliced with
      | alike hAlike h₃ =>
        cases hAlike with
        | throw _ hv =>
          exact .inl (.throw hv (Preserved.join h₀ h₂ h₃))
      | first hFirst => cases hFirst
      | second hSecond =>
        rcases hBehind hSecond with ⟨hFirst, rfl⟩
        exact .inr (.inr ⟨hFirst, rfl⟩)
  | fault h₀ =>
    cases hTold with
    | fault h₂ =>
      cases hSpliced with
      | alike hAlike h₃ =>
        cases hAlike with
        | fault c d =>
          exact .inl (.fault (Preserved.join h₀ h₂ h₃))
      | first hFirst => cases hFirst
      | second hSecond =>
        rcases hBehind hSecond with ⟨hFirst, rfl⟩
        exact .inr (.inr ⟨hFirst, rfl⟩)
  | outOfFuel =>
    cases hTold with
    | outOfFuel =>
      cases hSpliced with
      | alike hAlike h₃ =>
        cases hAlike with
        | outOfFuel => exact .inl .outOfFuel
      | first hFirst => exact .inr (.inl ⟨hFirst, rfl⟩)
      | second hSecond =>
        rcases hBehind hSecond with ⟨hFirst, rfl⟩
        exact .inr (.inr ⟨hFirst, rfl⟩)

------------------------------------------------------------
-- Sequences of Calls
------------------------------------------------------------

/- Call static methods one after the other. -/
def Machine.calls
    (p : Program)
    (fuel : Nat) :
    List HostCall → Machine →
      List (Except Broken Completion) × Machine
  | [], m => ([], m)
  | c :: cs, m =>
    let (e, m) := Machine.call p fuel c.cls c.method c.args m
    let (es, m) := Machine.calls p fuel cs m
    (e :: es, m)

/-
  In the plain runs of some calls every expression, and every
  target that is changed, has a value of its type. A call that
  has too little fuel says nothing about those behind it.
-/
def Machine.TypedCalls
    (p : Program)
    (fuel : Nat) : List HostCall → Machine → Prop
  | [], _ => True
  | c :: cs, m =>
    (∀ why,
      (Machine.request .typed p fuel c.cls c.method c.args m).1
        ≠ .error (.stopped why)) ∧
      ((Machine.call p fuel c.cls c.method c.args m).1
          ≠ .error .outOfFuel →
        Machine.TypedCalls p fuel cs
          (Machine.call p fuel c.cls c.method c.args m).2)

/- Whether all calls came to an end. -/
def Finished (ends : List (Except Broken Completion)) : Prop :=
  ∀ e ∈ ends, e ≠ .error .outOfFuel

/- Calls that end alike, whatever caused a fault of a program. -/
inductive EndsAlike :
    Except Broken Completion → Except Broken Completion → Prop where
  | completed (c : Completion) : EndsAlike (.ok c) (.ok c)
  | fault (text text' : String) :
    EndsAlike (.error (.problem (.runtime text)))
      (.error (.problem (.runtime text')))

/- A call that ends alike came to an end. -/
theorem EndsAlike.ended
    {e e' : Except Broken Completion}
    (h : EndsAlike e e') :
    e ≠ .error .outOfFuel ∧ e' ≠ .error .outOfFuel := by
  cases h <;> exact ⟨nofun, nofun⟩

/- Calls that end alike came to an end. -/
theorem finished_of_alike
    {ends ends' : List (Except Broken Completion)}
    (h : List.Forall₂ EndsAlike ends ends') :
    Finished ends ∧ Finished ends' := by
  induction h with
  | nil => exact ⟨nofun, nofun⟩
  | cons hEnd _ ih =>
    constructor
    · intro e he
      rcases List.mem_cons.mp he with rfl | he
      · exact hEnd.ended.1
      · exact ih.1 e he
    · intro e he
      rcases List.mem_cons.mp he with rfl | he
      · exact hEnd.ended.2
      · exact ih.2 e he

/- A call ends alike on both sides, or one of them does not. -/
theorem call_instrument
    (hSource : p.passes Test.plainSource = true)
    (hInstrument : instrument o p = .ok q)
    {first : Bool}
    {fuel fuel' : Nat}
    (hFuel : Enough (.lacking first) fuel fuel')
    (h : Preserved m n)
    (hTyped : ∀ why,
      (Machine.request .typed p fuel c.cls c.method c.args m).1
        ≠ .error (.stopped why)) :
    (EndsAlike (Machine.call p fuel c.cls c.method c.args m).1
        (Machine.call q fuel' c.cls c.method c.args n).1 ∧
      Preserved (Machine.call p fuel c.cls c.method c.args m).2
        (Machine.call q fuel' c.cls c.method c.args n).2)
    ∨ (first = true ∨
        (Machine.call q fuel' c.cls c.method c.args n).1
          = .error .outOfFuel) ∧
      (first = false ∨
        (Machine.call p fuel c.cls c.method c.args m).1
          = .error .outOfFuel) := by
  have hEnds := request_instrument (c := c) hSource hInstrument
    hFuel h hTyped
  unfold Machine.call
  generalize Machine.request .silent p fuel c.cls c.method c.args m
    = r at hEnds
  generalize Machine.request .silent q fuel' c.cls c.method c.args
    n = t at hEnds
  rcases hEnds with hClean | ⟨hFirst, hEnd⟩ | ⟨hFirst, hEnd⟩
  · cases hClean with
    | ok hPost =>
      rcases hPost with ⟨rfl, hPost⟩
      exact .inl ⟨.completed _, hPost⟩
    | throw hv hPost => exact .inl ⟨.completed _, hPost⟩
    | fault hPost => exact .inl ⟨.fault _ _, hPost⟩
    | outOfFuel => exact .inr ⟨.inr rfl, .inr rfl⟩
  · rcases r with ⟨r, m'⟩
    cases hEnd
    exact .inr ⟨.inl hFirst, .inr rfl⟩
  · rcases t with ⟨t, n'⟩
    cases hEnd
    exact .inr ⟨.inr rfl, .inl hFirst⟩

/- Calls end alike if those that may lack fuel come to an end. -/
theorem calls_alike
    (hSource : p.passes Test.plainSource = true)
    (hInstrument : instrument o p = .ok q)
    {first : Bool}
    {fuel fuel' : Nat}
    (hFuel : Enough (.lacking first) fuel fuel')
    {cs : List HostCall}
    (h : Preserved m n)
    (hTyped : Machine.TypedCalls p fuel cs m)
    (hFinished :
      if first then Finished (Machine.calls p fuel cs m).1
      else Finished (Machine.calls q fuel' cs n).1) :
    List.Forall₂ EndsAlike (Machine.calls p fuel cs m).1
        (Machine.calls q fuel' cs n).1 ∧
      Preserved (Machine.calls p fuel cs m).2
        (Machine.calls q fuel' cs n).2 := by
  induction cs generalizing m n with
  | nil => exact ⟨.nil, h⟩
  | cons c cs ih =>
    simp only [Machine.calls] at hFinished ⊢
    have hOne := call_instrument (c := c) hSource hInstrument hFuel
      h hTyped.1
    rcases hOne with ⟨hEnd, hNext⟩ | ⟨hLeft, hRight⟩
    · have hRest := ih hNext (hTyped.2 hEnd.ended.1) (by
        cases first with
        | true => exact fun e he => hFinished e (by simp [he])
        | false => exact fun e he => hFinished e (by simp [he]))
      exact ⟨.cons hEnd hRest.1, hRest.2⟩
    · cases first with
      | true =>
        exact absurd (hRight.resolve_left (by simp))
          (hFinished _ (by simp))
      | false =>
        exact absurd (hLeft.resolve_left (by simp))
          (hFinished _ (by simp))

/- Machines with one heap, static fields, numbers and output. -/
structure Machine.SameState (m n : Machine) : Prop where
  heap : n.heap = m.heap
  statics : n.statics = m.statics
  nextId : n.nextId = m.nextId
  output : n.output = m.output

/- Machines of one world have the same state. -/
theorem World.sameState
    {J : Joint}
    {since : Heap}
    (h : World J since m n) : m.SameState n :=
  ⟨h.heap, h.statics, h.nextId, h.output⟩

/- Calls that end alike and leave the same state. -/
def CallsAlike
    (x y : List (Except Broken Completion) × Machine) : Prop :=
  List.Forall₂ EndsAlike x.1 y.1 ∧ x.2.SameState y.2

/- Machines that preserve the state have the same state. -/
theorem Preserved.sameState
    (h : Preserved m n) : m.SameState n := by
  rcases h with ⟨k, hm, hn⟩
  exact ⟨hn.heap.trans hm.heap, hn.statics.trans hm.statics,
    hn.nextId.trans hm.nextId, hn.output.trans hm.output⟩

/- A machine that has run nothing preserves its state. -/
theorem preserved_fresh
    (maxDepth : Nat) :
    Preserved (.fresh maxDepth) (.fresh maxDepth) :=
  ⟨.fresh maxDepth,
    ⟨rfl, rfl, rfl, rfl, rfl, ⟨rfl, rfl, rfl⟩, .refl _⟩,
    ⟨rfl, rfl, rfl, rfl, rfl, rfl, .refl _⟩⟩

namespace EndsAlike

variable {e e' e'' : Except Broken Completion}

/- Ends are alike in both directions. -/
theorem symm
    (h : EndsAlike e e') : EndsAlike e' e := by
  cases h with
  | completed c => exact .completed c
  | fault text text' => exact .fault text' text

/- Ends that are both like a third one are alike. -/
theorem trans
    (h : EndsAlike e e')
    (h' : EndsAlike e' e'') : EndsAlike e e'' := by
  cases h with
  | completed c => exact h'
  | fault text text' =>
    cases h' with
    | fault _ text'' => exact .fault text text''

end EndsAlike

/- Lists of ends that are both like a third one are alike. -/
theorem alike_trans
    {xs ys zs : List (Except Broken Completion)}
    (h : List.Forall₂ EndsAlike xs ys)
    (h' : List.Forall₂ EndsAlike ys zs) :
    List.Forall₂ EndsAlike xs zs := by
  induction h generalizing zs with
  | nil => exact h'
  | cons hEnd _ ih =>
    cases h' with
    | cons hEnd' hRest =>
      exact .cons (hEnd.trans hEnd') (ih hRest)

namespace CallsAlike

variable {x y z : List (Except Broken Completion) × Machine}

/- Calls are alike in both directions. -/
theorem symm
    (h : CallsAlike x y) : CallsAlike y x :=
  ⟨h.1.flip.imp fun _ _ hEnd => hEnd.symm,
    ⟨h.2.heap.symm, h.2.statics.symm, h.2.nextId.symm,
      h.2.output.symm⟩⟩

/- Calls that are both like other ones are alike. -/
theorem trans
    (h : CallsAlike x y)
    (h' : CallsAlike y z) : CallsAlike x z :=
  ⟨alike_trans h.1 h'.1,
    ⟨h'.2.heap.trans h.2.heap, h'.2.statics.trans h.2.statics,
      h'.2.nextId.trans h.2.nextId,
      h'.2.output.trans h.2.output⟩⟩

end CallsAlike

/-
  Instrumentation preserves what a program does for its host. On
  fresh machines without a recorder, calls come to an end in the
  instrumented program exactly if they do in the source program,
  and then each of them has the same result or throws the same
  exception, or both fail at run time; the objects and arrays,
  the static fields and the output are the same afterwards. This
  holds of all calls in whose plain runs every expression has a
  value of its type.
-/
theorem calls_instrument
    (hSource : p.passes Test.plainSource = true)
    (hInstrument : instrument o p = .ok q)
    (maxDepth : Nat)
    (cs : List HostCall)
    (hTyped : ∀ fuel,
      Machine.TypedCalls p fuel cs (.fresh maxDepth)) :
    ((∃ fuel,
        Finished (Machine.calls p fuel cs (.fresh maxDepth)).1) ↔
      ∃ fuel,
        Finished
          (Machine.calls q fuel cs (.fresh maxDepth)).1) ∧
      ∀ n k,
        Finished (Machine.calls p n cs (.fresh maxDepth)).1 →
        Finished (Machine.calls q k cs (.fresh maxDepth)).1 →
        CallsAlike (Machine.calls p n cs (.fresh maxDepth))
          (Machine.calls q k cs (.fresh maxDepth)) := by
  have hMore : ∀ n k, 8 * n ≤ k →
      Finished (Machine.calls p n cs (.fresh maxDepth)).1 →
      CallsAlike (Machine.calls p n cs (.fresh maxDepth))
        (Machine.calls q k cs (.fresh maxDepth)) := by
    intro n k hk hFinished
    have hFuel : Enough (.lacking true) n k := .inl ⟨rfl, hk⟩
    have hAlike := calls_alike hSource hInstrument hFuel
      (preserved_fresh maxDepth) (hTyped n) hFinished
    exact ⟨hAlike.1, hAlike.2.sameState⟩
  have hLess : ∀ n k, k ≤ n →
      Finished (Machine.calls q k cs (.fresh maxDepth)).1 →
      CallsAlike (Machine.calls p n cs (.fresh maxDepth))
        (Machine.calls q k cs (.fresh maxDepth)) := by
    intro n k hk hFinished
    have hFuel : Enough (.lacking false) n k := .inr ⟨rfl, hk⟩
    have hAlike := calls_alike hSource hInstrument hFuel
      (preserved_fresh maxDepth) (hTyped n) hFinished
    exact ⟨hAlike.1, hAlike.2.sameState⟩
  refine ⟨⟨?_, ?_⟩, ?_⟩
  · rintro ⟨n, hFinished⟩
    exact ⟨8 * n,
      (finished_of_alike (hMore n _ (Nat.le_refl _) hFinished).1).2⟩
  · rintro ⟨k, hFinished⟩
    exact ⟨k,
      (finished_of_alike (hLess k k (Nat.le_refl _) hFinished).1).1⟩
  · intro n k hn hk
    -- Both are like a run with more fuel than either of them.
    have hTop := hLess (max n k) k (Nat.le_max_right n k) hk
    have hEnds := (finished_of_alike hTop.1).1
    exact ((hMore n (8 * max n k) (by omega) hn).trans
      (hMore (max n k) _ (Nat.le_refl _) hEnds).symm).trans hTop

end Calls

/- A program with one method, which adds two numbers. -/
def sumProgram : Program :=
  ⟨[{ name := "Main"
      methods := [
        { name := "main"
          kind := .static
          ret := .int
          body := some [
            ⟨.return (some
              ⟨.binary .add ⟨.literal (.int 1), .int, .unknown⟩
                ⟨.literal (.int 2), .int, .unknown⟩,
                .int, .unknown⟩), .unknown⟩] }] }]⟩

/- Every expression of the sum has a value of its type. -/
theorem typed_sum
    (fuel : Nat) :
    Machine.TypedCalls sumProgram fuel [⟨"Main", "main", []⟩]
      (.fresh 64) := by
  refine ⟨fun why => ?_, fun _ => trivial⟩
  match fuel with
  | 0 => exact nofun
  | 1 => exact nofun
  | 2 => exact nofun
  | 3 => exact nofun
  | n + 4 => exact nofun

/- The instrumented sum is computed, as the sum is. -/
theorem calls_instrument_sum :
    ∃ q, instrument {} sumProgram = .ok q ∧
      ∃ fuel, Finished
        (Machine.calls q fuel [⟨"Main", "main", []⟩]
          (.fresh 64)).1 := by
  have hInstrument : ∃ q, instrument {} sumProgram = .ok q :=
    ⟨_, rfl⟩
  rcases hInstrument with ⟨q, hq⟩
  refine ⟨q, hq, ?_⟩
  have hFinished : Finished
      (Machine.calls sumProgram 4 [⟨"Main", "main", []⟩]
        (.fresh 64)).1 := by
    intro e he
    cases List.mem_singleton.mp he
    nofun
  exact (calls_instrument (by decide) hq 64 _ typed_sum).1.mp
    ⟨4, hFinished⟩

end ExecTrace
