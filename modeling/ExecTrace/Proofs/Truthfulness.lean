import ExecTrace.Proofs.Calculations
import ExecTrace.Proofs.Lineage
import ExecTrace.Proofs.Preservation

/-
  Recorded calculations hold. Whatever a program does, an event
  that tells the result of an operator with scalars tells what
  the operator makes of the operands. The telling run would stop
  before it tells anything else, and instrumented code, which
  reads operands and results from variables and places, reports
  what is told.

  Main declarations:
    * `Machine.isTruthful`
    * `Observer.auditing`
    * `Bond.keeping`
    * `retellers_keeping`
    * `events_truthful`
-/

namespace ExecTrace

open Run
open Teller (Retellers)
open Instrument (Options)

------------------------------------------------------------
-- Truthful Recorders
------------------------------------------------------------

/- Whether an event tells no calculation that fails. -/
def Event.isTruthful (e : Event) : Bool :=
  match e.action? with
  | some a => a.isTruthful Snapshot.scalar?
  | none => true

/- Whether no recorded event tells a calculation that fails. -/
def Recorder.isTruthful (r : Recorder) : Bool :=
  r.forest.nodes.all Event.isTruthful

/- Whether all that a machine has recorded is truthful. -/
def Machine.isTruthful (m : Machine) : Bool :=
  m.recorder.all Recorder.isTruthful

/- Why a run stops at an event that is not truthful. -/
def untrue : String := "untrue"

/- The observer that stops a run if an event is not truthful. -/
def Observer.reviewing : Observer
  | .recorded, m => if m.isTruthful then none else some untrue
  | _, _ => none

/-
  The observer that stops a run at an expression of a primitive
  type whose value is not one of its type, and if a recorded
  event is not truthful.
-/
def Observer.auditing : Observer
  | .value e v, _ =>
    if e.ty.isPrimitive && !Val.fits e.ty v then some untyped
    else none
  | x, m => Observer.reviewing x m

namespace Recorder

variable {r r' : Recorder}

/- A new recorder has recorded nothing that could be untrue. -/
theorem isTruthful_create
    (echo : Bool)
    (time : Timestamp) : (create echo time).isTruthful = true := by
  simp [isTruthful, create, emit, Forest.push, Forest.empty,
    Event.isTruthful, Event.action?, nextEvent]

/- The event of a truthful action is truthful. -/
theorem isTruthful_eventOf
    (r : Recorder)
    (a : Action Unit Snapshot)
    (span : Span) :
    (r.eventOf a span).isTruthful
      = a.isTruthful Snapshot.scalar? := by
  cases a with
  | operation o => cases o <;> rfl
  | _ => rfl

/- A recorder that records a truthful action stays truthful. -/
theorem Commits.isTruthful
    {a : Action Unit Snapshot}
    {span : Span}
    (h : r.Commits a span r')
    (hr : r.isTruthful = true)
    (ha : a.isTruthful Snapshot.scalar? = true) :
    r'.isTruthful = true := by
  unfold Recorder.isTruthful at hr ⊢
  rw [h.forest, Forest.push_nodes, Array.all_push, hr,
    isTruthful_eventOf, ha]
  rfl

end Recorder

------------------------------------------------------------
-- A Property of the Recorder
------------------------------------------------------------

/- Twins with the same frames, and a property of the recorder. -/
def Bond.keeping (P : Option Recorder → Prop) : Bond where
  Ghost := Unit
  rets := fun _ => True
  holds := fun _ => .twin fun _ => P
  ended := fun _ _ => .twin fun _ => P
  done := fun _ => .twin fun _ => P
  lost := fun _ => .twin fun _ => P
  push := fun _ g => g
  doneOfHolds := fun _ _ _ h => h
  lostOfHolds := fun _ _ _ h => h
  lostOfEnded := fun _ _ _ _ h => h
  pushed := fun _ _ _ _ _ ⟨hSame, h⟩ => by
    subst hSame
    exact ⟨rfl, h⟩
  popped := fun _ _ _ _ ⟨hSame, h⟩ => by
    subst hSame
    exact ⟨rfl, h⟩
  poppedLost := fun _ _ _ _ ⟨hSame, h⟩ => by
    subst hSame
    exact ⟨rfl, h⟩
  length := fun _ _ _ ⟨hSame, _⟩ => by rw [hSame]

/- The property is not lost. -/
theorem Bond.keeping_settled
    (P : Option Recorder → Prop) : (Bond.keeping P).Settled :=
  fun _ _ _ h => h

/- What excuses a run that stops before an unsound action. -/
def Slack.unsound : Slack :=
  { stops := fun why => why == Splice.unsound
    halts := false }

/-
  A property of recorders that holds after each sound action, and
  that an observer sees. The observer sees nothing else.
-/
structure Splice.Keeps
    (X : Splice)
    (P : Option Recorder → Prop) : Prop where
  none : P none
  suspended : ∀ (r : Recorder) b, P (some r) →
    P (some { r with suspended := b })
  commits : ∀ (r r' : Recorder) a b p i n m k span,
    X.sound a = true →
    a.mapM (fun s => captureValue X.observer p i n s.kind s.value) m
      = (.ok b, k) →
    P (some r) → r.Commits b span r' → P (some r')
  recorded : ∀ m : Machine, P m.recorder →
    X.observer .recorded m = Option.none
  others : ∀ x m, x ≠ .recorded → X.observer x m = Option.none

section Telling

variable {X : Splice}
variable {P : Option Recorder → Prop}
variable {p : Program}
variable {i j : Invoker}
variable {n : Nat}
variable {s : Shape}
variable {M : Pairing}
variable {span : Span}

/- Telling an action keeps the property. -/
theorem Splice.Keeps.sim_tell
    (hX : X.Keeps P)
    (hp : Paired M p p)
    (hi : Invokers Slack.unsound (Bond.keeping P) M i j)
    {act act' : Machine → Action Unit Shown}
    (hSame : ∀ m m', Linked (.twin fun _ => P) s m m' →
      act' m' = act m) :
    Sim Slack.unsound (Linked (.twin fun _ => P) s)
      (fun _ _ m m' => Linked (.twin fun _ => P) s m m') hard
      (X.teller.tell p i n span act)
      (X.teller.tell p j n span act') := by
  refine Splice.sim_tell span (.inr rfl) hSame
    (fun _ hm _ => hm) (fun k hk hSound => ?_) hX.recorded
  refine sim_record (B := .keeping P) (M := M)
    (C := fun _ _ r => P r)
    (Bond.keeping_settled P) ⟨rfl, rfl⟩ hp hi
    (fun _ _ _ => hX.others _ _ (by rintro ⟨⟩))
    trivial (fun _ => ⟨(), rfl⟩) _ _
    (fun _ _ hr _ => hr)
    (fun _ r hr _ => hX.suspended r true hr)
    (fun _ _ hr => hr)
    fun φ r ψ r₁ b r₂ m k _ hr₁ hRun hDone => ?_
  exact hX.suspended r₂ false
    (hX.commits r₁ r₂ _ b p i n m k span hSound hRun hr₁ hDone)

/- Watching for anything else keeps the property. -/
theorem Splice.Keeps.sim_watch
    (hX : X.Keeps P)
    {x : Moment}
    (hx : x ≠ .recorded) :
    Sim Slack.unsound (Linked (.twin fun _ => P) s)
      (fun _ _ m m' => Linked (.twin fun _ => P) s m m') hard
      (watch X.observer x) (watch X.observer x) := by
  intro m m' hm
  unfold watch
  rw [hX.others x m hx, hX.others x m' hx]
  exact .ok hm

/- A frame of twins is marked. -/
theorem sim_mark_keeping :
    Sim Slack.unsound (Linked (.twin fun _ => P) s)
      (fun _ _ m m' => Linked (.twin fun _ => P) s m m') hard
      markInstrumented markInstrumented := by
  intro m m' hm
  have hKnown := hm.world.joint.2
  unfold markInstrumented
  rw [modify_apply, modify_apply, hm.twin_frames]
  cases hFrames : m.frames with
  | nil => exact .ok hm
  | cons f rest => exact .ok (hm.twin_reframe _ hKnown)

/- One program told twice keeps the property. -/
theorem retellers_keeping
    (hX : X.Keeps P)
    (hPasses : p.passes Test.source = true) :
    Retellers Slack.unsound (Bond.keeping P) (fun _ _ g => g)
      (fun _ g => g) p X.teller X.teller Test.source where
  ahead := fun hOdd => absurd ⟨rfl, rfl⟩ hOdd
  leavesOut := rfl
  rets := fun _ => trivial
  passes := hPasses
  sourceExpr := fun _ he => he
  sourceStmt := fun _ hs => hs
  compounds := .inl rfl
  lostCalled := fun _ _ _ _ _ h => h
  lostInto := fun _ _ _ _ h => h
  endedInto := fun _ _ _ _ h => h
  stuck := fun _ _ _ _ _ _ _ hw => .inr hw.joint
  tell := fun n k i i' hk hi span act act' _ hSame g s hs => by
    cases hk.same rfl rfl
    exact (hX.sim_tell (Teller.paired_same hPasses) hi
      fun m m' hm =>
        (hSame g s hs m m' hm).same (.inl rfl)).weaken (fun _ _ hm => hm)
      (fun _ _ _ _ hm => ⟨rfl, trivial, hm⟩)
      fun _ _ _ hm => (Bond.keeping P).cut_hard hm
  tellCall := fun n k i i' hk hi span callee receiver args g s => by
    cases hk.same rfl rfl
    exact hX.sim_tell (Teller.paired_same hPasses) hi fun _ _ _ => rfl
  tellResume := fun n k i i' hk hi span cls method how how' g s
      hSame => by
    cases hk.same rfl rfl
    rw [hSame rfl]
    exact hX.sim_tell (Teller.paired_same hPasses) hi
      fun _ _ _ => rfl
  tellLeave := fun n k r r' hk hi span method how g s => by
    cases hk.same rfl rfl
    change Sim _ _ _ _
      (watch X.observer (.leaving method) >>= fun _ =>
        X.teller.tell p r.invoke n span fun _ => .exit () method how)
      (watch X.observer (.leaving method) >>= fun _ =>
        X.teller.tell p r'.invoke n span fun _ =>
          .exit () method how)
    exact (hX.sim_watch (by rintro ⟨⟩)).bind fun _ _ =>
      hX.sim_tell (Teller.paired_same hPasses) hi fun _ _ _ => rfl
  entering := fun n k r r' hk hi c d g s => by
    cases hk.same rfl rfl
    change Sim _ _ _ _
      (markInstrumented >>= fun _ =>
        X.teller.tell p r.invoke n d.span (fun k =>
          .enter ⟨c.name, d.name, d.signature⟩
            (enclosingFrames k.frames)) >>= fun _ =>
        watch X.observer (.entered ⟨c.name, d.name, d.signature⟩))
      (markInstrumented >>= fun _ =>
        X.teller.tell p r'.invoke n d.span (fun k =>
          .enter ⟨c.name, d.name, d.signature⟩
            (enclosingFrames k.frames)) >>= fun _ =>
        watch X.observer (.entered ⟨c.name, d.name, d.signature⟩))
    refine sim_mark_keeping.bind fun _ _ => ?_
    refine (hX.sim_tell (Teller.paired_same hPasses) hi ?_).bind
      fun _ _ => hX.sim_watch (by rintro ⟨⟩)
    intro m m' hm
    rw [hm.twin_frames]
  loaded := fun e v g s hs =>
    (hX.sim_watch (by rintro ⟨⟩)).weaken (fun _ _ hm => hm)
      (fun _ _ _ _ hm => ⟨rfl, trivial, hm⟩)
      fun _ _ _ hm => (Bond.keeping P).cut_hard hm
  lookBack := fun e v g s hs => by
    have hBoth := (hX.sim_watch (s := s) (x := .loaded e v)
      (by rintro ⟨⟩)).bind fun _ _ =>
        hX.sim_watch (x := .value e v) (by rintro ⟨⟩)
    exact hBoth.weaken (fun _ _ hm => hm)
      (fun _ _ _ _ hm => ⟨rfl, rfl, hm⟩)
      fun _ _ _ hm => (Bond.keeping P).cut_hard hm
  look := fun e v g s hs => by
    refine (hX.sim_watch (by rintro ⟨⟩)).weaken (fun _ _ hm => hm)
      (fun _ _ _ _ hm => ⟨rfl, trivial, hm⟩)
      fun _ _ _ hm => (Bond.keeping P).cut_hard hm
  value := fun e a b hResult g s hs => by
    have hSame : a = b := by
      rcases hResult with hSame | ⟨v, rfl, rfl⟩
      · exact hSame
      · rfl
    subst hSame
    exact (hX.sim_watch (by rintro ⟨⟩)).weaken (fun _ _ hm => hm)
      (fun _ _ _ _ hm =>
        ⟨rfl, ⟨rfl, rfl, fun hOdd => absurd ⟨rfl, rfl⟩ hOdd⟩, hm⟩)
      fun _ _ _ hm => (Bond.keeping P).cut_hard hm
  ended := fun m J since k k' _ =>
    .inl ⟨hX.others _ _ (by rintro ⟨⟩),
      hX.others _ _ (by rintro ⟨⟩)⟩

end Telling

------------------------------------------------------------
-- Calls from the Host
------------------------------------------------------------

/- What is known of the recorder of a truthful machine. -/
def Truthful (r : Option Recorder) : Prop :=
  r.all Recorder.isTruthful = true

/- How a program is compared when its events are reviewed. -/
def Splice.auditing
    (o : Options)
    (exclusions : List Pattern) : Splice :=
  ⟨o, exclusions, .reviewing, Action.isTruthful Shown.scalar?⟩

/- What excuses a run of the instrumented program. -/
def Slack.auditing : Slack :=
  { misses := fun why => why == ExecTrace.untyped
    behind := true }

section Calls

variable {o : Options}
variable {exclusions : List Pattern}
variable {p q : Program}
variable {m m' : Machine}

/- Telling sound actions keeps a machine truthful. -/
theorem Splice.keeps_auditing
    (o : Options)
    (exclusions : List Pattern) :
    (Splice.auditing o exclusions).Keeps Truthful where
  none := rfl
  suspended := fun _ _ hr => hr
  commits := fun r r' a b p i n m k span hSound hRun hr hDone =>
    hDone.isTruthful hr ((isTruthful_of_captured hRun).trans hSound)
  recorded := fun m hm => by
    change (if m.isTruthful then Option.none else some untrue) = _
    exact if_pos hm
  others := fun x m hx => by
    cases x with
    | recorded => exact absurd rfl hx
    | _ => rfl

/- The audited run is stopped for a value or reviewed. -/
theorem Observer.follows_auditing :
    Observer.reviewing.Follows Slack.auditing Observer.auditing where
  coarse :=
    { loaded := fun _ _ _ => rfl
      locals := fun x m l => by cases x <;> rfl
      ended := fun _ _ _ _ => rfl }
  misses := fun x m why hValue hWhy => by
    cases x with
    | value e v =>
      simp only [Observer.auditing] at hWhy
      split at hWhy <;> cases hWhy
      rfl
    | loaded e v => cases hWhy
    | _ => cases hValue
  others := fun x m hOther => by
    cases x with
    | value e v => cases hOther
    | _ => rfl
  admits := fun _ _ _ _ _ _ => rfl
  void := fun _ _ _ _ => rfl

/- The audit sees to the types of values. -/
theorem Observer.typing_auditing : Observer.auditing.Typing := by
  rintro e v ⟨m, hNone⟩ hTy
  simp only [Observer.auditing, hTy, Bool.true_and] at hNone
  cases hFits : Val.fits e.ty v with
  | true => rfl
  | false => simp [hFits] at hNone

/- A machine with a new recorder is truthful. -/
theorem isTruthful_recorded
    (maxDepth : Nat)
    (echo : Bool)
    (time : Timestamp) :
    (Machine.recorded maxDepth echo time).isTruthful = true :=
  Recorder.isTruthful_create echo time

/- The telling run of a call from the host stays truthful. -/
theorem hosted_auditing
    (o : Options)
    (exclusions : List Pattern)
    (hSource : p.passes Test.source = true)
    (fuel : Nat)
    (c : HostCall) :
    Sim Slack.unsound (World (.twin fun _ => Truthful) {})
      (fun a b m n => a = b ∧ World (.twin fun _ => Truthful) {} m n)
      ((Bond.keeping Truthful).cut () fun J => World J {})
      (Call.hosted p
        ((Splice.auditing o exclusions).teller.invoke p fuel) c)
      (Call.hosted p
        ((Splice.auditing o exclusions).teller.invoke p fuel)
        c) :=
  (retellers_keeping (Splice.keeps_auditing o exclusions)
    hSource).hosted (.inl rfl) c ()

/-
  A call never records an event that is not truthful, and leaves
  a truthful machine.
-/
theorem request_truthful
    (hSource : p.passes Test.source = true)
    (hInstrument : instrument o p = .ok q)
    (hm : m.isTruthful = true)
    {fuel : Nat}
    {c : HostCall}
    {r : Except Interrupt Val}
    (hRun : Machine.request .auditing q fuel c.cls c.method c.args m
      = (r, m')) :
    r ≠ .error (.stopped untrue) ∧
      (Settles r → m'.isTruthful = true) := by
  rcases Instrument.exclusions_of_ok hInstrument with
    ⟨exclusions, hExclusions⟩
  have hPaired := paired_instrument hExclusions hSource hInstrument
  have hTold := hosted_auditing o exclusions hSource fuel c m m
    ⟨rfl, rfl, rfl, rfl, rfl, ⟨rfl, hm⟩, (World.level_self m).grown⟩
  have hFuel : Enough Slack.auditing fuel fuel :=
    .inr ⟨rfl, Nat.le_refl _⟩
  have hSpliced := hosted_spliced (X := .auditing o exclusions)
    Observer.follows_auditing
    (Splice.fair_truthful (fun _ => rfl) Observer.typing_auditing)
    hPaired ⟨rfl, rfl⟩ rfl hFuel c m m (World.level_self m)
  rw [Machine.request_eq_hosted] at hRun
  rw [hRun] at hSpliced
  -- What the telling run has recorded is what the call has.
  have hLevel : ∀ {k l : Machine},
      World (.twin fun _ => Truthful) {} k l →
      World Joint.level {} k m' → m'.isTruthful = true := by
    intro k l hk hkm
    have hSame : m'.recorder = k.recorder :=
      (congrArg Prod.snd hkm.joint).symm
    unfold Machine.isTruthful
    rw [hSame]
    exact hk.joint.2
  generalize Call.hosted p
    ((Splice.auditing o exclusions).teller.invoke p fuel) c m = t
    at hTold hSpliced
  cases hSpliced with
  | ok hPost =>
    cases hTold with
    | ok hTwins => exact ⟨nofun, fun _ => hLevel hTwins.2 hPost.2⟩
  | alike hAlike hCut =>
    cases hAlike with
    | throw v hv =>
      cases hTold with
      | alike hAlike hTwins =>
        cases hAlike
        exact ⟨nofun, fun _ => hLevel hTwins hCut⟩
      | first hFirst => cases hFirst
      | second hSecond => cases hSecond
    | fault c d =>
      cases hTold with
      | alike hAlike hTwins =>
        cases hAlike
        exact ⟨nofun, fun _ => hLevel hTwins hCut⟩
      | first hFirst => cases hFirst
      | second hSecond => cases hSecond
    | panic text _ => exact ⟨nofun, nofun⟩
    | outOfFuel => exact ⟨nofun, nofun⟩
    | stopped why _ =>
      refine ⟨?_, nofun⟩
      intro hWhy
      cases hWhy
      -- The telling run does not stop for that reason.
      cases hTold with
      | alike hAlike _ =>
        cases hAlike with
        | stopped _ hHalts => cases hHalts
      | first hFirst => exact absurd hFirst (by decide)
      | second hSecond => cases hSecond
    | answered why s hAnswers => cases hAnswers
  | @first c _ _ hFirst => cases c <;> cases hFirst
  | @second d _ _ hSecond =>
    cases d with
    | outOfFuel => exact ⟨nofun, nofun⟩
    | stopped why =>
      refine ⟨?_, nofun⟩
      intro hWhy
      cases hWhy
      exact absurd hSecond (by decide)
    | _ => cases hSecond

/-
  Recorded calculations hold. However a host calls an
  instrumented program, as long as expressions of primitive types
  have values of their types every event that tells the result of
  an operator with scalars tells what the operator makes of the
  operands: each recorded event of a call that ends, and each one
  of a call that does not.
-/
theorem events_truthful
    (hSource : p.passes Test.source = true)
    (hInstrument : instrument o p = .ok q)
    {m₀ : Machine}
    (hStart : m₀.isTruthful = true)
    (hReaches : Machine.Reaches .auditing q Settles m₀ m)
    (fuel : Nat)
    (c : HostCall) :
    m.isTruthful = true ∧
      (Machine.request .auditing q fuel c.cls c.method c.args m).1
        ≠ .error (.stopped untrue) := by
  have hTruthful : m.isTruthful = true := by
    induction hReaches with
    | refl => exact hStart
    | call fuel c _ hRun hEnd ih =>
      exact (request_truthful hSource hInstrument ih hRun).2 hEnd
  exact ⟨hTruthful,
    (request_truthful hSource hInstrument hTruthful rfl).1⟩

end Calls

/- The events of the sum are truthful. -/
theorem events_truthful_sum :
    ∃ q, instrument {} sumProgram = .ok q ∧
      ∀ echo time fuel,
        (Machine.recorded 64 echo time).isTruthful = true ∧
          (Machine.request .auditing q fuel "Main" "main" []
            (.recorded 64 echo time)).1
              ≠ .error (.stopped untrue) := by
  have hInstrument : ∃ q, instrument {} sumProgram = .ok q :=
    ⟨_, rfl⟩
  rcases hInstrument with ⟨q, hq⟩
  refine ⟨q, hq, fun echo time fuel => ?_⟩
  exact events_truthful (by decide) hq
    (isTruthful_recorded 64 echo time) (.refl _) fuel
    ⟨"Main", "main", []⟩

end ExecTrace
