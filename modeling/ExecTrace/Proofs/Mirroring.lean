import ExecTrace.Proofs.Preservation
import ExecTrace.Proofs.Recording

/-
  A trace mirrors the frames of a run. Each event that starts an
  activation names the frame of the activation and those without
  probes in front of it, so together with the activations around
  it it names all frames. The frames that are open in a recorder
  and the frames with probes belong together one by one while a
  program runs; only the end of a method is told before its
  frame is gone.

  Main declarations:
    * `Observer.mirroring`
    * `Spans` and `Spans.places`
    * `Recorder.Tracks`
    * `Stage` and `Bond.tracked`
    * `retellers_tracked`
    * `never_misplaced`
-/

namespace ExecTrace

open Run
open Teller (Retellers)
open Instrument (Options)

------------------------------------------------------------
-- What Is Mirrored
------------------------------------------------------------

/- The frames that an event names, outermost first. -/
def Event.places (e : Event) : List (String × String) :=
  match e.action? with
  | some (.enter callee enclosing) =>
    enclosing.map (fun f => (f.cls, f.method))
      ++ [(callee.cls, callee.method)]
  | _ => []

/-
  Whether the last event of a forest, if it starts an activation,
  names some frames together with the events around it.
-/
def Forest.mirrors
    (f : Forest)
    (frames : List Frame) : Bool :=
  match f.nodes.back? with
  | some e =>
    e.opens != some .enter ||
      (f.lineage e).flatMap Event.places
        == frames.reverse.map Frame.place
  | none => true

/- Why a run stops at an event that does not name the frames. -/
def misplaced : String := "misplaced"

/- Why a run stops at a body that returns no value. -/
def noValue : String := "noValue"

/-
  The observer that stops a run after an event that starts an
  activation and does not name the frames of the run, and at the
  end of a body that has to return a value and does not.
-/
def Observer.mirroring : Observer
  | .recorded, m =>
    match m.recorder with
    | some r =>
      if r.forest.mirrors m.frames then none else some misplaced
    | none => none
  | .ended d, _ => if d.ret = .void then none else some noValue
  | _, _ => none

------------------------------------------------------------
-- Frames and Open Frames
------------------------------------------------------------

/-
  Frames with probes and the frames of a recorder that belong to
  them, innermost first: the event of each of them names it and
  the frames without probes in front of it.
-/
inductive Spans (f : Forest) :
    List OpenFrame → List Frame → Prop where
  | nil : Spans f [] []
  | bare
      {enters : List OpenFrame}
      {g : Frame}
      {frames : List Frame}
      (hBare : g.instrumented = false)
      (hRest : Spans f enters frames) : Spans f enters (g :: frames)
  | told
      {o : OpenFrame}
      {e : Event}
      {enters : List OpenFrame}
      {g : Frame}
      {frames : List Frame}
      (hTold : g.instrumented = true)
      (hFound : f.find? o.owner = some e)
      (hPlaces : e.places =
        ((g :: frames.takeWhile fun k => !k.instrumented).reverse).map
          Frame.place)
      (hRest : Spans f enters frames) :
      Spans f (o :: enters) (g :: frames)

/- The frames behind the innermost one with probes. -/
def outside (frames : List Frame) : List Frame :=
  (frames.dropWhile fun g => !g.instrumented).tail

/- Whether an open frame is an activation. -/
def OpenFrame.isEnter (o : OpenFrame) : Bool :=
  o.kind == .enter

namespace Spans

variable {f : Forest}
variable {enters : List OpenFrame}
variable {frames : List Frame}
variable {g : Frame}

/- Frames belong together when an event is added. -/
theorem push
    (h : Spans f enters frames)
    (parent : Option Nat)
    (e : Event) : Spans (f.push parent e) enters frames := by
  induction h with
  | nil => exact .nil
  | bare hBare _ ih => exact .bare hBare ih
  | told hTold hFound hPlaces _ ih =>
    exact .told hTold (Forest.find_push hFound) hPlaces ih

/- The frames behind one without probes. -/
theorem behind
    (h : Spans f enters (g :: frames))
    (hBare : g.instrumented = false) : Spans f enters frames := by
  cases h with
  | bare _ hRest => exact hRest
  | told hTold => rw [hBare] at hTold; cases hTold

/- The frames behind the innermost one with probes. -/
theorem outside
    (h : Spans f enters frames) :
    Spans f enters.tail (outside frames) := by
  unfold ExecTrace.outside
  induction h with
  | nil => exact .nil
  | bare hBare _ ih => simpa [hBare] using ih
  | told hTold _ _ hRest _ => simpa [hTold] using hRest

/- The events name the frames up to the innermost with probes. -/
theorem places
    (h : Spans f enters frames) :
    (f.openers enters).flatMap Event.places
      = ((frames.dropWhile fun k => !k.instrumented).reverse).map
        Frame.place := by
  induction h with
  | nil => rfl
  | bare hBare _ ih => rw [ih]; simp [hBare]
  | @told o e enters g frames hTold hFound hPlaces _ ih =>
    have hSplit : (g :: frames).reverse
        = (frames.dropWhile fun k => !k.instrumented).reverse
          ++ (g :: frames.takeWhile
            fun k => !k.instrumented).reverse := by
      rw [← List.reverse_append, List.cons_append,
        List.takeWhile_append_dropWhile]
    have hOpeners : f.openers (o :: enters)
        = f.openers enters ++ [e] := by
      simp [Forest.openers, hFound]
    have hDrop : (g :: frames).dropWhile (fun k => !k.instrumented)
        = g :: frames := by
      simp [hTold]
    rw [hOpeners, List.flatMap_append, ih, hDrop, hSplit,
      List.map_append, List.flatMap_singleton, hPlaces]

end Spans

/- The events of calls name no frames. -/
theorem Event.places_of_call
    {e : Event}
    (h : e.opens ≠ some .enter) : e.places = [] := by
  rcases e with ⟨id, parent, what⟩
  cases what with
  | initialization time => rfl
  | action a span =>
    cases a <;> first | rfl | exact absurd rfl h

/- Calls do not matter for the frames that events name. -/
theorem Opened.places_filter
    {f : Forest}
    {frames : List OpenFrame}
    (h : Opened f frames) :
    (f.openers (frames.filter OpenFrame.isEnter)).flatMap
        Event.places
      = (f.openers frames).flatMap Event.places := by
  induction h with
  | nil => rfl
  | @cons o e rest hFound hKind _ _ _ ih =>
    have hOpeners : ∀ frames, f.openers (o :: frames)
        = f.openers frames ++ [e] := by
      simp [Forest.openers, hFound]
    by_cases hEnter : o.isEnter = true
    · rw [List.filter_cons_of_pos hEnter, hOpeners, hOpeners]
      simp only [List.flatMap_append, ih]
    · have hNone : e.places = [] := by
        refine Event.places_of_call fun hOpens => hEnter ?_
        rw [hKind] at hOpens
        simp [OpenFrame.isEnter, Option.some.inj hOpens]
      rw [List.filter_cons_of_neg hEnter, hOpeners,
        List.flatMap_append, ih, List.flatMap_singleton, hNone,
        List.append_nil]

------------------------------------------------------------
-- Recorders That Track Frames
------------------------------------------------------------

/- The frames of a recorder belong to frames of a run. -/
structure Recorder.Tracks
    (r : Recorder)
    (frames : List Frame) : Prop where
  ordered : r.Ordered
  spans : Spans r.forest (r.frames.filter OpenFrame.isEnter) frames

namespace Recorder

variable {r r' : Recorder}
variable {a : Action Unit Snapshot}
variable {span : Span}
variable {g : Frame}
variable {frames : List Frame}

/- Suspending a recorder changes nothing. -/
theorem Tracks.suspension
    (h : r.Tracks frames)
    (b : Bool) : { r with suspended := b }.Tracks frames :=
  ⟨h.ordered.suspension b, h.spans⟩

/- A new frame has no probes that have reported. -/
theorem Tracks.enter
    (h : r.Tracks frames)
    (cls method : String) :
    r.Tracks (⟨cls, method, false⟩ :: frames) :=
  ⟨h.ordered, .bare rfl h.spans⟩

/- The frames behind one without probes. -/
theorem Tracks.behind
    (h : r.Tracks (g :: frames))
    (hBare : g.instrumented = false) : r.Tracks frames :=
  ⟨h.ordered, h.spans.behind hBare⟩

namespace Commits

/- The last event is the one of the action. -/
theorem back
    (h : r.Commits a span r') :
    r'.forest.nodes.back? = some (r.eventOf a span) := by
  rw [h.forest, Forest.push_nodes]
  simp

/- An action that starts no activation names no frames. -/
theorem mirrors_of_ne
    (h : r.Commits a span r')
    (hOpens : a.opens ≠ some .enter)
    (frames : List Frame) : r'.forest.mirrors frames = true := by
  unfold Forest.mirrors
  rw [h.back]
  simp [eventOf_opens, hOpens]

/- Frames belong together in the new forest. -/
theorem spans
    {enters : List OpenFrame}
    (h : r.Commits a span r')
    (hSpans : Spans r.forest enters frames) :
    Spans r'.forest enters frames := by
  rw [h.forest]
  exact hSpans.push _ _

/- An action inside of a frame moves no frames. -/
theorem tracks_inner
    (h : r.Commits a span r')
    (hr : r.Tracks frames)
    (hInner : a.Inner) : r'.Tracks frames := by
  refine ⟨h.ordered hr.ordered, ?_⟩
  rw [h.frames]
  unfold framesAfter
  rw [hInner.1, hInner.2]
  exact h.spans hr.spans

/- A call opens a frame that is no activation. -/
theorem tracks_call
    (h : r.Commits a span r')
    (hr : r.Tracks frames)
    (hOpens : a.opens = some .call)
    (hEnds : a.ends = none) : r'.Tracks frames := by
  refine ⟨h.ordered hr.ordered, ?_⟩
  rw [h.frames]
  unfold framesAfter
  rw [hOpens, hEnds]
  exact h.spans hr.spans

/- The end of a call closes a frame that is no activation. -/
theorem tracks_resume
    (h : r.Commits a span r')
    (hr : r.Tracks frames)
    (hEnds : a.ends = some .call) : r'.Tracks frames := by
  refine ⟨h.ordered hr.ordered, ?_⟩
  rcases h.closes _ hEnds with ⟨o, rest, hFrames, hKind⟩
  have hSpans := hr.spans
  rw [hFrames, List.filter_cons_of_neg
    (by simp [OpenFrame.isEnter, hKind])] at hSpans
  rw [h.frames]
  unfold framesAfter
  rw [hEnds, hFrames]
  exact h.spans hSpans

/- The end of an activation closes the innermost one. -/
theorem tracks_exit
    (h : r.Commits a span r')
    (hr : r.Tracks frames)
    (hEnds : a.ends = some .enter) :
    r'.Tracks (outside frames) := by
  refine ⟨h.ordered hr.ordered, ?_⟩
  rcases h.closes _ hEnds with ⟨o, rest, hFrames, hKind⟩
  have hSpans := hr.spans.outside
  rw [hFrames, List.filter_cons_of_pos
    (by simp [OpenFrame.isEnter, hKind])] at hSpans
  rw [h.frames]
  unfold framesAfter
  rw [hEnds, hFrames]
  exact h.spans hSpans

section Enter

variable {callee : Callee}

/- The event of a start names the frame and those before it. -/
theorem places_enter
    (hPlace : g.place = (callee.cls, callee.method)) :
    (r.eventOf
        (.enter callee (enclosingFrames (g :: frames)))
        span).places
      = ((g :: frames.takeWhile fun k => !k.instrumented).reverse).map
        Frame.place := by
  change (enclosingFrames (g :: frames)).map
      (fun f => (f.cls, f.method))
    ++ [(callee.cls, callee.method)] = _
  rw [← hPlace]
  simp only [enclosingFrames, List.drop_succ_cons, List.drop_zero,
    List.reverse_cons, List.map_append, List.map_map]
  rfl

/- The start of an activation opens a frame that belongs to it. -/
theorem tracks_enter
    (h : r.Commits
      (.enter callee (enclosingFrames (g :: frames))) span r')
    (hr : r.Tracks frames)
    (hTold : g.instrumented = true)
    (hPlace : g.place = (callee.cls, callee.method)) :
    r'.Tracks (g :: frames) := by
  refine ⟨h.ordered hr.ordered, ?_⟩
  rw [h.frames]
  exact .told hTold (h.found hr.ordered) (places_enter hPlace)
    (h.spans hr.spans)

/- The start of an activation names all frames. -/
theorem mirrors_enter
    (h : r.Commits
      (.enter callee (enclosingFrames (g :: frames))) span r')
    (hr : r.Tracks frames)
    (hTold : g.instrumented = true)
    (hPlace : g.place = (callee.cls, callee.method)) :
    r'.forest.mirrors (g :: frames) = true := by
  have hTracks := h.tracks_enter hr hTold hPlace
  have hOpened := hTracks.ordered.opened
  have hFrames : r'.frames
      = ⟨r.nextId, .enter, r.forest.size⟩ :: r.frames := h.frames
  have hFound := h.found hr.ordered
  have hChain := hTracks.spans.places
  rw [hOpened.places_filter, hFrames] at hChain
  rw [hFrames] at hOpened
  have hDrop : (g :: frames).dropWhile (fun k => !k.instrumented)
      = g :: frames := by
    simp [hTold]
  rw [hDrop] at hChain
  unfold Forest.mirrors
  rw [h.back]
  simp only [hOpened.lineage hFound, hChain]
  simp

end Enter

end Commits

end Recorder

------------------------------------------------------------
-- What Is Known of the Frames
------------------------------------------------------------

/- Some frames, and a running recorder that tracks others. -/
def Tracking
    (frames tracked : List Frame)
    (φ : List Frame)
    (r : Option Recorder) : Prop :=
  φ = frames ∧
    ∃ t, r = some t ∧ t.suspended = false ∧ t.Tracks tracked

/-
  A run that is recorded, with its frames, or one that captures a
  value: its recorder is suspended, and some frames lie above
  those from which the value is captured.
-/
inductive Stage where
  | active (frames : List Frame)
  | frozen (base : List Frame) (r : Recorder) (above : Nat)

namespace Stage

/- What is known at a stage. -/
def known : Stage → List Frame → Option Recorder → Prop
  | .active frames => Tracking frames frames
  | .frozen base t above => fun φ r =>
    φ.drop above = base ∧ r = some t ∧ t.suspended = true

/-
  What is known once the innermost frame belongs to nothing in
  the recorder any more; `told` says whether it did.
-/
def closed
    (told : Bool) : Stage → List Frame → Option Recorder → Prop
  | .active frames => fun φ r =>
    ∀ g rest, frames = g :: rest → g.instrumented = told →
      Tracking rest rest φ.tail r
  | .frozen base t above => (frozen base t above).known

/- Nothing is known of a run after a fault, unless it captures. -/
def lost : Stage → Joint
  | .active _ => fun _ _ => True
  | .frozen base t above => .twin (frozen base t above).known

/- A new frame has no probes that have reported. -/
def push (f : Frame) : Stage → Stage
  | .active frames =>
    .active ({ f with instrumented := false } :: frames)
  | .frozen base t above => .frozen base t (above + 1)

/- The innermost frame has probes. -/
def mark : Stage → Stage
  | .active (f :: rest) =>
    .active ({ f with instrumented := true } :: rest)
  | g => g

/- Whether a value is captured. -/
def isFrozen : Stage → Prop
  | .active _ => False
  | .frozen _ _ _ => True

/- A frame without probes belongs to nothing. -/
theorem closed_of_known
    (g : Stage)
    {φ : List Frame}
    {r : Option Recorder}
    (h : g.known φ r) : g.closed false φ r := by
  cases g with
  | frozen base t above => exact h
  | active frames =>
    rcases h with ⟨rfl, t, rfl, hRunning, hTracks⟩
    rintro g rest rfl hBare
    exact ⟨rfl, t, rfl, hRunning, hTracks.behind hBare⟩

/- A frame that belongs to nothing is removed. -/
theorem known_of_closed
    (f : Frame)
    (g : Stage)
    {φ : List Frame}
    {r : Option Recorder}
    (h : (g.push f).closed false φ r) : g.known φ.tail r := by
  cases g with
  | frozen base t above =>
    rcases h with ⟨hBase, h⟩
    exact ⟨by rw [List.drop_tail, hBase], h⟩
  | active frames => exact h _ _ rfl rfl

end Stage

/- Twins of which is known what a stage of the run says. -/
def Bond.tracked : Bond where
  Ghost := Stage
  rets := fun _ => True
  holds := fun g => .twin g.known
  ended := fun _ g => .twin (g.closed true)
  done := fun g => .twin (g.closed false)
  lost := Stage.lost
  push := Stage.push
  doneOfHolds := fun g _ _ ⟨hSame, h⟩ =>
    ⟨hSame, g.closed_of_known h⟩
  lostOfHolds := fun g a b h => by
    cases g with
    | active frames => trivial
    | frozen base t above => exact h
  lostOfEnded := fun _ g a b h => by
    cases g with
    | active frames => trivial
    | frozen base t above => exact h
  pushed := fun cls method g a b ⟨hSame, h⟩ => by
    subst hSame
    refine ⟨rfl, ?_⟩
    cases g with
    | active frames =>
      rcases h with ⟨hFrames, t, hr, hRunning, hTracks⟩
      exact ⟨congrArg _ hFrames, t, hr, hRunning,
        hTracks.enter cls method⟩
    | frozen base t above => exact h
  popped := fun f g a b ⟨hSame, h⟩ => by
    subst hSame
    exact ⟨rfl, Stage.known_of_closed f g h⟩
  poppedLost := fun f g a b h => by
    cases g with
    | active frames => trivial
    | frozen base t above =>
      rcases h with ⟨rfl, hBase, hr⟩
      exact ⟨rfl, by rw [List.drop_tail, hBase], hr⟩
  length := fun _ _ _ ⟨hSame, _⟩ => by rw [hSame]

/- The bond while a value is captured. -/
def Bond.frozen : Bond :=
  Bond.tracked.within Stage.isFrozen fun _ g h => by
    cases g with
    | active frames => exact h
    | frozen base t above => trivial

/- Nothing is lost while a value is captured. -/
theorem Bond.settled_frozen : Bond.frozen.Settled := by
  rintro ⟨g, hg⟩ a b h
  cases g with
  | active frames => exact hg.elim
  | frozen base t above => exact h

/- How a run is excused if a body returns no value. -/
def Slack.noValue : Slack :=
  { stops := fun why => why == ExecTrace.noValue
    halts := false }

/- A run that is stopped by its observer if frames are missing. -/
def Splice.mirroring
    (o : Options)
    (exclusions : List Pattern) : Splice :=
  ⟨o, exclusions, .mirroring, fun _ => true⟩

------------------------------------------------------------
-- Telling Actions
------------------------------------------------------------

section Telling

variable {o : Options}
variable {exclusions : List Pattern}
variable {p : Program}
variable {i j : Invoker}
variable {n : Nat}
variable {s : Shape}
variable {M : Pairing}
variable {span : Span}

/-
  A running recorder records an action. What is known of the
  recorder changes as the event of the action says.
-/
theorem sim_tell_active
    (hp : Paired M p p)
    (hi : Invokers Slack.noValue Bond.tracked M i j)
    {frames tracked tracked' : List Frame}
    {act act' : Machine → Action Unit Shown}
    (hSame : ∀ m m',
      Linked (.twin (Tracking frames tracked)) s m m' →
        act' m' = act m)
    (hStep : ∀ (k : Machine) b (r r' : Recorder),
      k.frames = frames → (act k).Captures b → r.Tracks tracked →
      r.Commits b span r' →
      r'.Tracks tracked' ∧ r'.forest.mirrors frames = true) :
    Sim Slack.noValue (Linked (.twin (Tracking frames tracked)) s)
      (fun _ _ m m' =>
        Linked (.twin (Tracking frames tracked')) s m m') hard
      ((Splice.mirroring o exclusions).teller.tell p i n span act)
      ((Splice.mirroring o exclusions).teller.tell p j n span
        act') := by
  have hRunning : ∀ m : Machine,
      Tracking frames tracked m.frames m.recorder →
      m.recording = true := by
    rintro m ⟨_, t, ht, hOn, _⟩
    simp only [Machine.recording, ht, hOn, Bool.not_false]
  have hTell := Splice.sim_tell (S := Slack.noValue) (s := s)
    (X := Splice.mirroring o exclusions)
    (P := Tracking frames tracked)
    (Q := fun φ r => φ = frames ∧ ∃ t, r = some t ∧
      t.suspended = false ∧ t.Tracks tracked' ∧
      t.forest.mirrors frames = true)
    (p := p) (i := i) (j := j) (n := n)
    span (.inl fun _ => rfl) hSame ?_ ?_ ?_
  · exact hTell.weaken (fun _ _ hm => hm)
      (fun _ _ m m' hm => hm.twin (by
        rcases hm.world.joint.2 with ⟨hφ, t, ht, hOn, hTracks, _⟩
        exact ⟨hφ, t, ht, hOn, hTracks⟩))
      (fun _ _ _ hm => hm)
  · intro m hm hOff
    rw [hRunning m hm] at hOff
    cases hOff
  · intro k hk _
    refine sim_record (B := .frozen) (M := M)
      (C := fun r =>
        (Stage.frozen frames { r with suspended := true } 0).known)
      Bond.settled_frozen ⟨rfl, rfl⟩ hp
      (fun c d m m' hFound self args =>
        (hi c d m m' hFound self args).within)
      (fun _ _ _ => rfl) trivial
      (fun r => ⟨⟨.frozen frames { r with suspended := true } 0,
        trivial⟩, rfl⟩) _ _
      ?_ ?_ ?_ ?_
    · rintro φ r ⟨_, t, rfl, hOn, _⟩ hNone
      simp [Recorder.suspend?, hOn] at hNone
    · rintro φ r ⟨rfl, _⟩ _
      exact ⟨rfl, rfl, rfl⟩
    · rintro r φ ⟨_, hNone, _⟩
      cases hNone
    · rintro φ r ψ r₁ b r₂ m m' ⟨rfl, t, ht, hOn, hTracks⟩
        ⟨hBase, hr₁, _⟩ hRun hDone
      cases ht
      cases hr₁
      have hStart := hTracks.suspension true
      have hEnd := hStep k b _ r₂ hk.1 (captures_of_ok hRun) hStart
        hDone
      exact ⟨hBase, _, rfl, rfl, hEnd.1.suspension false, hEnd.2⟩
  · rintro m ⟨hφ, t, ht, _, _, hMirrors⟩
    have hSees : Observer.mirroring .recorded m = none := by
      simp only [Observer.mirroring, ht, hφ, hMirrors, if_true]
    exact hSees

/- A suspended recorder records nothing. -/
theorem sim_tell_frozen
    {base : List Frame}
    {t : Recorder}
    {above : Nat}
    (act act' : Machine → Action Unit Shown) :
    Sim Slack.noValue
      (Linked (.twin (Stage.frozen base t above).known) s)
      (fun _ _ m m' =>
        Linked (.twin (Stage.frozen base t above).known) s m m')
      hard
      ((Splice.mirroring o exclusions).teller.tell p i n span act)
      ((Splice.mirroring o exclusions).teller.tell p j n span
        act') := by
  have hQuiet : ∀ i (act : Machine → Action Unit Shown) m,
      (Stage.frozen base t above).known m.frames m.recorder →
      (Splice.mirroring o exclusions).teller.tell p i n span act m
        = (.ok (), m) := by
    intro i act m hm
    rw [Splice.tell_apply _ rfl]
    have hOff : m.recording = false := by
      simp only [Machine.recording, hm.2.1, hm.2.2, Bool.not_true]
    rw [hOff]
    rfl
  intro m m' hm
  have hKnown := hm.world.joint.2
  have hKnown' : (Stage.frozen base t above).known m'.frames
      m'.recorder := by
    rw [hm.twin_frames, hm.twin_recorder]
    exact hKnown
  rw [hQuiet i act m hKnown, hQuiet j act' m' hKnown']
  exact .ok hm

/- An action that moves no frames is told at any stage. -/
theorem sim_tell_stage
    (hp : Paired M p p)
    (hi : Invokers Slack.noValue Bond.tracked M i j)
    (g : Stage)
    {act act' : Machine → Action Unit Shown}
    (hSame : ∀ m m', Linked (Bond.tracked.holds g) s m m' →
      act' m' = act m)
    (hStep : ∀ (k : Machine) b (r r' : Recorder) frames,
      (act k).Captures b → r.Tracks frames →
      r.Commits b span r' →
      r'.Tracks frames ∧ r'.forest.mirrors frames = true) :
    Sim Slack.noValue (Linked (Bond.tracked.holds g) s)
      (fun _ _ m m' => Linked (Bond.tracked.holds g) s m m') hard
      ((Splice.mirroring o exclusions).teller.tell p i n span act)
      ((Splice.mirroring o exclusions).teller.tell p j n span
        act') := by
  cases g with
  | frozen base t above => exact sim_tell_frozen act act'
  | active frames =>
    exact sim_tell_active hp hi hSame
      fun k b r r' _ hCaptures hTracks hDone =>
        hStep k b r r' frames hCaptures hTracks hDone

/- An action inside of a frame moves no frames. -/
theorem step_inner
    {act : Action Unit Shown}
    (hInner : act.Inner)
    {b : Action Unit Snapshot}
    {r r' : Recorder}
    {frames : List Frame}
    (hCaptures : act.Captures b)
    (hTracks : r.Tracks frames)
    (hDone : r.Commits b span r') :
    r'.Tracks frames ∧ r'.forest.mirrors frames = true := by
  have hOpens := hCaptures.opens.trans hInner.1
  have hEnds := hCaptures.ends.trans hInner.2
  refine ⟨hDone.tracks_inner hTracks ⟨hOpens, hEnds⟩,
    hDone.mirrors_of_ne ?_ frames⟩
  rw [hOpens]
  nofun

/- The end of a method is told. -/
theorem sim_leave_stage
    {U : Teller}
    (hU : U = (Splice.mirroring o exclusions).teller)
    {r r' : SiteRunner}
    (hp : Paired M p p)
    (hi : Invokers Slack.noValue Bond.tracked M r.invoke r'.invoke)
    (span : Span)
    (method : String)
    (how : Exit Shown)
    (g : Stage) :
    Sim Slack.noValue (Linked (Bond.tracked.holds g) s)
      (fun _ _ m m' =>
        Linked (Bond.tracked.ended method g) s m m')
      hard (U.leave p r n span method how)
      (U.leave p r' n span method how) := by
  subst hU
  change Sim _ _ _ _
    ((Splice.mirroring o exclusions).teller.tell p r.invoke n span
      fun _ => .exit () method how)
    ((Splice.mirroring o exclusions).teller.tell p r'.invoke n span
      fun _ => .exit () method how)
  cases g with
  | frozen base t above => exact sim_tell_frozen _ _
  | active frames =>
    have hStep : ∀ (k : Machine) b (r r' : Recorder),
        k.frames = frames →
        (Action.exit () method how).Captures b →
        r.Tracks frames → r.Commits b span r' →
        r'.Tracks (outside frames) ∧
          r'.forest.mirrors frames = true := by
      intro k b r₁ r₂ _ hb hTracks hDone
      refine ⟨hDone.tracks_exit hTracks hb.ends,
        hDone.mirrors_of_ne ?_ _⟩
      rw [hb.opens]
      nofun
    refine (sim_tell_active hp hi (fun _ _ _ => rfl) hStep).weaken
      (fun _ _ hm => hm) (fun _ _ m m' hm => hm.twin ?_)
      (fun _ _ _ hm => hm)
    rintro g rest rfl hTold
    rcases hm.world.joint.2 with ⟨hφ, h⟩
    have hOutside : outside (g :: rest) = rest := by
      simp [outside, hTold]
    rw [hOutside] at h
    exact ⟨congrArg List.tail hφ, h⟩

/- A frame is marked while a value is captured. -/
theorem sim_mark_frozen
    {base : List Frame}
    {t : Recorder}
    {above : Nat} :
    Sim Slack.noValue
      (Linked (.twin (Stage.frozen base t (above + 1)).known) s)
      (fun _ _ m m' => Linked
        (.twin (Stage.frozen base t (above + 1)).known) s m m')
      hard markInstrumented markInstrumented := by
  intro m m' hm
  have hKnown := hm.world.joint.2
  unfold markInstrumented
  rw [modify_apply, modify_apply, hm.twin_frames]
  cases hFrames : m.frames with
  | nil => exact .ok hm
  | cons f rest =>
    rw [hFrames] at hKnown
    exact .ok (hm.twin_reframe _ hKnown)

/- A marked frame belongs to nothing until its start is told. -/
theorem sim_mark_active
    {frames : List Frame}
    (cls method : String) :
    Sim Slack.noValue
      (Linked (.twin (Tracking (⟨cls, method, false⟩ :: frames)
        (⟨cls, method, false⟩ :: frames))) s)
      (fun _ _ m m' => Linked (.twin
        (Tracking (⟨cls, method, true⟩ :: frames) frames)) s m m')
      hard markInstrumented markInstrumented := by
  intro m m' hm
  rcases hm.world.joint.2 with ⟨hFrames, t, ht, hOn, hTracks⟩
  have hFrames : m.frames = ⟨cls, method, false⟩ :: frames :=
    hFrames
  unfold markInstrumented
  rw [modify_apply, modify_apply, hm.twin_frames, hFrames]
  exact .ok (hm.twin_reframe _
    ⟨rfl, t, ht, hOn, hTracks.behind rfl⟩)

/- The start of a method is told once its frame is marked. -/
theorem sim_entering_stage
    {U : Teller}
    (hU : U = (Splice.mirroring o exclusions).teller)
    {r r' : SiteRunner}
    (hp : Paired M p p)
    (hi : Invokers Slack.noValue Bond.tracked M r.invoke r'.invoke)
    (c : ClassDef)
    (d : MethodDef)
    (g : Stage) :
    Sim Slack.noValue
      (Linked
        (Bond.tracked.holds (g.push ⟨c.name, d.name, false⟩)) s)
      (fun _ _ m m' => Linked
        (Bond.tracked.holds (g.push ⟨c.name, d.name, false⟩).mark)
        s m m')
      hard (U.entering p r n c d) (U.entering p r' n c d) := by
  subst hU
  change Sim _ _ _ _
    (do
      markInstrumented
      (Splice.mirroring o exclusions).teller.tell p r.invoke n d.span
        fun k => .enter ⟨c.name, d.name, d.signature⟩
          (enclosingFrames k.frames)
      pure ())
    (do
      markInstrumented
      (Splice.mirroring o exclusions).teller.tell p r'.invoke n
        d.span fun k => .enter ⟨c.name, d.name, d.signature⟩
          (enclosingFrames k.frames)
      pure ())
  simp only [bind_pure_unit]
  cases g with
  | frozen base t above =>
    exact sim_mark_frozen.bind fun _ _ => sim_tell_frozen _ _
  | active frames =>
    refine (sim_mark_active c.name d.name).bind fun _ _ => ?_
    refine sim_tell_active hp hi ?_ ?_
    · intro m m' hm
      rw [hm.twin_frames]
    · intro k b r₁ r₂ hFrames hb hTracks hDone
      have hEnter := hb.enter _ _ rfl
      rw [hFrames] at hEnter
      subst hEnter
      exact ⟨hDone.tracks_enter hTracks rfl rfl,
        hDone.mirrors_enter hTracks rfl rfl⟩

/- One program told twice is tracked. -/
theorem retellers_tracked
    (hPasses : p.passes Test.source = true)
    {U : Teller}
    (hU : U = (Splice.mirroring o exclusions).teller) :
    Retellers Slack.noValue Bond.tracked (fun _ _ g => g)
      (fun _ g => g.mark) p U U Test.source where
  ahead := fun hOdd => absurd ⟨rfl, rfl⟩ hOdd
  leavesOut := rfl
  rets := fun _ => trivial
  passes := hPasses
  sourceExpr := fun _ he => he
  sourceStmt := fun _ hs => hs
  compounds := .inl rfl
  lostCalled := fun _ _ _ _ _ h => h
  lostInto := fun _ g a b h => by
    cases g with
    | active frames => trivial
    | frozen base t above => exact h
  endedInto := fun _ g a b ⟨hSame, h⟩ => by
    refine ⟨hSame, ?_⟩
    cases g with
    | frozen base t above => exact h
    | active frames =>
      rintro f rest rfl hBare
      exact h _ _ rfl rfl
  stuck := fun m _ _ _ _ _ hRet _ => by
    subst hU
    exact .inl ⟨noValue, if_neg hRet, rfl⟩
  tell := fun n k i i' hk hi span act act' hInner hSame g s hs => by
    cases hk.same rfl rfl
    subst hU
    exact (sim_tell_stage (Teller.paired_same hPasses) hi g
      (fun m m' hm => (hSame g s hs m m' hm).same (.inl rfl))
      fun k _ _ _ _ => step_inner (hInner k)).weaken
      (fun _ _ hm => hm) (fun _ _ _ _ hm => ⟨rfl, trivial, hm⟩)
      fun _ _ _ hm => Bond.tracked.cut_hard hm
  tellCall := fun n k i i' hk hi span callee receiver args g s => by
    cases hk.same rfl rfl
    subst hU
    refine sim_tell_stage (Teller.paired_same hPasses) hi g
      (fun _ _ _ => rfl) fun k b r r' frames hb hTracks hDone => ?_
    refine ⟨hDone.tracks_call hTracks hb.opens hb.ends,
      hDone.mirrors_of_ne ?_ frames⟩
    rw [hb.opens]
    nofun
  tellResume := fun n k i i' hk hi span cls method how how' g s
      hSame => by
    cases hk.same rfl rfl
    subst hU
    rw [hSame rfl]
    refine sim_tell_stage (Teller.paired_same hPasses) hi g
      (fun _ _ _ => rfl) fun k b r r' frames hb hTracks hDone => ?_
    refine ⟨hDone.tracks_resume hTracks hb.ends,
      hDone.mirrors_of_ne ?_ frames⟩
    rw [hb.opens]
    nofun
  tellLeave := fun n k r r' hk hi span method how g s => by
    cases hk.same rfl rfl
    exact sim_leave_stage hU (Teller.paired_same hPasses) hi span
      method how g
  entering := fun n k r r' hk hi c d g s => by
    cases hk.same rfl rfl
    exact sim_entering_stage hU (Teller.paired_same hPasses) hi c d
      g
  loaded := fun e v => by
    subst hU
    exact Yields.pure trivial
  lookBack := fun e v => by
    subst hU
    exact Yields.pure rfl
  look := fun e v => by
    subst hU
    exact Yields.pure trivial
  value := fun e a b hResult => by
    subst hU
    refine Yields.pure ⟨?_, rfl, fun hOdd => absurd ⟨rfl, rfl⟩ hOdd⟩
    rcases hResult with hSame | ⟨v, rfl, rfl⟩
    · exact hSame
    · rfl
  ended := fun m J => by
    subst hU
    intro since k k' _
    by_cases hRet : m.ret = .void
    · exact .inl ⟨if_pos hRet, if_pos hRet⟩
    · exact .inr (.inr ⟨noValue, if_neg hRet, rfl⟩)

end Telling

------------------------------------------------------------
-- Calls from the Host
------------------------------------------------------------

section Calls

variable {o : Options}
variable {exclusions : List Pattern}
variable {p q : Program}
variable {m : Machine}

/- The observer depends on frames and recorders only. -/
theorem Observer.coarse_mirroring : Observer.mirroring.Coarse where
  loaded := fun _ _ _ => rfl
  locals := fun x m l => by cases x <;> rfl
  ended := fun d d' _ h => by
    simp only [Observer.mirroring, h.ret]

/- A machine between calls that is like one whose run is told. -/
def Mirrored (m : Machine) : Prop :=
  ∃ k, World (.twin (Tracking [] [])) {} k k ∧
    World Joint.level {} k m

/- A machine that has run nothing is between calls. -/
theorem mirrored_recorded
    (maxDepth : Nat)
    (echo : Bool)
    (time : Timestamp) :
    Mirrored (.recorded maxDepth echo time) := by
  refine ⟨.recorded maxDepth echo time, ?_,
    ⟨rfl, rfl, rfl, rfl, rfl, rfl, .refl _⟩⟩
  refine ⟨rfl, rfl, rfl, rfl, rfl, ⟨rfl, rfl, ?_⟩, .refl _⟩
  exact ⟨.create echo time, rfl, rfl,
    ⟨Recorder.ordered_create echo time, .nil⟩⟩

/- The telling run of a call from the host is tracked. -/
theorem hosted_tracked
    (o : Options)
    (exclusions : List Pattern)
    (hSource : p.passes Test.source = true)
    (fuel : Nat)
    (c : HostCall) :
    Sim Slack.noValue (World (.twin (Tracking [] [])) {})
      (fun a b m n => a = b ∧
        World (.twin (Tracking [] [])) {} m n)
      (Bond.tracked.cut (.active []) fun J => World J {})
      (Call.hosted p
        ((Splice.mirroring o exclusions).teller.invoke p fuel) c)
      (Call.hosted p
        ((Splice.mirroring o exclusions).teller.invoke p fuel)
        c) := by
  have hRetellers : Retellers Slack.noValue Bond.tracked
      (fun _ _ g => g) (fun _ g => g.mark) p
      (Splice.mirroring o exclusions).teller
      (Splice.mirroring o exclusions).teller Test.source :=
    retellers_tracked hSource rfl
  exact hRetellers.hosted (.inl rfl) c (.active [])

/-
  A call never stops at an event that does not name the frames,
  and afterwards all activations are closed.
-/
theorem Mirrored.request
    (hSource : p.passes Test.source = true)
    (hInstrument : instrument o p = .ok q)
    (h : Mirrored m)
    (fuel : Nat)
    (c : HostCall)
    {r : Except Interrupt Val}
    {m' : Machine}
    (hRun : Machine.request .mirroring q fuel c.cls c.method c.args m
      = (r, m')) :
    r ≠ .error (.stopped misplaced) ∧ (Completes r → Mirrored m') := by
  rcases Instrument.exclusions_of_ok hInstrument with
    ⟨exclusions, hExclusions⟩
  have hPaired := paired_instrument hExclusions hSource hInstrument
  rcases h with ⟨k, hk, hm⟩
  have hTold := hosted_tracked o exclusions hSource fuel c k k hk
  have hFuel : Enough (.lacking false) fuel fuel :=
    .inr ⟨rfl, Nat.le_refl _⟩
  have hSpliced := hosted_spliced (X := .mirroring o exclusions)
    (Observer.coarse_mirroring.follows (fun _ _ _ => rfl) _)
    (Splice.fair_of_sound fun _ => rfl) hPaired ⟨rfl, rfl⟩ rfl hFuel c k m
    hm
  rw [Machine.request_eq_hosted] at hRun
  rw [hRun] at hSpliced
  generalize Call.hosted p
    ((Splice.mirroring o exclusions).teller.invoke p fuel) c k = t
    at hTold hSpliced
  cases hSpliced with
  | ok hPost =>
    cases hTold with
    | ok hTracked =>
      exact ⟨nofun, fun _ => ⟨_, hTracked.2, hPost.2⟩⟩
  | alike hAlike hCut =>
    cases hAlike with
    | throw v hv =>
      cases hTold with
      | alike hAlike hTracked =>
        cases hAlike
        exact ⟨nofun, fun _ => ⟨_, hTracked, hCut⟩⟩
      | first hFirst => cases hFirst
      | second hSecond => cases hSecond
    | fault c d => exact ⟨nofun, nofun⟩
    | panic text _ => exact ⟨nofun, nofun⟩
    | outOfFuel => exact ⟨nofun, nofun⟩
    | stopped why _ =>
      refine ⟨?_, nofun⟩
      intro hWhy
      cases hWhy
      -- The telling run does not stop for that reason.
      cases hTold with
      | alike hAlike _ =>
        cases hAlike with
        | stopped _ hHalts => cases hHalts
      | first hFirst => exact absurd hFirst (by decide)
      | second hSecond => cases hSecond
    | answered why s hAnswers => cases hAnswers
  | @first c _ _ hFirst => cases c <;> cases hFirst
  | @second d _ _ hSecond =>
    cases d with
    | outOfFuel => exact ⟨nofun, nofun⟩
    | _ => cases hSecond

/- Machines that the host reaches are between calls. -/
theorem mirrored_of_reaches
    (hSource : p.passes Test.source = true)
    (hInstrument : instrument o p = .ok q)
    {m₀ : Machine}
    (h₀ : Mirrored m₀)
    (h : Machine.Reaches .mirroring q Completes m₀ m) :
    Mirrored m := by
  induction h with
  | refl => exact h₀
  | call fuel c _ hRun hEnd ih =>
    exact (ih.request hSource hInstrument fuel c hRun).2 hEnd

/-
  The trace mirrors the frames. In no run of an instrumented
  program, on a machine to which a recorder was attached from
  the start and whose calls have all completed so far, a method
  starts with an event that, together with the events around it,
  does not name exactly the frames of the run. The run is
  followed up to the first body that should return a value and
  does not.
-/
theorem never_misplaced
    (hSource : p.passes Test.source = true)
    (hInstrument : instrument o p = .ok q)
    (maxDepth : Nat)
    (echo : Bool)
    (time : Timestamp)
    (hReaches : Machine.Reaches .mirroring q Completes
      (.recorded maxDepth echo time) m)
    (fuel : Nat)
    (c : HostCall) :
    (Machine.request .mirroring q fuel c.cls c.method c.args m).1
      ≠ .error (.stopped misplaced) :=
  ((mirrored_of_reaches hSource hInstrument
    (mirrored_recorded maxDepth echo time) hReaches).request hSource
    hInstrument fuel c rfl).1

end Calls

/- The frames of the sum are mirrored. -/
theorem never_misplaced_sum :
    ∃ q, instrument {} sumProgram = .ok q ∧
      ∀ echo time fuel,
        (Machine.request .mirroring q fuel "Main" "main" []
            (.recorded 64 echo time)).1
          ≠ .error (.stopped misplaced) := by
  have hInstrument : ∃ q, instrument {} sumProgram = .ok q :=
    ⟨_, rfl⟩
  rcases hInstrument with ⟨q, hq⟩
  refine ⟨q, hq, fun echo time fuel => ?_⟩
  exact never_misplaced (by decide) hq 64 echo time (.refl _) fuel
    ⟨"Main", "main", []⟩

end ExecTrace
