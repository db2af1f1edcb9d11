import ExecTrace.Proofs.Guarding.Brackets
import ExecTrace.Proofs.Journals

/-
  A recorder is transparent. The calls of an instrumented program
  are run twice, without a recorder and with one. The recorded
  run does the same and captures values besides, which changes
  nothing as long as no primitive is captured as a reference: such
  a capture takes an object identity, and the program can see that
  it is gone.

  Main declarations:
    * `Observer.discreet` and `Splice.discreet`
    * `retellers_discreet`
    * `EndsLike` and `Hindered`
    * `recording_is_transparent`
-/

namespace ExecTrace

open Run
open Teller (Retellers)
open Instrument (Options)

------------------------------------------------------------
-- Discreet Observers
------------------------------------------------------------

/-
  The observer that guards a run, and stops it also before a
  primitive is captured as a reference.
-/
def Observer.discreet : Observer
  | .captured kind v, m =>
    if isMisfit kind v then some misfit
    else Observer.guarding (.captured kind v) m
  | x, m => Observer.guarding x m

/- A run that is guarded, in which no misfit is captured. -/
def Splice.discreet
    (o : Options)
    (exclusions : List Pattern) : Splice :=
  ⟨o, exclusions, .discreet, fun _ => true⟩

/- The observer depends on frames only. -/
theorem Observer.coarse_discreet : Observer.discreet.Coarse where
  loaded := fun _ _ _ => rfl
  locals := fun x m l => by cases x <;> rfl
  ended := fun d d' _ h => by
    simp only [Observer.discreet, Observer.guarding, h.ret]

/- The discreet observer guards a run. -/
instance
    {o : Options}
    {exclusions : List Pattern} :
    (Splice.discreet o exclusions).Guards where
  sound := fun _ => rfl
  coarse := Observer.coarse_discreet
  values := fun _ _ _ => rfl
  recorded := fun _ => rfl
  captured := fun kind v m h => by
    by_contra hFits
    simp only [Splice.discreet, Observer.discreet, Observer.guarding,
      hFits] at h
    split at h <;> cases h
  leaving := fun name m h => by
    by_contra hBare
    simp [Splice.discreet, Observer.discreet, Observer.guarding,
      hBare] at h
  ended := fun d m h => by
    by_contra hValue
    simp [Splice.discreet, Observer.discreet, Observer.guarding,
      hValue] at h

/- Discreet runs tell every action, and look at no recorder. -/
theorem Splice.plain_discreet
    (o : Options)
    (exclusions : List Pattern) :
    (Splice.discreet o exclusions).Plain where
  sound := fun _ => rfl
  recorded := fun _ => rfl
  wary :=
    { misfits := fun kind v m h => by
        simp [Splice.discreet, Observer.discreet, h]
      uniform := fun _ _ _ _ => rfl }

/- Why a discreet run stops before a value is captured. -/
def isUncaptured (why : String) : Bool :=
  why == misfit || why == unfitting

/- A discreet run stops for one of two reasons at a capture. -/
theorem Observer.uncaptured_discreet
    {kind : Kind}
    {v : Val}
    {m : Machine}
    {why : String}
    (h : Observer.discreet (.captured kind v) m = some why) :
    isUncaptured why = true := by
  simp only [Observer.discreet, Observer.guarding] at h
  split at h
  · cases h
    rfl
  · split at h <;> cases h
    rfl

/-
  What excuses a comparison of a run without a recorder with one
  that is recorded: that fuel is lacking, and that the recorded run
  cannot record an action.
-/
def Slack.discreet : Slack :=
  { misses := isUncaptured
    slips := true
    short := true
    behind := true }

section Telling

variable {o : Options}
variable {exclusions : List Pattern}
variable {p : Program}
variable {i j : Invoker}
variable {n k : Nat}
variable {s : Shape}
variable {span : Span}
variable {m m' : Machine}
variable {act act' : Machine → Action Unit Shown}

/- The frames of both machines are the same. -/
theorem Linked.unwritten_frames
    (hm : Linked .unwritten s m m') : m'.frames = m.frames :=
  hm.world.joint.1

/- An action that cannot be captured is an excuse. -/
theorem second_discreet
    (hPasses : p.passes Test.source = true)
    {h : Heap}
    {a : Action Unit Shown}
    {c : Interrupt}
    (hRun : (Splice.discreet o exclusions).captured p n h a
      = .error c) : Slack.discreet.second c = true := by
  have hHard := Splice.hard_captured hRun {} {}
  cases c with
  | throw v => exact absurd rfl (hHard.1 v)
  | fault cause => exact absurd rfl (hHard.2 cause)
  | stopped why =>
    exact (Splice.plain_discreet o exclusions).stopped_captured
      hPasses isUncaptured
      (fun _ _ _ _ => Observer.uncaptured_discreet) hRun
  | _ => rfl

/- An action is told to the second machine alone. -/
theorem sim_tell_discreet
    (hp : p.isTextless = true)
    (hPasses : p.passes Test.source = true) :
    Sim Slack.discreet (Linked .unwritten s)
      (fun _ _ m m' => Linked .unwritten s m m') hard
      ((Splice.discreet o exclusions).teller.tell p i n span act)
      ((Splice.discreet o exclusions).teller.tell p j k span
        act') := by
  intro m m' hm
  rcases hm.world.joint with ⟨hFrames, hNone, r, hr, hOn⟩
  rw [Splice.idle_of_sound (fun _ => rfl) _ _ _ _ _ _ hNone,
    (Splice.plain_discreet o exclusions).tell_noting hp hr hOn]
  cases hRun : (Splice.discreet o exclusions).captured p k m'.heap
      (act' m') with
  | error c => exact .second (second_discreet hPasses hRun)
  | ok a =>
    simp only [noting]
    cases hCommit : r.commit a span with
    | error why => exact .second (d := misuse why) rfl
    | ok r' =>
      refine .ok (hm.onJoint (K := .unwritten) ?_)
      exact ⟨hFrames, hNone, r', rfl,
        (Recorder.suspended_of_commit hCommit).trans hOn⟩

/- The same is watched on both sides. -/
theorem sim_watch_discreet
    (x : Moment)
    (hx : ∀ m n, n.frames = m.frames →
      Observer.discreet x n = Observer.discreet x m) :
    Sim Slack.discreet (Linked .unwritten s)
      (fun _ _ m m' => Linked .unwritten s m m') hard
      (watch .discreet x) (watch .discreet x) := by
  intro m m' hm
  unfold watch
  rw [hx m m' hm.unwritten_frames]
  cases Observer.discreet x m with
  | none => exact .ok hm
  | some why => exact .alike (.stopped why rfl) ⟨nofun, nofun⟩

/- A frame is marked on both sides. -/
theorem sim_mark_unwritten :
    Sim Slack.discreet (Linked .unwritten s)
      (fun _ _ m m' => Linked .unwritten s m m') hard
      markInstrumented markInstrumented := by
  intro m m' hm
  have hJoint := hm.world.joint
  unfold markInstrumented
  rw [modify_apply, modify_apply, hm.unwritten_frames]
  cases hFrames : m.frames with
  | nil => exact .ok hm
  | cons f rest =>
    refine .ok (hm.onJoint (K := .unwritten) ⟨rfl, hJoint.2⟩)

/- One program, told without a recorder and with one. -/
theorem retellers_discreet
    (o : Options)
    (exclusions : List Pattern)
    (hp : p.isTextless = true)
    (hPasses : p.passes Test.source = true) :
    Retellers Slack.discreet Bond.unwritten (fun _ _ g => g)
      (fun _ g => g) p (Splice.discreet o exclusions).teller
      (Splice.discreet o exclusions).teller Test.source where
  ahead := fun hOdd => absurd ⟨rfl, rfl⟩ hOdd
  leavesOut := rfl
  rets := fun _ => trivial
  passes := hPasses
  sourceExpr := fun _ he => he
  sourceStmt := fun _ hs => hs
  compounds := .inl rfl
  lostCalled := fun _ _ _ _ _ h => h
  lostInto := fun _ _ _ _ h => h
  endedInto := fun _ _ _ _ h => h
  stuck := fun _ _ _ _ _ _ _ hw => .inr hw.joint
  tell := fun _ _ _ _ _ _ _ _ _ _ _ _ _ _ =>
    (sim_tell_discreet hp hPasses).weaken (fun _ _ hm => hm)
      (fun _ _ _ _ hm => ⟨rfl, trivial, hm⟩)
      fun _ _ _ hm => Bond.unwritten.cut_hard hm
  tellCall := fun _ _ _ _ _ _ _ _ _ _ _ _ =>
    sim_tell_discreet hp hPasses
  tellResume := fun _ _ _ _ _ _ _ _ _ _ _ _ _ _ =>
    sim_tell_discreet hp hPasses
  tellLeave := fun _ _ _ _ _ _ _ method _ _ _ => by
    refine (sim_watch_discreet (.leaving method) ?_).bind fun _ _ =>
      sim_tell_discreet hp hPasses
    intro m n hFrames
    simp only [Observer.discreet, Observer.guarding, hFrames]
  entering := fun n k r r' _ _ c d g s => by
    refine sim_mark_unwritten.bind fun _ _ => ?_
    exact (sim_tell_discreet hp hPasses).bind fun _ _ =>
      Sim.pure fun _ _ hm => hm
  loaded := fun e v => Yields.pure trivial
  lookBack := fun e v => Yields.pure rfl
  look := fun e v => Yields.pure trivial
  value := fun e a b hResult => by
    have hSame : a = b := by
      rcases hResult with hSame | ⟨v, rfl, rfl⟩
      · exact hSame
      · rfl
    subst hSame
    exact Yields.pure
      ⟨rfl, rfl, fun hOdd => absurd ⟨rfl, rfl⟩ hOdd⟩
  ended := fun d _ _ _ _ _ => by
    by_cases hVoid : d.ret = .void
    · exact .inl ⟨if_pos hVoid, if_pos hVoid⟩
    · exact .inr (.inl ⟨noValue, if_neg hVoid, if_neg hVoid, rfl⟩)

end Telling

------------------------------------------------------------
-- Ends that are Alike
------------------------------------------------------------

/- The same ends, on related machines. -/
def EndsLike
    (K : Machine → Machine → Prop) : End Val → End Val → Prop :=
  Clean (fun a b m n => a = b ∧ K m n) fun _ => K

namespace EndsLike

variable {K L M : Machine → Machine → Prop}
variable {x y z : End Val}

/- Ends are alike in both directions. -/
theorem symm
    (h : EndsLike K x y)
    (hBack : ∀ m n, K m n → L n m) : EndsLike L y x := by
  cases h with
  | ok hPost => exact .ok ⟨hPost.1.symm, hBack _ _ hPost.2⟩
  | throw hv hK => exact .throw hv (hBack _ _ hK)
  | fault hK => exact .fault (hBack _ _ hK)
  | outOfFuel => exact .outOfFuel

/- Ends that are both like a third one are alike. -/
theorem trans
    (h : EndsLike K x y)
    (h' : EndsLike L y z)
    (hJoin : ∀ m n k, K m n → L n k → M m k) : EndsLike M x z := by
  cases h with
  | ok hPost =>
    cases h' with
    | ok hPost' =>
      exact .ok ⟨hPost.1.trans hPost'.1, hJoin _ _ _ hPost.2 hPost'.2⟩
  | throw hv hK =>
    cases h' with
    | throw _ hL => exact .throw hv (hJoin _ _ _ hK hL)
  | fault hK =>
    cases h' with
    | fault hL => exact .fault (hJoin _ _ _ hK hL)
  | outOfFuel =>
    cases h' with
    | outOfFuel => exact .outOfFuel

/- An end that is like one that settles settles. -/
theorem settles
    (h : EndsLike K x y)
    (hEnd : Settles x.1) : Settles y.1 := by
  cases h with
  | ok => trivial
  | throw => trivial
  | fault => trivial
  | outOfFuel => cases hEnd

/- Ends that settle on machines that are related otherwise. -/
theorem imp
    (h : EndsLike K x y)
    (hImp : ∀ m n, K m n → L m n) : EndsLike L x y := by
  cases h with
  | ok hPost => exact .ok ⟨hPost.1, hImp _ _ hPost.2⟩
  | throw hv hK => exact .throw hv (hImp _ _ hK)
  | fault hK => exact .fault (hImp _ _ hK)
  | outOfFuel => exact .outOfFuel

end EndsLike

/- Runs of which one settles end alike, or there is an excuse. -/
theorem Outcome.like
    {S : Slack}
    {K : Machine → Machine → Prop}
    {post : Val → Val → Machine → Machine → Prop}
    {cut : Cut}
    {x y : End Val}
    (h : Outcome S post cut x y)
    (hEnd : Settles x.1 ∨ Settles y.1)
    (hPost : ∀ a b m n, post a b m n → a = b ∧ K m n)
    (hThrow : ∀ v m n, cut (.throw v) m n → K m n)
    (hFault : ∀ c m n, cut (.fault c) m n → K m n) :
    EndsLike K x y ∨ (∃ c, x.1 = .error c ∧ S.first c = true) ∨
      ∃ d, y.1 = .error d ∧ S.second d = true := by
  cases h with
  | ok h => exact .inl (.ok (hPost _ _ _ _ h))
  | alike hAlike hCut =>
    cases hAlike with
    | throw v hv => exact .inl (.throw hv (hThrow v _ _ hCut))
    | fault c d => exact .inl (.fault (hFault c _ _ hCut))
    | _ => rcases hEnd with hEnd | hEnd <;> cases hEnd
  | first h => exact .inr (.inl ⟨_, rfl, h⟩)
  | second h => exact .inr (.inr ⟨_, rfl, h⟩)

------------------------------------------------------------
-- Calls from the Host
------------------------------------------------------------

section Calls

variable {o : Options}
variable {exclusions : List Pattern}
variable {p q : Program}
variable {m m' k k' : Machine}

/- Calls that are told without a recorder and with one. -/
theorem hosted_discreet
    (o : Options)
    (exclusions : List Pattern)
    (hSource : p.passes Test.source = true)
    (hp : p.isTextless = true)
    (fuel : Nat)
    (c : HostCall) :
    Sim Slack.discreet (World .unwritten {})
      (fun a b m n => a = b ∧ World .unwritten {} m n)
      (Bond.unwritten.cut () fun J => World J {})
      (Call.hosted p
        ((Splice.discreet o exclusions).teller.invoke p fuel) c)
      (Call.hosted p
        ((Splice.discreet o exclusions).teller.invoke p fuel) c) :=
  (retellers_discreet o exclusions hp hSource).hosted (.inl rfl) c ()

/-
  A call ends alike without a recorder and with one, or the
  recorded call is hindered.
-/
theorem request_unwritten
    (hSource : p.passes Test.source = true)
    (hp : p.isTextless = true)
    (hPaired : Paired (splicedPairing o exclusions) p q)
    (h : World .unwritten {} m k)
    (fuel fuel' : Nat)
    (c : HostCall)
    (hEnd : Settles
      (Machine.request .discreet q fuel c.cls c.method c.args m).1) :
    EndsLike (World .unwritten {})
        (Machine.request .discreet q fuel c.cls c.method c.args m)
        (Machine.request .discreet q fuel' c.cls c.method c.args k) ∨
      ∃ d, (Machine.request .discreet q fuel' c.cls c.method c.args
          k).1 = .error d ∧ Slack.discreet.second d = true := by
  have hLeft := request_told (.discreet o exclusions) hPaired
    (Nat.le_max_left fuel fuel') c m
  have hRight := request_told (.discreet o exclusions) hPaired
    (Nat.le_max_right fuel fuel') c k
  have hTold := hosted_discreet o exclusions hSource hp
    (max fuel fuel') c m k h
  have hLevel : (Splice.discreet o exclusions).observer = .discreet :=
    rfl
  rw [hLevel] at hLeft hRight
  generalize Machine.request .discreet q fuel c.cls c.method c.args m
    = x at hLeft hEnd ⊢
  generalize Machine.request .discreet q fuel' c.cls c.method c.args k
    = y at hRight ⊢
  generalize Call.hosted p ((Splice.discreet o
    exclusions).teller.invoke p (max fuel fuel')) c m = s
    at hLeft hTold
  generalize Call.hosted p ((Splice.discreet o
    exclusions).teller.invoke p (max fuel fuel')) c k = t
    at hRight hTold
  have hFirst : EndsLike (World Joint.level {}) s x := by
    rcases hLeft.like (K := World Joint.level {}) (.inr hEnd)
      (fun _ _ _ _ h => h) (fun _ _ _ h => h) (fun _ _ _ h => h) with
      hLike | ⟨c, _, hSlack⟩ | ⟨d, hd, hSlack⟩
    · exact hLike
    · cases c <;> cases hSlack
    · rw [hd] at hEnd
      cases d with
      | outOfFuel => cases hEnd
      | _ => cases hSlack
  have hBack : EndsLike (fun n m => World Joint.level {} m n) x s :=
    hFirst.symm fun _ _ h => h
  have hSettles : Settles s.1 := hBack.settles hEnd
  rcases hTold.like (K := World .unwritten {}) (.inl hSettles)
    (fun _ _ _ _ h => h) (fun _ _ _ h => h) (fun _ _ _ h => h) with
    hLike | ⟨c, hc, hSlack⟩ | ⟨d, hd, hSlack⟩
  · rcases hRight.like (K := World Joint.level {})
      (.inl (hLike.settles hSettles)) (fun _ _ _ _ h => h)
      (fun _ _ _ h => h) (fun _ _ _ h => h) with
      hSecond | ⟨c, _, hSlack⟩ | ⟨d, hd, hSlack⟩
    · have hJoined : EndsLike (World .unwritten {}) s y :=
        hLike.trans hSecond fun _ _ _ hWorld hLevel => by
          rw [hLevel.eq_of_level]
          exact hWorld.locals _ _
      refine .inl (hBack.trans hJoined fun _ _ _ hLevel hWorld => ?_)
      rw [hLevel.eq_of_level]
      exact hWorld.locals _ _
    · cases c <;> cases hSlack
    · refine .inr ⟨d, hd, ?_⟩
      cases d <;> first | rfl | cases hSlack
  · rw [hc] at hSettles
    cases c with
    | outOfFuel => cases hSettles
    | _ => cases hSlack
  · -- What hinders the telling run hinders the recorded one.
    rcases t with ⟨t, k'⟩
    cases hd
    cases hRight with
    | alike hAlike _ =>
      cases hAlike with
      | throw v _ => cases hSlack
      | fault c d => cases hSlack
      | panic text _ => exact .inr ⟨_, rfl, hSlack⟩
      | outOfFuel => exact .inr ⟨_, rfl, hSlack⟩
      | stopped why _ => exact .inr ⟨_, rfl, hSlack⟩
      | answered why text hAnswers => cases hAnswers
    | first hExcuse => cases d <;> cases hExcuse
    | @second d _ _ hExcuse =>
      refine .inr ⟨d, rfl, ?_⟩
      cases d <;> first | rfl | cases hExcuse

/-
  How a call that is recorded may end otherwise: fuel or numbers
  are lacking, or it is stopped before a value is captured as
  something that it is not.
-/
def Hindered (r : Except Interrupt Val) : Prop :=
  r = .error .outOfFuel ∨ r = .error (misuse .exhausted) ∨
    r = .error (.stopped misfit) ∨ r = .error (.stopped unfitting)

/- Calls that settle keep two machines linked. -/
theorem serves_unwritten
    (hSource : p.passes Test.source = true)
    (hp : p.isTextless = true)
    (hPaired : Paired (splicedPairing o exclusions) p q)
    {cs : List HostCall}
    (h : World .unwritten {} m k)
    (hPlain : Machine.Serves .discreet q Settles m cs m')
    (hTraced : Machine.Serves .discreet q Settles k cs k') :
    World .unwritten {} m' k' := by
  induction cs generalizing m k with
  | nil =>
    cases hPlain
    cases hTraced
    exact h
  | cons c cs ih =>
    rcases hPlain with _ | ⟨fuel, hRun, hEnd, hPlain⟩
    rcases hTraced with _ | ⟨fuel', hRun', hEnd', hTraced⟩
    have hOne := request_unwritten hSource hp hPaired h fuel fuel' c
      (by rw [hRun]; exact hEnd)
    rw [hRun, hRun'] at hOne
    rcases hOne with hLike | ⟨d, hd, hSlack⟩
    · refine ih ?_ hPlain hTraced
      cases hLike with
      | ok hPost => exact hPost.2
      | throw _ hWorld => exact hWorld
      | fault hWorld => exact hWorld
      | outOfFuel => cases hEnd
    · cases hd
      cases d with
      | throw v => cases hSlack
      | fault cause => cases hSlack
      | _ => cases hEnd'

/-
  A recorder is transparent. If some calls of an instrumented
  program, in which no object has a text of its own, settle
  without a recorder and with one, then they leave the same
  objects and arrays, the same static fields, the same output and
  the same identities to be taken. A further call that settles
  without a recorder has the same result with one, throws the
  same exception, or fails as well. Otherwise the recorded call is
  hindered. This holds of all calls that are discreet: bodies that
  have to return a value do, and methods return only after they
  have started to report.
-/
theorem recording_is_transparent
    (hSource : p.passes Test.source = true)
    (hTextless : p.isTextless = true)
    (hInstrument : instrument o p = .ok q)
    {maxDepth : Nat}
    {echo : Bool}
    {time : Timestamp}
    {cs : List HostCall}
    (hPlain : Machine.Serves .discreet q Settles (.fresh maxDepth) cs
      m)
    (hTraced : Machine.Serves .discreet q Settles
      (.recorded maxDepth echo time) cs k) :
    m.SameState k ∧ ∀ fuel fuel' (c : HostCall),
      Settles
        (Machine.request .discreet q fuel c.cls c.method c.args m).1 →
      EndsLike Machine.SameState
        (Machine.request .discreet q fuel c.cls c.method c.args m)
        (Machine.request .discreet q fuel' c.cls c.method c.args k) ∨
      Hindered (Machine.request .discreet q fuel' c.cls c.method
        c.args k).1 := by
  rcases Instrument.exclusions_of_ok hInstrument with
    ⟨exclusions, hExclusions⟩
  have hPaired := paired_instrument hExclusions hSource hInstrument
  have hStart : World .unwritten {} (.fresh maxDepth)
      (.recorded maxDepth echo time) :=
    ⟨rfl, rfl, rfl, rfl, rfl, ⟨rfl, rfl, _, rfl, rfl⟩,
      (World.level_self _).grown⟩
  have hWorld := serves_unwritten hSource hTextless hPaired hStart
    hPlain hTraced
  rcases between_of_settles (.discreet o exclusions) hSource
    hExclusions hInstrument
    (Machine.between_recorded p false maxDepth echo time)
    ((Machine.Reaches.refl _).serves hTraced) with ⟨tiers, hBetween⟩
  refine ⟨hWorld.sameState, fun fuel fuel' c hEnd => ?_⟩
  have hPanics : ∀ text,
      (Machine.request .discreet q fuel' c.cls c.method c.args k).1
        = .error (.panic text) →
      (Machine.request .discreet q fuel' c.cls c.method c.args k).1
        = .error (misuse .exhausted) :=
    (hBetween.completes (.discreet o exclusions)
      (admits_of_source hSource _ exclusions) hExclusions hInstrument
      rfl).1
  rcases request_unwritten hSource hTextless hPaired hWorld fuel fuel' c
    hEnd with hLike | ⟨d, hd, hSlack⟩
  · exact .inl (hLike.imp fun _ _ h => h.sameState)
  refine .inr ?_
  cases d with
  | outOfFuel => exact .inl hd
  | panic text => exact .inr (.inl (hPanics text hd))
  | stopped why =>
    have hWhy : (why == misfit || why == unfitting) = true := hSlack
    rw [Bool.or_eq_true, beq_iff_eq, beq_iff_eq] at hWhy
    rcases hWhy with rfl | rfl
    · exact .inr (.inr (.inl hd))
    · exact .inr (.inr (.inr hd))
  | _ => cases hSlack

end Calls

/- The sum is computed twice, without a recorder and with one. -/
theorem recording_is_transparent_sum :
    ∃ q m k, instrument {} sumProgram = .ok q ∧
      Machine.Serves .discreet q Settles (.fresh 64)
        [⟨"Main", "main", []⟩] m ∧
      Machine.Serves .discreet q Settles (.recorded 64 false .epoch)
        [⟨"Main", "main", []⟩] k ∧
      m.SameState k ∧
      Settles (Machine.request .discreet q 32 "Main" "main" [] m).1 ∧
      (EndsLike Machine.SameState
          (Machine.request .discreet q 32 "Main" "main" [] m)
          (Machine.request .discreet q 32 "Main" "main" [] k) ∨
        Hindered
          (Machine.request .discreet q 32 "Main" "main" [] k).1) := by
  have hInstrument : ∃ q, instrument {} sumProgram = .ok q :=
    ⟨_, rfl⟩
  rcases hInstrument with ⟨q, hq⟩
  have hRuns : (instrument {} sumProgram).toOption.all (fun q =>
      let plain := Machine.request .discreet q 32 "Main" "main" []
        (.fresh 64)
      let traced := Machine.request .discreet q 32 "Main" "main" []
        (.recorded 64 false .epoch)
      decide (Settles plain.1) && decide (Settles traced.1) &&
        decide (Settles (Machine.request .discreet q 32 "Main" "main"
          [] plain.2).1)) = true := by
    decide +kernel
  rw [hq] at hRuns
  simp only [Except.toOption, Option.all_some, Bool.and_eq_true,
    decide_eq_true_eq] at hRuns
  have hPlain := Machine.Serves.one ⟨"Main", "main", []⟩ hRuns.1.1
  have hTraced := Machine.Serves.one ⟨"Main", "main", []⟩ hRuns.1.2
  rcases recording_is_transparent (p := sumProgram) (by decide)
    (by decide) hq hPlain hTraced with ⟨hSame, hNext⟩
  exact ⟨q, _, _, hq, hPlain, hTraced, hSame, hRuns.2,
    hNext 32 32 ⟨"Main", "main", []⟩ hRuns.2⟩

/-
  A program that holds a number in a variable for objects, and
  returns the identity of an object.
-/
def identityProgram : Program :=
  ⟨[{ name := "Main"
      methods := [
        { name := "main"
          kind := .static
          ret := .int
          body := some [
            .declare "x" (.cls "Object") (some (.int 5)),
            .ofForm (.return (some (.callMethod (.new "Main" [])
              "Main" "hashCode" [] .int)))] }] }]⟩

/-
  The capture of a primitive as a reference takes an identity. The
  object has another one if the run is recorded.
-/
theorem recording_is_transparent_misfit :
    identityProgram.passes Test.source = true ∧
      identityProgram.isTextless = true ∧
      ∃ q, instrument {} identityProgram = .ok q ∧
        (Machine.request .typed q 32 "Main" "main" [] (.fresh 64)).1
          = .ok (.int 1) ∧
        (Machine.request .typed q 32 "Main" "main" []
          (.recorded 64 false .epoch)).1 = .ok (.int 2) := by
  have hInstrument : ∃ q, instrument {} identityProgram = .ok q :=
    ⟨_, rfl⟩
  rcases hInstrument with ⟨q, hq⟩
  have hRuns : (instrument {} identityProgram).toOption.map (fun q =>
      ((Machine.request .typed q 32 "Main" "main" [] (.fresh 64)).1,
        (Machine.request .typed q 32 "Main" "main" []
          (.recorded 64 false .epoch)).1))
      = some (.ok (.int 1), .ok (.int 2)) := by
    decide +kernel
  rw [hq] at hRuns
  have hBoth := Option.some.inj hRuns
  exact ⟨by decide, by decide, q, hq, congrArg Prod.fst hBoth,
    congrArg Prod.snd hBoth⟩

end ExecTrace
