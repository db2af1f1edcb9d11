import ExecTrace.Proofs.Guarding.Requests

/-
  The brackets of a traced program. As long as the calls of the
  host complete, the recorder is never misused, no frame stays
  open, and every closing event names the class and the method
  that the event named that it closes. A fault leaves frames open,
  but it closes none that were open before the call.

  Main declarations:
    * `request_brackets`
    * `request_keeps_frames`
-/

namespace ExecTrace

open Instrument (Options)

section Brackets

variable {o : Options}
variable {p q : Program}
variable {tiers : List Tier}
variable {m m' : Machine}

/- A source program is followed by a ledger that is not strict. -/
theorem admits_of_source
    (hSource : p.passes Test.source = true)
    (floor : List OpenFrame)
    (exclusions : List Pattern) :
    Admits ⟨p, false, floor⟩ exclusions :=
  ⟨hSource, nofun, nofun⟩

/- The violations of a trace that is kept are its open frames. -/
theorem Recorder.Keeps.validate_eq
    {r : Recorder}
    {strict : Bool}
    (h : r.Keeps p strict tiers) :
    r.forest.validate
      = r.frames.reverse.map fun f => .unclosed f.owner f.kind := by
  rcases h.sound with ⟨g, hSound⟩
  rw [hSound.validate_eq, ← List.map_reverse, List.map_map]
  rfl

/-
  Every traced run is bracketed. On a machine to which a recorder
  was attached from the start and whose calls have all completed
  so far, a further call of the host never misuses the recorder,
  which may only run out of numbers. If the call completes, no
  frame is open and the trace is valid, and every event that
  closes a frame names the class and the method of the event that
  opened it. The run is followed up to the first value that is
  captured as a value of a kind that it does not have.
-/
theorem request_brackets
    (hSource : p.passes Test.source = true)
    (hInstrument : instrument o p = .ok q)
    (maxDepth : Nat)
    (echo : Bool)
    (time : Timestamp)
    (hReaches : Machine.Reaches .guarding q Completes
      (.recorded maxDepth echo time) m)
    (fuel : Nat)
    (c : HostCall)
    {r : Except Interrupt Val}
    (hRun : Machine.request .guarding q fuel c.cls c.method c.args m
      = (r, m')) :
    (∀ text, r = .error (.panic text) →
      r = .error (misuse .exhausted)) ∧
    (Completes r → ∃ t, m'.recorder = some t ∧ t.depth = 0 ∧
      t.forest.validate = [] ∧
      ∀ e ∈ t.forest.nodes, ∀ id, e.closes = some id →
        ∃ d ∈ t.forest.nodes, d.id = id ∧ d.ClosedBy e) := by
  rcases Instrument.exclusions_of_ok hInstrument with
    ⟨exclusions, hExclusions⟩
  have hAdmits := admits_of_source hSource [] exclusions
  have hBetween := between_of_completes (.guarded o exclusions) hAdmits
    hExclusions hInstrument
    (Machine.between_recorded p false maxDepth echo time) hReaches
  have hDone := hBetween.completes (.guarded o exclusions) hAdmits
    hExclusions hInstrument hRun
  refine ⟨hDone.1, fun hEnd => ?_⟩
  rcases (hDone.2 hEnd).tape with ⟨t, ht, _, hKeeps⟩
  have hFrames : t.frames = [] := hKeeps.frames
  refine ⟨t, ht, ?_, ?_, fun e he id hCloses => ?_⟩
  · rw [Recorder.depth, hFrames]
    rfl
  · rw [hKeeps.validate_eq, hFrames]
    rfl
  · rcases hKeeps.kept.closedBy (Array.mem_toList_iff.mpr he) hCloses
      with ⟨d, hd, hSame⟩
    exact ⟨d, Array.mem_toList_iff.mp hd, hSame⟩

end Brackets

/-
  A program with a method that stores null among integers, and
  with a method that calls one that reads an unbound variable.
-/
def brittleProgram : Program :=
  let null : Expr := .literal .null
  ⟨[{ name := "Main"
      methods := [
        { name := "main"
          kind := .static
          ret := .int
          body := some [
            .declare "a" (.array .int) (some (.arrayOf .int [null])),
            .ofForm (.return (some (.int 1)))] },
        { name := "outer"
          kind := .static
          ret := .int
          body := some [
            .ofForm (.return (some
              (.callStatic "Main" "inner" [] .int)))] },
        { name := "inner"
          kind := .static
          ret := .int
          body := some [
            .ofForm (.return (some (.localVar "nope" .int)))] },
        { name := "fine"
          kind := .static
          ret := .int
          body := some [.ofForm (.return (some (.int 1)))] }] }]⟩

/-
  The program is instrumented, and its methods are run, followed by
  the guard and by nobody.
-/
theorem brittle_runs :
    ∃ q, instrument {} brittleProgram = .ok q ∧
      Completes (Machine.request .guarding q 32 "Main" "fine" []
        (.recorded 64 false .epoch)).1 ∧
      (Machine.request .silent q 32 "Main" "main" []
        (.recorded 64 false .epoch)).1
        = .error (.panic (brokenInvariant
          "int operand evaluated to Null")) ∧
      (let outer := Machine.request .guarding q 32 "Main" "outer" []
        (.recorded 64 false .epoch)
      Settles outer.1 ∧
        outer.2.recorder.map Recorder.depth = some 3 ∧
        Settles (Machine.request .guarding q 32 "Main" "fine" []
          outer.2).1) ∧
      (let inner := Machine.request .silent q 32 "Main" "inner" []
        (.recorded 64 false .epoch)
      inner.1 = .error (.fault (.unboundLocal "nope")) ∧
        inner.2.recorder.map Recorder.depth = some 1) := by
  have hInstrument : ∃ q, instrument {} brittleProgram = .ok q :=
    ⟨_, rfl⟩
  rcases hInstrument with ⟨q, hq⟩
  have hRuns : (instrument {} brittleProgram).toOption.all (fun q =>
      let fine := Machine.request .guarding q 32 "Main" "fine" []
        (.recorded 64 false .epoch)
      let main := Machine.request .silent q 32 "Main" "main" []
        (.recorded 64 false .epoch)
      let outer := Machine.request .guarding q 32 "Main" "outer" []
        (.recorded 64 false .epoch)
      let inner := Machine.request .silent q 32 "Main" "inner" []
        (.recorded 64 false .epoch)
      decide (Completes fine.1) &&
        (decide (main.1 = .error (.panic (brokenInvariant
          "int operand evaluated to Null"))) &&
        ((decide (Settles outer.1) &&
          (decide (outer.2.recorder.map Recorder.depth = some 3) &&
          decide (Settles (Machine.request .guarding q 32 "Main" "fine"
            [] outer.2).1))) &&
        (decide (inner.1 = .error (.fault (.unboundLocal "nope"))) &&
          decide (inner.2.recorder.map Recorder.depth = some 1)))))
      = true := by
    decide +kernel
  rw [hq] at hRuns
  simp only [Except.toOption, Option.all_some, Bool.and_eq_true,
    decide_eq_true_eq] at hRuns
  exact ⟨q, hq, hRuns⟩

/-
  The call of a method that returns is bracketed, which no earlier
  call comes before.
-/
theorem request_brackets_fine :
    ∃ q, instrument {} brittleProgram = .ok q ∧
      ∃ t, (Machine.request .guarding q 32 "Main" "fine" []
          (.recorded 64 false .epoch)).2.recorder = some t ∧
        t.depth = 0 ∧ t.forest.validate = [] ∧
        ∀ e ∈ t.forest.nodes, ∀ id, e.closes = some id →
          ∃ d ∈ t.forest.nodes, d.id = id ∧ d.ClosedBy e := by
  rcases brittle_runs with ⟨q, hq, hCompletes, _⟩
  exact ⟨q, hq, (request_brackets (p := brittleProgram) (by decide) hq
    64 false .epoch (.refl _) 32 ⟨"Main", "fine", []⟩ rfl).2
      hCompletes⟩

/-
  Null among integers is no integer: if nobody follows the values,
  the recorder is misused, though not for a lack of numbers.
-/
theorem request_brackets_null :
    (Machine.request .silent brittleProgram 32 "Main" "main" []
        (.fresh 64)).1 = .ok (.int 1) ∧
      ∃ q text, instrument {} brittleProgram = .ok q ∧
        (Machine.request .silent q 32 "Main" "main" []
          (.recorded 64 false .epoch)).1 = .error (.panic text) ∧
        misuse .exhausted ≠ .panic text := by
  rcases brittle_runs with ⟨q, hq, _, hBroken, _⟩
  exact ⟨by decide +kernel, q, _, hq, hBroken, by decide⟩

section Faults

variable {o : Options}
variable {p q : Program}
variable {tiers : List Tier}
variable {m m' : Machine}

/-
  A call of the host that settles closes no frame that was open
  before it.
-/
theorem Machine.Between.settles
    (X : Splice)
    [X.Guards]
    (hSource : p.passes Test.source = true)
    (hExclusions : X.options.exclusions? = .ok X.exclusions)
    (hInstrument : instrument X.options p = .ok q)
    (h : m.Between p false tiers)
    {fuel : Nat}
    {c : HostCall}
    {r : Except Interrupt Val}
    (hRun : Machine.request X.observer q fuel c.cls c.method c.args m
      = (r, m'))
    (hEnd : Settles r) :
    ∃ tiers', m'.Between p false tiers' ∧
      tiers.map Tier.frame <:+ tiers'.map Tier.frame ∧
      (Completes r → tiers' = tiers) := by
  have hMet := h.request X (admits_of_source hSource _ X.exclusions)
    hExclusions hInstrument fuel c
  rw [hRun] at hMet
  cases hMet with
  | ok hm => exact ⟨_, hm, List.suffix_refl _, fun _ => rfl⟩
  | thrown hm => exact ⟨_, hm, List.suffix_refl _, fun _ => rfl⟩
  | lost hm =>
    rcases hm with ⟨hFrames, tiers', hTape, hSuffix⟩
    exact ⟨tiers', ⟨hFrames, hTape, nofun⟩, hSuffix, nofun⟩
  | exhausted => exact hEnd.elim
  | spent => exact hEnd.elim
  | stopped => exact hEnd.elim

/- Machines that the host reaches by calls that settle. -/
theorem between_of_settles
    (X : Splice)
    [X.Guards]
    (hSource : p.passes Test.source = true)
    (hExclusions : X.options.exclusions? = .ok X.exclusions)
    (hInstrument : instrument X.options p = .ok q)
    {m₀ : Machine}
    (h₀ : m₀.Between p false tiers)
    (h : Machine.Reaches X.observer q Settles m₀ m) :
    ∃ tiers', m.Between p false tiers' := by
  induction h with
  | refl => exact ⟨tiers, h₀⟩
  | call fuel c _ hRun hEnd ih =>
    rcases ih with ⟨tiers', hBetween⟩
    rcases hBetween.settles X hSource hExclusions hInstrument hRun hEnd
      with ⟨_, hm, _⟩
    exact ⟨_, hm⟩

/-
  A faulting call closes no frame but its own. On a machine to
  which a recorder was attached from the start and whose calls
  have settled so far, faults included, the frames that are open
  before a call of the host are open after it, below all others.
  No other frame is open after a call that completes. The open
  frames are all that is wrong with the trace.
-/
theorem request_keeps_frames
    (hSource : p.passes Test.source = true)
    (hInstrument : instrument o p = .ok q)
    (maxDepth : Nat)
    (echo : Bool)
    (time : Timestamp)
    (hReaches : Machine.Reaches .guarding q Settles
      (.recorded maxDepth echo time) m)
    (fuel : Nat)
    (c : HostCall)
    {r : Except Interrupt Val}
    (hRun : Machine.request .guarding q fuel c.cls c.method c.args m
      = (r, m'))
    (hEnd : Settles r) :
    ∃ t t', m.recorder = some t ∧ m'.recorder = some t' ∧
      t.frames <:+ t'.frames ∧
      (Completes r → t'.frames = t.frames) ∧
      t'.forest.validate
        = t'.frames.reverse.map
            fun f => .unclosed f.owner f.kind := by
  rcases Instrument.exclusions_of_ok hInstrument with
    ⟨exclusions, hExclusions⟩
  rcases between_of_settles (.guarded o exclusions) hSource hExclusions
    hInstrument (Machine.between_recorded p false maxDepth echo time)
    hReaches with ⟨tiers, hBetween⟩
  rcases hBetween.settles (.guarded o exclusions) hSource hExclusions
    hInstrument hRun hEnd with ⟨tiers', hAfter, hSuffix, hSame⟩
  rcases hBetween.tape with ⟨t, ht, _, hKeeps⟩
  rcases hAfter.tape with ⟨t', ht', _, hKeeps'⟩
  refine ⟨t, t', ht, ht', ?_, fun hCompletes => ?_,
    hKeeps'.validate_eq⟩
  · rw [hKeeps.frames, hKeeps'.frames]
    exact hSuffix
  · rw [hKeeps.frames, hKeeps'.frames, hSame hCompletes]

end Faults

/-
  A call that faults leaves three frames open: of the call and of
  the two methods. They are open behind a call that completes.
-/
theorem request_keeps_frames_fault :
    ∃ q m, instrument {} brittleProgram = .ok q ∧
      Machine.Reaches .guarding q Settles (.recorded 64 false .epoch)
        m ∧
      m.recorder.map Recorder.depth = some 3 ∧
      ∃ t t', m.recorder = some t ∧
        (Machine.request .guarding q 32 "Main" "fine" [] m).2.recorder
          = some t' ∧
        t.frames <:+ t'.frames ∧
        (Completes (Machine.request .guarding q 32 "Main" "fine" []
          m).1 → t'.frames = t.frames) ∧
        t'.forest.validate
          = t'.frames.reverse.map
              fun f => .unclosed f.owner f.kind := by
  rcases brittle_runs with
    ⟨q, hq, _, _, ⟨hSettles, hDepth, hNext⟩, _⟩
  have hReaches : Machine.Reaches .guarding q Settles
      (.recorded 64 false .epoch) (Machine.request .guarding q 32
        "Main" "outer" [] (.recorded 64 false .epoch)).2 :=
    .call 32 ⟨"Main", "outer", []⟩ (.refl _) rfl hSettles
  exact ⟨q, _, hq, hReaches, hDepth,
    request_keeps_frames (p := brittleProgram) (by decide) hq 64 false
      .epoch hReaches 32 ⟨"Main", "fine", []⟩ rfl hNext⟩

/- After a fault, frames may be open that were not open before. -/
theorem request_keeps_frames_open :
    ∃ q c, instrument {} brittleProgram = .ok q ∧
      (Machine.request .silent q 32 "Main" "inner" []
        (.recorded 64 false .epoch)).1 = .error (.fault c) ∧
      (Machine.recorded 64 false .epoch).recorder.map Recorder.depth
        = some 0 ∧
      (Machine.request .silent q 32 "Main" "inner" []
        (.recorded 64 false .epoch)).2.recorder.map Recorder.depth
          = some 1 := by
  rcases brittle_runs with ⟨q, hq, _, _, _, hFault, hDepth⟩
  exact ⟨q, _, hq, hFault, rfl, hDepth⟩

end ExecTrace
