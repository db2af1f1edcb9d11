import ExecTrace.Proofs.Capturing
import ExecTrace.Proofs.Splicing
import ExecTrace.Proofs.Telling

/-
  Spliced probes. A probe reads its operands from variables, so
  it reports the very action that a telling run tells, with the
  same values. Both runs record it in the same way, whether a
  recorder is attached or not.

  Main declarations:
    * `recordAs` and `agrees_recordLevel`
    * `Gives` and `Probe.gives_mapM`
    * `Tells`
    * `Splice` and `Splice.teller`
    * `sim_report`
-/

namespace ExecTrace

open Run
open Instrument (Options reporting probeAt)

------------------------------------------------------------
-- Recording on Level Machines
------------------------------------------------------------

/- The level bond holds after a fault. -/
theorem Bond.level_settled (R : Ty → Prop) :
    (Bond.level R).Settled :=
  fun _ _ _ h => h

/-
  Record what a computation captures: the recorder is suspended
  for it, and released whatever happens.
-/
def recordAs
    (capture : Run (Action Unit Snapshot))
    (span : Span) : Run (Option EventId) := fun m =>
  match m.recorder.bind Recorder.suspend? with
  | none => (.ok none, m)
  | some suspended =>
    match capture { m with recorder := some suspended } with
    | (.error c, m) => (.error c, Machine.slot.update .release m)
    | (.ok a, m) =>
      match m.recorder with
      | none => (.ok none, m)
      | some r =>
        match r.commit a span with
        | .error why =>
          (.error (misuse why), Machine.slot.update .release m)
        | .ok r' =>
          (.ok (some r.nextId),
            { m with recorder := some r'.release })

/- Recording an action records what its values come to. -/
theorem record_eq_recordAs
    {α : Type}
    (f : α → Run Snapshot)
    (a : Action Unit α)
    (span : Span) :
    record Machine.slot misuse f a span
      = recordAs (a.mapM f) span := by
  generalize hx : (a.mapM f : Run (Action Unit Snapshot)) = x
  funext m
  unfold record recordAs
  simp only [Machine.slot, hx, ExceptT.run]
  cases m.recorder.bind Recorder.suspend? with
  | none => rfl
  | some suspended =>
    simp only
    rcases x { m with recorder := some suspended } with ⟨r, k⟩
    cases r with
    | error c => rfl
    | ok b =>
      cases hk : k.recorder with
      | none => simp only [hk]
      | some r =>
        cases hDone : r.commit b span <;>
          simp only [hk, hDone]

section Recording

variable {S : Slack}
variable {R : Ty → Prop}
variable {M : Pairing}
variable {p q : Program}
variable {i j : Invoker}
variable {u w : Observer}
variable {n k : Nat}
variable {s : Shape}
variable {m m' : Machine}

/- Level machines have one recorder. -/
theorem Linked.recorder_eq
    (hm : Linked Joint.level s m m') :
    m'.recorder = m.recorder :=
  (congrArg Prod.snd hm.world.joint).symm

/- Level machines have the same frames. -/
theorem Linked.frames_eq
    (hm : Linked Joint.level s m m') :
    m'.frames = m.frames :=
  (congrArg Prod.fst hm.world.joint).symm

/- Level machines get a new recorder. -/
theorem Linked.withRecorder
    (hm : Linked Joint.level s m m')
    (r : Option Recorder) :
    Linked Joint.level s { m with recorder := r }
      { m' with recorder := r } := by
  refine hm.onJoint (K := Joint.level) ?_
  rw [hm.frames_eq]
  rfl

/- The recorders of level machines are released. -/
theorem Linked.release
    (hm : Linked Joint.level s m m') :
    Linked Joint.level s (Machine.slot.update .release m)
      (Machine.slot.update .release m') := by
  simp only [Slot.update, Machine.slot, hm.recorder_eq]
  cases m.recorder with
  | none => exact hm
  | some r => exact hm.withRecorder (some r.release)

/- What is captured alike is recorded alike. -/
theorem agrees_recordAs
    (hSharp : S.Sharp)
    {x y : Run (Action Unit Snapshot)}
    (h : Agrees S (Bond.level R) x y)
    (span : Span) :
    Agrees S (Bond.level R) (recordAs x span)
      (recordAs y span) := by
  intro g s hs m m' hm
  unfold recordAs
  rw [hm.recorder_eq]
  cases m.recorder.bind Recorder.suspend? with
  | none => exact .ok ⟨rfl, trivial, hm⟩
  | some suspended =>
    have hBody := h g s hs _ _ (hm.withRecorder (some suspended))
    simp only
    generalize x { m with recorder := some suspended } = r
      at hBody
    generalize y { m' with recorder := some suspended } = t
      at hBody
    cases hBody with
    | @ok b c k k' hPost =>
      rcases hPost with ⟨rfl, _, hk⟩
      have hk : Linked Joint.level s k k' := hk
      simp only [hk.recorder_eq]
      cases k.recorder with
      | none => exact .ok ⟨rfl, trivial, hk⟩
      | some r =>
        simp only
        cases r.commit b span with
        | error why => exact .alike (.panic _ hSharp.panics) trivial
        | ok r' =>
          exact .ok ⟨rfl, trivial, hk.withRecorder _⟩
    | alike hAlike hCut =>
      cases hAlike with
      | throw v hv =>
        exact .alike (.throw v hv) (Linked.release hCut)
      | fault c d =>
        exact .alike (.fault c d) (Linked.release hCut)
      | panic text hText =>
        exact .alike (.panic text hText) trivial
      | outOfFuel => exact .alike .outOfFuel trivial
      | stopped why hWhy =>
        exact .alike (.stopped why hWhy) trivial
      | answered why text hWhy =>
        exact .alike (.answered why text hWhy) trivial
    | first hFirst => exact .first hFirst
    | second hSecond => exact .second hSecond

/- An action is recorded alike on level machines. -/
theorem agrees_recordLevel
    (hw : u.Follows S w)
    (hSharp : S.Sharp)
    (hHalts : S.halts = true)
    (hp : Paired M p q)
    (hi : Invokers S (Bond.level R) M i j)
    (hFuel : Paced S n k)
    (a : Action Unit Shown)
    (span : Span) :
    Agrees S (Bond.level R)
      (record Machine.slot misuse
        (fun s => captureValue u p i n s.kind s.value) a span)
      (record Machine.slot misuse
        (fun s => captureValue w q j k s.kind s.value) a span) := by
  rw [record_eq_recordAs, record_eq_recordAs]
  refine agrees_recordAs hSharp (agrees_mapAction (fun s => ?_) a)
    span
  exact agrees_captureValue (Bond.level_settled R) hSharp hp hi
    (fun _ _ _ => hw.watches hHalts rfl fun _ => rfl) hFuel s.kind
    s.value

end Recording

------------------------------------------------------------
-- Reading Operands
------------------------------------------------------------

section Gives

variable {S : Slack}
variable {n : Machine}
variable {α β : Type}

/- What gives a value gives one in sequences. -/
theorem carries_gives :
    Carries Run Id (fun _ => Gives S n) where
  pure := Gives.pure
  bind := fun hx hf => Gives.bind hx (hf _)

/- The operands of a probe are given. -/
theorem Probe.gives_mapM
    {f : α → Run β}
    {g : α → β}
    (P : Probe α)
    (h : ∀ c ∈ P.operands, Gives S n (f c) (g c)) :
    Gives S n (P.mapM f) (P.mapM (m := Id) g) :=
  carries_gives.mapProbe P h

end Gives

------------------------------------------------------------
-- Telling and Reporting
------------------------------------------------------------

/- A live action whose values are told by another action. -/
def Tells
    (a : Action Unit Shown)
    (b : Action Unit Live) : Prop :=
  ∀ f : Shown → Run Snapshot,
    a.mapM f = b.mapM fun l => f ⟨l.operand.kind, l.value⟩

/- Recording a live action records what is told. -/
theorem record_of_tells
    {a : Action Unit Shown}
    {b : Action Unit Live}
    (h : Tells a b)
    (f : Shown → Run Snapshot)
    (span : Span) :
    record Machine.slot misuse
        (fun l : Live => f ⟨l.operand.kind, l.value⟩) b span
      = record Machine.slot misuse f a span := by
  funext m
  simp only [record, h f]

/- Whether actions of a machine are recorded. -/
def Machine.recording (m : Machine) : Bool :=
  match m.recorder with
  | some r => !r.suspended
  | none => false

/- Whether actions are recorded can be looked up. -/
theorem isRecording_apply
    (m : Machine) :
    isRecording m = (.ok m.recording, m) := by
  unfold isRecording
  rw [get_bind_apply]
  unfold Machine.recording
  cases m.recorder <;> rfl

/- An operand is read for a live action. -/
def readLive
    (evaluate : Expr → Run Val)
    (o : Operand) : Run Live := do
  pure ⟨o, ← evaluate o.expr⟩

------------------------------------------------------------
-- Sound Actions
------------------------------------------------------------

/-
  How a program is spliced and compared: under which observer it
  is told, and which actions are sound.
-/
structure Splice where
  options : Options
  exclusions : List Pattern
  observer : Observer
  sound : Action Unit Shown → Bool

namespace Splice

/- Why a run stops before an action that is not sound. -/
def unsound : String := "unsound"

/- The teller that records sound actions only. -/
def teller (X : Splice) : Teller :=
  { Teller.traced X.observer X.options X.exclusions with
    tell := fun p invoke fuel span action => do
      if X.sound (action (← get)) then
        (Teller.traced X.observer X.options X.exclusions).tell p
          invoke fuel span action
      else throw (.stopped unsound) }

end Splice

section Reports

variable {S : Slack}
variable {R : Ty → Prop}
variable {M : Pairing}
variable {p q : Program}
variable {i j : Invoker}
variable {u w : Observer}
variable {n k : Nat}
variable {s : Shape}
variable {pre : Machine → Machine → Prop}

/- Record what a probe reports, if anything is recorded. -/
def recordProbe
    (w : Observer)
    (q : Program)
    (evaluate : Expr → Run Val)
    (j : Invoker)
    (k : Nat)
    (P : Probe Operand)
    (span : Span) : Run Unit := do
  if ← isRecording then
    let live ← P.mapM (readLive evaluate)
    let action ← live.toAction
    let _ ←
      record Machine.slot misuse
        (fun l : Live =>
          captureValue w q j k l.operand.kind l.value)
        action span
    watch w .recorded

/- A probe that starts no activation records its report. -/
theorem report_plain
    {evaluate : Expr → Run Val}
    {P : Probe Operand}
    (hPlain : P.isEnter = false)
    (span : Span) :
    report w q evaluate j k P span
      = recordProbe w q evaluate j k P span := by
  unfold report
  rw [hPlain]
  rfl

/- A probe that starts an activation marks its frame first. -/
theorem report_enter
    {evaluate : Expr → Run Val}
    (callee : Callee)
    (span : Span) :
    report w q evaluate j k (.enter callee) span
      = (do
        markInstrumented
        recordProbe w q evaluate j k (.enter callee) span) :=
  rfl

/- What a probe records when its operands are known. -/
theorem recordProbe_apply
    {evaluate : Expr → Run Val}
    {P : Probe Operand}
    {live : Probe Live}
    {b : Action Unit Live}
    {m : Machine}
    (hRecording : m.recording = true)
    (hLive : P.mapM (readLive evaluate) m = (.ok live, m))
    (hAction : live.toAction m = (.ok b, m))
    (span : Span) :
    recordProbe w q evaluate j k P span m
      = (do
          let _ ←
            record Machine.slot misuse
              (fun l : Live =>
                captureValue w q j k l.operand.kind l.value)
              b span
          watch w .recorded : Run Unit) m := by
  unfold recordProbe
  rw [bind_ok (isRecording_apply m), hRecording, if_pos rfl,
    bind_ok hLive, bind_ok hAction]

/- What is told about a state, if it is sound. -/
theorem Splice.tell_apply
    (X : Splice)
    {act : Machine → Action Unit Shown}
    {m : Machine}
    (hSound : X.sound (act m) = true)
    (span : Span) :
    X.teller.tell p i n span act m
      = (if m.recording then do
          let _ ←
            record Machine.slot misuse
              (fun s => captureValue X.observer p i n s.kind s.value)
              (act m) span
          watch X.observer .recorded
        else pure () : Run Unit) m := by
  change (do
    if X.sound (act (← get)) then
      (Teller.traced X.observer X.options X.exclusions).tell p i n
        span act
    else throw (.stopped Splice.unsound) : Run Unit) m = _
  rw [get_bind_apply]
  simp only [hSound, if_true]
  change (isRecording >>= _) m = _
  rw [bind_ok (isRecording_apply m)]
  cases m.recording <;> rfl

/- A probe that stands for a tale. -/
theorem sim_report
    {X : Splice}
    (hw : X.observer.Follows S w)
    (hSharp : S.Sharp)
    (hHalts : S.halts = true)
    (hp : Paired M p q)
    (hi : Invokers S (Bond.level R) M i j)
    (hFuel : Paced S n k)
    (hs : R s.ret)
    (hPre : ∀ m m', pre m m' → Linked Joint.level s m m')
    {evaluate : Expr → Run Val}
    {P : Probe Operand}
    {act : Machine → Action Unit Shown}
    (h : ∀ m m', pre m m' → X.sound (act m) = true ∧
      ∃ live b,
        Gives S m' (P.mapM (readLive evaluate)) live ∧
          live.toAction m' = (.ok b, m') ∧ Tells (act m) b)
    (span : Span) :
    Sim S pre (fun _ _ m m' => Linked Joint.level s m m')
      (levelCut s) (X.teller.tell p i n span act)
      (recordProbe w q evaluate j k P span) := by
  intro m m' hm
  have hl := hPre m m' hm
  rcases h m m' hm with ⟨hSound, live, b, hLive, hAction, hTells⟩
  have hRecording : m'.recording = m.recording := by
    simp only [Machine.recording, hl.recorder_eq]
  rw [X.tell_apply hSound]
  cases hOn : m.recording with
  | false =>
    have hQuiet : recordProbe w q evaluate j k P span m'
        = (.ok (), m') := by
      unfold recordProbe
      rw [bind_ok (isRecording_apply m'), hRecording, hOn]
      rfl
    rw [hQuiet]
    exact .ok hl
  | true =>
    rw [hOn] at hRecording
    rcases hLive with hLive | ⟨c, n', hLive, hExcuse⟩
    · rw [recordProbe_apply hRecording hLive hAction,
        record_of_tells hTells
          fun s => captureValue w q j k s.kind s.value]
      have hRecord := agrees_recordLevel hw hSharp hHalts hp hi
        hFuel (act m) span
      have hDone : Mirrors S s
          (fun _ _ m m' => Linked Joint.level s m m')
          (watch X.observer .recorded) (watch w .recorded) :=
        sim_watch (hw.watches hHalts rfl fun _ => rfl)
          (fun _ _ _ => trivial) s
      exact Mirrors.agreed hRecord hs (fun _ _ => hDone) m m' hl
    · have hCut : recordProbe w q evaluate j k P span m'
          = (.error c, n') := by
        unfold recordProbe
        rw [bind_ok (isRecording_apply m'), hRecording,
          if_pos rfl, bind_error hLive]
      rw [hCut]
      exact .second hExcuse

end Reports

end ExecTrace
