import ExecTrace.Proofs.Hosting
import ExecTrace.Proofs.Lineage
import ExecTrace.Proofs.Splicing.Reports

/-
  What recording an action does to a machine. Values are
  captured while the recorder is suspended, and that neither
  throws nor faults; then the event of the action is committed.
  The two runs compared here are runs of one program on one
  machine, so what is known of the recorder is known of both.

  Main declarations:
    * `Uncut` and `uncut_captureValue`
    * `Action.Captures` and `captures_of_ok`
    * `Joint.twin`
    * `sim_recordAs`
    * `Splice.sim_tell`
-/

namespace ExecTrace

open Run

------------------------------------------------------------
-- Captures without Exceptions
------------------------------------------------------------

/- A run that neither throws an exception nor faults. -/
def Uncut
    {α : Type}
    (x : Run α) : Prop :=
  ∀ m c k, x m = (.error c, k) →
    (∀ v, c ≠ .throw v) ∧ ∀ cause, c ≠ .fault cause

section Uncut

variable {α β κ : Type}
variable {x : Run α}
variable {f : α → Run β}

namespace Uncut

/- A value is returned. -/
theorem pure (a : α) : Uncut (Pure.pure a : Run α) :=
  fun _ _ _ h => nomatch h

/- A look at the machine. -/
theorem look
    {f : Machine → Run β}
    (h : ∀ m, Uncut (f m)) :
    Uncut ((get : Run Machine) >>= f) :=
  fun m c k hRun => h m m c k hRun

/- Sequences are uncut if their parts are. -/
theorem bind
    (hx : Uncut x)
    (hf : ∀ a, Uncut (f a)) : Uncut (x >>= f) := by
  intro m c k h
  rw [bind_apply] at h
  generalize hRun : x m = r at h
  rcases r with ⟨e | a, m'⟩
  · cases h
    exact hx m _ _ hRun
  · exact hf a m' c k h

/- Values are mapped one after the other. -/
theorem mapM
    (as : List α)
    (h : ∀ a, Uncut (f a)) : Uncut (as.mapM f) := by
  induction as with
  | nil =>
    rw [List.mapM_nil]
    exact .pure _
  | cons a rest ih =>
    rw [List.mapM_cons]
    exact (h a).bind fun _ => ih.bind fun _ => .pure _

/- A defect of the tracer is neither thrown nor a fault. -/
theorem panic (text : String) :
    Uncut (throw (.panic text) : Run α) := by
  intro m c k h
  cases h
  exact ⟨nofun, nofun⟩

end Uncut

/- A text is missing if the program fails to give it. -/
theorem uncut_textUnlessThrown
    (x : Run String) : Uncut (textUnlessThrown x) := by
  intro m c k h
  unfold textUnlessThrown at h
  generalize x m = r at h
  rcases r with ⟨e | a, m'⟩
  · cases e <;> cases h <;> exact ⟨nofun, nofun⟩
  · cases h

variable {w : Observer}
variable {p : Program}
variable {i : Invoker}

/- The snapshot of a value is uncut. -/
theorem uncut_snapshot
    (n : Nat)
    (kind : Kind)
    (v : Val) : Uncut (snapshot w p i n kind v) := by
  have hReference : ∀ v, Uncut (referenceSnapshot p i v) :=
    fun v => .look fun _ =>
      (uncut_textUnlessThrown _).bind fun _ => .pure _
  have hWrong : ∀ kind v, Uncut (wrongKind kind v) :=
    fun _ _ => .look fun _ => .panic _
  have hBoxed : ∀ cls v, Uncut (do
      let id ← freshId
      pure (Snapshot.ref id cls ((← get).heap.text v))) :=
    fun _ _ => Uncut.bind (fun _ _ _ h => by cases h) fun _ =>
      .look fun _ => .pure _
  induction n generalizing kind v with
  | zero =>
    intro m c k h
    cases h
    exact ⟨fun _ => by simp, fun _ => by simp⟩
  | succ n ih =>
    unfold snapshot
    refine Uncut.bind ?_ fun _ => ?_
    · intro m c k h
      unfold watch at h
      split at h <;> cases h
      exact ⟨fun _ => by simp, fun _ => by simp⟩
    cases kind.scalarTy? with
    | some ty =>
      cases v with
      | scalar s => exact .pure _
      | _ => exact hWrong _ _
    | none =>
      cases v with
      | null => exact .pure _
      | arr a =>
        simp only
        split
        · exact .look fun _ =>
            (Uncut.mapM _ fun u => ih _ u).bind fun _ => .pure _
        · exact hReference _
      | str s => exact hReference _
      | obj a => exact hReference _
      | void =>
        simp only
        split
        · exact hBoxed _ _
        · exact hWrong _ _
      | scalar c =>
        simp only
        split
        · exact hBoxed _ _
        · exact hWrong _ _

/- A value is captured without a cut. -/
theorem uncut_captureValue
    (n : Nat)
    (kind : Kind)
    (v : Val) : Uncut (captureValue w p i n kind v) :=
  .look fun _ => uncut_snapshot _ kind v

/- What is uncut is uncut in sequences. -/
theorem carries_uncut :
    Carries Run Run (fun _ x _ => Uncut x) where
  pure := fun _ => .pure _
  bind := fun hx hf => hx.bind hf

/- The values of an action are captured without a cut. -/
theorem uncut_mapAction
    (h : ∀ a, Uncut (f a))
    (a : Action κ α) : Uncut (a.mapM f) :=
  carries_uncut.mapAction (f := f) (g := f) a h

end Uncut

/- What is uncut is not compared behind an exception. -/
theorem Sim.uncut
    {S : Slack}
    {α β : Type}
    {pre : Machine → Machine → Prop}
    {post : α → β → Machine → Machine → Prop}
    {cut : Cut}
    {x : Run α}
    {y : Run β}
    (h : Sim S pre post cut x y)
    (hx : Uncut x) : Sim S pre post hard x y := by
  intro m n hm
  have hEnd := h m n hm
  generalize hRun : x m = r at hEnd ⊢
  generalize y n = t at hEnd ⊢
  cases hEnd with
  | ok hPost => exact .ok hPost
  | alike hAlike hCut => exact .alike hAlike (hx m _ _ hRun)
  | first hFirst => exact .first hFirst
  | second hSecond => exact .second hSecond

------------------------------------------------------------
-- Captured Actions
------------------------------------------------------------

/-
  An action that was captured: it opens and closes what the
  action does, and tells the same of the start of a method.
-/
structure Action.Captures
    {α : Type}
    (a : Action Unit α)
    (b : Action Unit Snapshot) : Prop where
  opens : b.opens = a.opens
  ends : b.ends = a.ends
  enter : ∀ callee enclosing,
    a = .enter callee enclosing → b = .enter callee enclosing

/- What comes of an action when its values are captured. -/
theorem captures_of_ok
    {α : Type}
    {f : α → Run Snapshot}
    {a : Action Unit α}
    {b : Action Unit Snapshot}
    {m k : Machine}
    (h : a.mapM f m = (.ok b, k)) : a.Captures b := by
  cases a with
  | statement s =>
    rcases bind_returned h with ⟨_, _, _, h⟩
    cases h
    exact ⟨rfl, rfl, nofun⟩
  | operation o =>
    rcases bind_returned h with ⟨_, _, _, h⟩
    cases h
    exact ⟨rfl, rfl, nofun⟩
  | castAttempt v _ _ =>
    rcases bind_returned h with ⟨_, _, _, h⟩
    cases h
    exact ⟨rfl, rfl, nofun⟩
  | binary _ lhs rhs result =>
    rcases bind_returned h with ⟨_, _, _, h⟩
    rcases bind_returned h with ⟨_, _, _, h⟩
    rcases bind_returned h with ⟨_, _, _, h⟩
    cases h
    exact ⟨rfl, rfl, nofun⟩
  | typeTest v _ _ =>
    rcases bind_returned h with ⟨_, _, _, h⟩
    cases h
    exact ⟨rfl, rfl, nofun⟩
  | call _ receiver args =>
    rcases bind_returned h with ⟨_, _, _, h⟩
    rcases bind_returned h with ⟨_, _, _, h⟩
    cases h
    exact ⟨rfl, rfl, nofun⟩
  | enter callee enclosing =>
    cases h
    exact ⟨rfl, rfl, fun _ _ h => by cases h; rfl⟩
  | exit _ _ how =>
    rcases bind_returned h with ⟨_, _, _, h⟩
    cases h
    exact ⟨rfl, rfl, nofun⟩
  | resume _ _ _ how =>
    rcases bind_returned h with ⟨_, _, _, h⟩
    cases h
    exact ⟨rfl, rfl, nofun⟩

------------------------------------------------------------
-- One Machine
------------------------------------------------------------

/- The same frames and the same recorder, with a property. -/
def Joint.twin
    (P : List Frame → Option Recorder → Prop) : Joint :=
  fun a b => b = a ∧ P a.1 a.2

section Twins

variable {S : Slack}
variable {s : Shape}
variable {m m' : Machine}
variable {P Q : List Frame → Option Recorder → Prop}

/- Twins have one recorder. -/
theorem Linked.twin_recorder
    (hm : Linked (.twin P) s m m') :
    m'.recorder = m.recorder :=
  congrArg Prod.snd hm.world.joint.1

/- Twins have the same frames. -/
theorem Linked.twin_frames
    (hm : Linked (.twin P) s m m') : m'.frames = m.frames :=
  congrArg Prod.fst hm.world.joint.1

/- Something else is known of twins. -/
theorem Linked.twin
    (hm : Linked (.twin P) s m m')
    (hQ : Q m.frames m.recorder) : Linked (.twin Q) s m m' :=
  hm.onJoint (K := .twin Q) ⟨hm.world.joint.1, hQ⟩

/- Twins get a recorder. -/
theorem Linked.twin_record
    (hm : Linked (.twin P) s m m')
    (r : Option Recorder)
    (hQ : Q m.frames r) :
    Linked (.twin Q) s { m with recorder := r }
      { m' with recorder := r } := by
  refine hm.onJoint (K := .twin Q) ⟨?_, hQ⟩
  rw [hm.twin_frames]

/- Twins get other frames. -/
theorem Linked.twin_reframe
    (hm : Linked (.twin P) s m m')
    (φ : List Frame)
    (hQ : Q φ m.recorder) :
    Linked (.twin Q) s { m with frames := φ }
      { m' with frames := φ } := by
  refine hm.onJoint (K := .twin Q) ⟨?_, hQ⟩
  rw [hm.twin_recorder]

/-
  Twins record an action. `C` is what is known while its values
  are captured, and `A` what is known of the captured action.
-/
theorem sim_recordAs
    {C : Recorder → List Frame → Option Recorder → Prop}
    {A : Action Unit Snapshot → Prop}
    {x y : Run (Action Unit Snapshot)}
    {span : Span}
    (hSharp : S.Sharp)
    (hIdle : ∀ φ r, P φ r → r.bind Recorder.suspend? = none →
      Q φ r)
    (hSuspend : ∀ φ r, P φ (some r) → r.suspended = false →
      C r φ (some { r with suspended := true }))
    (hCapture : ∀ r, Sim S (Linked (.twin (C r)) s)
      (fun a b m m' => a = b ∧ A a ∧
        Linked (.twin (C r)) s m m') hard x y)
    (hDetached : ∀ r φ, C r φ none → Q φ none)
    (hCommit : ∀ φ r ψ r₁ a r₂, P φ (some r) →
      C r ψ (some r₁) → A a → r₁.Commits a span r₂ →
      Q ψ (some r₂.release)) :
    Sim S (Linked (.twin P) s)
      (fun _ _ m m' => Linked (.twin Q) s m m') hard
      (recordAs x span) (recordAs y span) := by
  intro m m' hm
  unfold recordAs
  rw [hm.twin_recorder]
  cases hSome : m.recorder.bind Recorder.suspend? with
  | none => exact .ok (hm.twin (hIdle _ _ hm.world.joint.2 hSome))
  | some suspended =>
    rcases Option.bind_eq_some_iff.mp hSome with ⟨r, hr, hs⟩
    have hP : P m.frames (some r) := hr ▸ hm.world.joint.2
    unfold Recorder.suspend? at hs
    split at hs
    · cases hs
    · rename_i hRunning
      cases hs
      have hStart := hm.twin_record
        (some { r with suspended := true })
        (hSuspend _ r hP (by simpa using hRunning))
      have hBody := hCapture r _ _ hStart
      simp only
      generalize x { m with
        recorder := some { r with suspended := true } } = e
        at hBody
      generalize y { m' with
        recorder := some { r with suspended := true } } = t
        at hBody
      cases hBody with
      | @ok b c k k' hPost =>
        rcases hPost with ⟨rfl, hA, hk⟩
        have hk : Linked (.twin (C r)) s k k' := hk
        have hC := hk.world.joint.2
        simp only [hk.twin_recorder]
        cases hr₁ : k.recorder with
        | none =>
          rw [hr₁] at hC
          refine .ok (hk.twin ?_)
          rw [hr₁]
          exact hDetached r _ hC
        | some r₁ =>
          rw [hr₁] at hC
          simp only
          cases hDone : r₁.commit b span with
          | error why =>
            exact .alike (.panic _ hSharp.panics) ⟨nofun, nofun⟩
          | ok r₂ =>
            exact .ok (hk.twin_record _ (hCommit _ _ _ _ _ _ hP hC
              hA (Recorder.commits_of_ok hDone)))
      | alike hAlike hCut =>
        cases hAlike with
        | throw v hv => exact absurd rfl (hCut.1 v)
        | fault c d => exact absurd rfl (hCut.2 c)
        | panic text hText =>
          exact .alike (.panic text hText) ⟨nofun, nofun⟩
        | outOfFuel => exact .alike .outOfFuel ⟨nofun, nofun⟩
        | stopped why hWhy =>
          exact .alike (.stopped why hWhy) ⟨nofun, nofun⟩
        | answered why text hWhy =>
          exact .alike (.answered why text hWhy) ⟨nofun, nofun⟩
      | first hFirst => exact .first hFirst
      | second hSecond => exact .second hSecond

variable {B : Bond}
variable {M : Pairing}
variable {p : Program}
variable {i j : Invoker}
variable {n : Nat}

/-
  Twins record an action whose values are captured by one
  program. While they are, the bond `B` knows what `C` says.
-/
theorem sim_record
    {w : Observer}
    {C : Recorder → List Frame → Option Recorder → Prop}
    (hSettled : B.Settled)
    (hSharp : S.Sharp)
    (hp : Paired M p p)
    (hi : Invokers S B M i j)
    (hQuiet : ∀ kind v m, w (.captured kind v) m = none)
    (hRets : B.rets s.ret)
    (hC : ∀ r, ∃ g, B.holds g = .twin (C r))
    (a : Action Unit Shown)
    (span : Span)
    (hIdle : ∀ φ r, P φ r → r.bind Recorder.suspend? = none →
      Q φ r)
    (hSuspend : ∀ φ r, P φ (some r) → r.suspended = false →
      C r φ (some { r with suspended := true }))
    (hDetached : ∀ r φ, C r φ none → Q φ none)
    (hCommit : ∀ φ r ψ r₁ b r₂ m k, P φ (some r) →
      C r ψ (some r₁) →
      a.mapM (fun s => captureValue w p i n s.kind s.value) m
        = (.ok b, k) →
      r₁.Commits b span r₂ → Q ψ (some r₂.release)) :
    Sim S (Linked (.twin P) s)
      (fun _ _ m m' => Linked (.twin Q) s m m') hard
      (record Machine.slot misuse
        (fun s => captureValue w p i n s.kind s.value) a span)
      (record Machine.slot misuse
        (fun s => captureValue w p j n s.kind s.value) a span) := by
  rw [record_eq_recordAs, record_eq_recordAs]
  have hAgrees : Agrees S B
      (a.mapM fun s => captureValue w p i n s.kind s.value)
      (a.mapM fun s => captureValue w p j n s.kind s.value) := by
    refine agrees_mapAction (fun s => ?_) a
    exact agrees_captureValue hSettled hSharp hp hi
      (fun kind v g _ _ _ _ =>
        .inl ⟨hQuiet kind v _, hQuiet kind v _⟩)
      (.inl rfl) s.kind s.value
  have hUncut : Uncut
      (a.mapM fun s => captureValue w p i n s.kind s.value) := by
    refine uncut_mapAction (fun s => ?_) a
    exact uncut_captureValue n s.kind s.value
  generalize (a.mapM fun s : Shown =>
    captureValue w p i n s.kind s.value) = x
    at hAgrees hUncut hCommit ⊢
  generalize (a.mapM fun s : Shown =>
    captureValue w p j n s.kind s.value) = y at hAgrees ⊢
  refine sim_recordAs (C := C) (A := fun b => ∃ m k, x m = (.ok b, k))
    hSharp hIdle hSuspend (fun r => ?_) hDetached ?_
  · rcases hC r with ⟨g, hg⟩
    have hSim := (hAgrees g s hRets).tracking.uncut hUncut
    rw [hg] at hSim
    exact hSim.weaken (fun _ _ hm => hm)
      (fun b c m m' ⟨⟨hbc, _, hm⟩, m₀, _, _, hRun⟩ =>
        ⟨hbc, ⟨m₀, m, hRun⟩, hm⟩)
      (fun _ _ _ hm => hm)
  · intro φ r ψ r₁ b r₂ hP hCr ⟨m, k, hRun⟩ hDone
    exact hCommit φ r ψ r₁ b r₂ m k hP hCr hRun hDone

/- A sound action is recorded, or the comparison is excused. -/
theorem Splice.sim_tell
    {X : Splice}
    (span : Span)
    (hSound : (∀ a, X.sound a = true) ∨
      S.stops Splice.unsound = true)
    {act act' : Machine → Action Unit Shown}
    (hSame : ∀ m m', Linked (.twin P) s m m' → act' m' = act m)
    (hIdle : ∀ m : Machine, P m.frames m.recorder →
      m.recording = false →
      Q m.frames m.recorder)
    (hRecord : ∀ k, P k.frames k.recorder →
      X.sound (act k) = true →
      Sim S (Linked (.twin P) s)
        (fun _ _ m m' => Linked (.twin Q) s m m') hard
        (record Machine.slot misuse
          (fun s => captureValue X.observer p i n s.kind s.value)
          (act k) span)
        (record Machine.slot misuse
          (fun s => captureValue X.observer p j n s.kind s.value)
          (act k) span))
    (hWatch : ∀ m : Machine, Q m.frames m.recorder →
      X.observer .recorded m = none) :
    Sim S (Linked (.twin P) s)
      (fun _ _ m m' => Linked (.twin Q) s m m') hard
      (X.teller.tell p i n span act)
      (X.teller.tell p j n span act') := by
  intro m m' hm
  by_cases hAct : X.sound (act m) = true
  · have hAct' : X.sound (act' m') = true := by
      rw [hSame m m' hm, hAct]
    rw [X.tell_apply hAct, X.tell_apply hAct', hSame m m' hm]
    have hRecording : m'.recording = m.recording := by
      simp only [Machine.recording, hm.twin_recorder]
    rw [hRecording]
    cases hOn : m.recording with
    | false => exact .ok (hm.twin (hIdle m hm.world.joint.2 hOn))
    | true =>
      have hDone : Sim S (Linked (.twin Q) s)
          (fun _ _ m m' => Linked (.twin Q) s m m') hard
          (watch X.observer .recorded)
          (watch X.observer .recorded) := by
        intro k k' hk
        have hQ := hk.world.joint.2
        have hQ' : Q k'.frames k'.recorder := by
          rw [hk.twin_frames, hk.twin_recorder]
          exact hQ
        unfold watch
        rw [hWatch k hQ, hWatch k' hQ']
        exact .ok hk
      exact ((hRecord m hm.world.joint.2 hAct).bind
        fun _ _ => hDone) m m' hm
  · have hStop : X.teller.tell p i n span act m
        = (.error (.stopped Splice.unsound), m) := by
      change (do
        if X.sound (act (← get)) then
          (Teller.traced X.observer X.options X.exclusions).tell p
            i n span act
        else throw (.stopped Splice.unsound) : Run Unit) m = _
      rw [get_bind_apply, if_neg hAct]
      rfl
    rw [hStop]
    rcases hSound with hAll | hStops
    · exact absurd (hAll _) hAct
    · exact .first hStops

end Twins

end ExecTrace
