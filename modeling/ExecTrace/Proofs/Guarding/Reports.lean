import ExecTrace.Proofs.Guarding
import ExecTrace.Proofs.Recording

/-
  Reports under guard. While values are captured the recorder is
  suspended, so that a capture stays in its phase whatever code it
  runs. Then one event is recorded, and the ledger changes as the
  event says.

  Main declarations:
    * `Unmoved` and `unmoved_captures`
    * `Tape.opened`, `Tape.entered` and `Tape.shut`
    * `unmoved_tell`, for actions inside of a frame
    * `obeys_call`, `obeys_enter`, `obeys_exit`, `obeys_resume`
-/

namespace ExecTrace

open Run

variable {K : Rules}

------------------------------------------------------------
-- Unmoved Runs
------------------------------------------------------------

/- A run that stays in a phase, and neither throws nor faults. -/
def Unmoved
    (K : Rules)
    (g : Phase)
    {α : Type}
    (x : Run α) : Prop :=
  Obeys (At K g) x (fun _ => At K g) (fun _ _ => False)
    fun _ => False

section Unmoved

variable {α β : Type}
variable {g : Phase}
variable {x : Run α}
variable {r : Recorder}
variable {m : Machine}

/- What is unmoved stays in its phase. -/
theorem Unmoved.stays
    {G : Phase → Prop}
    (h : ∀ g, G g → Unmoved K g x)
    (y : Run α) : Stays K G α x y :=
  fun g hg => (h g hg).weaken (fun _ hm => hm) (fun _ _ hm => hm)
    (fun _ _ hm => hm.elim) fun _ hm => hm.elim

/- What follows an unmoved run is a function of its value. -/
theorem Unmoved.map
    (hx : Unmoved K g x)
    (c : α → β) : Unmoved K g (x >>= fun a => pure (c a)) :=
  Obeys.bind hx fun _ => .pure fun _ hm => hm

/- What is unmoved is unmoved in sequences. -/
theorem carries_unmoved :
    Carries Run Run (fun _ x _ => Unmoved K g x) where
  pure := fun _ => .pure fun _ hm => hm
  bind := fun hx hf => hx.bind hf

/- More is known of the values that a run gives. -/
theorem Obeys.tracking
    {pre : Machine → Prop}
    {ok : α → Machine → Prop}
    {thrown : Val → Machine → Prop}
    {lost : Machine → Prop}
    (h : Obeys pre x ok thrown lost) :
    Obeys pre x
      (fun a m => (∃ k, pre k ∧ x k = (.ok a, m)) ∧ ok a m)
      thrown lost := by
  intro m hm
  have hEnd := h m hm
  generalize hRun : x m = t at hEnd ⊢
  cases hEnd with
  | ok hOk => exact .ok ⟨⟨m, hm, hRun⟩, hOk⟩
  | thrown hThrown => exact .thrown hThrown
  | lost hLost => exact .lost hLost
  | exhausted => exact .exhausted
  | spent => exact .spent
  | stopped => exact .stopped

------------------------------------------------------------
-- Captures
------------------------------------------------------------

/- A suspended recorder is moved nowhere. -/
theorem Moved.held
    {frames : List Frame}
    {exception : Option Val}
    (hHeld : g.tape = .held r)
    (hm : Moved K frames g exception m) : At K g m := by
  rcases hm with ⟨t, hMoves, hm⟩
  rcases g with ⟨φ, since, tape⟩
  cases hHeld
  cases hMoves
  exact hm

/- Nothing is spilt of a suspended recorder. -/
theorem Lost.held
    (hHeld : g.tape = .held r)
    (hm : Lost K g m) : At K g m := by
  rcases g with ⟨φ, since, tape⟩
  cases hHeld
  exact ⟨hm.frames, hm.since, hm.tape⟩

/- A text is missing if the program fails to give it. -/
theorem unmoved_textUnlessThrown
    {x : Run String}
    (hHeld : g.tape = .held r)
    (hx : Obeys (At K g) x (fun _ => At K g) (fun _ => At K g)
      (Lost K g)) : Unmoved K g (textUnlessThrown x) := by
  intro m hm
  have hEnd := hx m hm
  unfold textUnlessThrown
  generalize x m = t at hEnd ⊢
  cases hEnd with
  | ok h => exact .ok h
  | thrown h => exact .ok h
  | lost h => exact .ok (h.held hHeld)
  | exhausted => exact .exhausted
  | spent => exact .spent
  | stopped => exact .stopped

variable {i : Invoker}
variable {X : Splice}
variable [X.Guards]

/- A snapshot that was taken in a phase shows a value. -/
def Shot
    (K : Rules)
    (g : Phase)
    (kind : Kind)
    (v : Val)
    (s : Snapshot)
    (m : Machine) : Prop :=
  At K g m ∧ (kind = .reference → ∃ h, g.since.Extends h ∧
    h.Extends m.heap ∧ h.Depicts v s)

/- The snapshot of an object, an array or a string. -/
theorem obeys_referenceSnapshot
    (hi : Invokes K i)
    (hHeld : g.tape = .held r)
    (kind : Kind)
    (v : Val) :
    Obeys (At K g) (referenceSnapshot K.program i v)
      (Shot K g kind v) (fun _ _ => False) fun _ => False := by
  intro m hm
  have hFree : ∀ tiers, g.tape ≠ .running tiers := by
    rw [hHeld]
    nofun
  have hText := (obeys_textOf hi (g := { g with since := m.heap })
    (fun _ h => absurd h (hFree _)) (fun _ h => absurd h (hFree _))
    "toString" v).weaken (fun _ hm => hm)
    (fun _ _ hm => Moved.held (g := { g with since := m.heap })
      hHeld hm)
    (fun _ _ hm => Moved.held (g := { g with since := m.heap })
      hHeld hm) fun _ hm => hm
  have hCalm : Unmoved K { g with since := m.heap }
      (textUnlessThrown (Call.textOf K.program i "toString" v)) :=
    unmoved_textUnlessThrown hHeld hText
  refine Obeys.bind hCalm (fun text => ?_) m hm.now
  refine .pure fun k hk => ⟨hk.later hm.since, fun _ => ?_⟩
  exact ⟨m.heap, hm.since, hk.since, _, _, _, rfl,
    .inr ⟨rfl, rfl⟩⟩

/- The snapshot of a value that is one of its kind. -/
theorem obeys_snapshot
    (hi : Invokes K i)
    (hHeld : g.tape = .held r)
    (n : Nat)
    (kind : Kind)
    (v : Val) :
    Obeys (At K g) (snapshot X.observer K.program i n kind v)
      (Shot K g kind v) (fun _ _ => False) fun _ => False := by
  induction n generalizing kind v with
  | zero => exact fun _ _ => .spent
  | succ n ih =>
    unfold snapshot
    refine Obeys.via
      (fun _ m => At K g m ∧ kind.fits v = true) ?_
      fun _ => ?_
    · exact .watch fun m hm hWatch =>
        ⟨hm, Splice.Guards.captured kind v m hWatch⟩
    refine .assuming (fun _ hm => hm.2) fun hFits => ?_
    suffices hShot : Obeys (At K g) _ (Shot K g kind v)
        (fun _ _ => False) fun _ => False from
      hShot.weaken (fun _ hm => hm.1) (fun _ _ hm => hm)
        (fun _ _ hm => hm) fun _ hm => hm
    unfold Kind.fits at hFits
    cases hKind : kind.scalarTy? with
    | some ty =>
      rw [hKind] at hFits
      cases v with
      | scalar s =>
        refine .pure fun m hm => ⟨hm, fun hReference => ?_⟩
        rw [hReference] at hKind
        cases hKind
      | _ => cases hFits
    | none =>
      rw [hKind] at hFits
      cases v with
      | null =>
        refine .pure fun m hm => ⟨hm, fun _ => ?_⟩
        exact ⟨m.heap, hm.since, .refl, 0, _, _, rfl,
          .inr ⟨rfl, rfl⟩⟩
      | void => cases hFits
      | str text => exact obeys_referenceSnapshot hi hHeld _ _
      | obj a => exact obeys_referenceSnapshot hi hHeld _ _
      | arr a =>
        simp only
        split
        · rename_i hArray
          have hItems : ∀ (inner : Kind) (vs : List Val), Unmoved K g
              (vs.mapM (snapshot X.observer K.program i n inner)) :=
            fun inner vs => carries_unmoved.mapList vs
              (g := snapshot X.observer K.program i n inner)
              fun u _ => (ih _ u).weaken (fun _ hm => hm)
                (fun _ _ hm => hm.1) (fun _ _ hm => hm)
                fun _ hm => hm
          have hCalm : Unmoved K g
              (do
                let h := (← get).heap
                let inner := (h.elementOf a).kind?.getD .reference
                let items ← (h.itemsOf a).toList.mapM
                  (snapshot X.observer K.program i n inner)
                pure (Snapshot.array items)) :=
            .look fun m hm => (hItems _ _).map _ m hm
          refine hCalm.weaken (fun _ hm => hm) (fun _ _ hm => ?_)
            (fun _ _ hm => hm) fun _ hm => hm
          refine ⟨hm, fun hReference => ?_⟩
          rw [hArray] at hReference
          cases hReference
        · exact obeys_referenceSnapshot hi hHeld _ _
      | scalar c =>
        simp only
        cases hBoxed : (Val.scalar c).boxedClass? with
        | none => cases c <;> cases hBoxed
        | some cls =>
          have hFresh : Machine.Mild
              fun m => (m.nextId, { m with nextId := m.nextId + 1 }) :=
            .ofHeap (fun _ => rfl) (fun _ => rfl) (fun _ => rfl)
              fun _ => rfl
          intro m hm
          refine .ok ⟨hm.mild hFresh, fun _ => ?_⟩
          exact ⟨m.heap, hm.since, .refl, _, _, _, rfl, .inl hBoxed⟩

/- A value is captured. -/
theorem obeys_captureValue
    (hi : Invokes K i)
    (hHeld : g.tape = .held r)
    (n : Nat)
    (s : Shown) :
    Obeys (At K g)
      (captureValue X.observer K.program i n s.kind s.value)
      (Shot K g s.kind s.value) (fun _ _ => False) fun _ => False :=
  .look fun m hm => obeys_snapshot hi hHeld _ _ _ m hm

/- A reference is captured for something. -/
theorem obeys_shot
    (hi : Invokes K i)
    (hHeld : g.tape = .held r)
    (n : Nat)
    (v : Val)
    (c : Snapshot → β) :
    Obeys (At K g)
      (captureValue X.observer K.program i n .reference v >>= fun t =>
        pure (c t))
      (fun b m => ∃ t h, b = c t ∧ g.since.Extends h ∧
        h.Extends m.heap ∧ h.Depicts v t ∧ At K g m)
      (fun _ _ => False) fun _ => False := by
  refine Obeys.bind (obeys_captureValue hi hHeld n ⟨.reference, v⟩)
    fun t => .pure ?_
  rintro m ⟨hm, hDepicts⟩
  rcases hDepicts rfl with ⟨h, hSince, hGrown, hDepicts⟩
  exact ⟨t, h, rfl, hSince, hGrown, hDepicts, hm⟩

/- The values of an action are captured. -/
theorem unmoved_captures
    (hi : Invokes K i)
    (hHeld : g.tape = .held r)
    (n : Nat)
    (a : Action Unit Shown) :
    Unmoved K g (a.mapM fun s =>
      captureValue X.observer K.program i n s.kind s.value) :=
  carries_unmoved.mapAction a
    (g := fun s =>
      captureValue X.observer K.program i n s.kind s.value)
    fun s => (obeys_captureValue hi hHeld n s).weaken
      (fun _ hm => hm) (fun _ _ hm => hm.1) (fun _ _ hm => hm)
      fun _ hm => hm

end Unmoved

------------------------------------------------------------
-- Recorded Events
------------------------------------------------------------

namespace Tape

/- A frame is opened, unless the recorder is suspended. -/
def opened
    (tier : Tier) : Tape → Tape
  | .running tiers => .running (tier :: tiers)
  | .held r => .held r

/- An activation is started under some frames. -/
def entered
    (frame : OpenFrame)
    (callee : Callee)
    (enclosing : List OuterFrame) : Tape → Tape
  | .running tiers => .running
    (⟨frame, .enter callee (owns enclosing)⟩
      :: if enclosing = [] then started tiers else tiers)
  | .held r => .held r

/- The innermost activation ended in some way. -/
def shut
    (K : Rules)
    (child : Child) : Tape → Tape
  | .running (⟨_, .enter _ own⟩ :: rest) =>
    .running (settled (K.strict && own) child rest)
  | t => t

end Tape

/- The exception that an activation ends with, if it does. -/
def Exit.exception? : Exit Shown → Option Val
  | .exceptional s => some s.value
  | _ => none

/- The exception that a call ends with, if it does. -/
def Resumption.exception? : Resumption Shown → Option Val
  | .aborted s => some s.value
  | _ => none

section Events

variable {α β : Type}
variable {g : Phase}
variable {m : Machine}
variable {i : Invoker}
variable {X : Splice}
variable [X.Guards]
variable {n : Nat}
variable {span : Span}

/- As many values are captured as there are. -/
theorem length_of_mapM
    {f : α → Run β}
    {as : List α}
    {bs : List β}
    {m k : Machine}
    (h : as.mapM f m = (.ok bs, k)) : bs.length = as.length := by
  induction as generalizing bs m with
  | nil =>
    cases h
    rfl
  | cons a as ih =>
    rw [List.mapM_cons] at h
    rcases bind_returned h with ⟨b, m', _, h⟩
    rcases bind_returned h with ⟨bs', m'', hRest, h⟩
    cases h
    simp [ih hRest]

/- A call is captured as one with as many arguments. -/
theorem call_of_ok
    {f : α → Run Snapshot}
    {callee : Callee}
    {receiver : Option α}
    {args : List α}
    {b : Action Unit Snapshot}
    {m k : Machine}
    (h : (Action.call callee receiver args).mapM f m = (.ok b, k)) :
    ∃ receiver' args', b = .call callee receiver' args' ∧
      args'.length = args.length := by
  rcases bind_returned h with ⟨receiver', _, _, h⟩
  rcases bind_returned h with ⟨args', _, hArgs, h⟩
  cases h
  exact ⟨receiver', args', rfl, length_of_mapM hArgs⟩

/- Nothing is recorded while a recorder is suspended. -/
theorem tell_held
    {r : Recorder}
    (hHeld : g.tape = .held r)
    (hm : At K g m)
    (act : Machine → Action Unit Shown) :
    X.teller.tell K.program i n span act m = (.ok (), m) := by
  have hTape := hm.tape
  rw [hHeld] at hTape
  have hOff : m.recording = false := by
    simp [Machine.recording, hTape.1, hTape.2]
  rw [X.tell_apply (Splice.Guards.sound _), hOff]
  rfl

/-
  An event is recorded, after its values were captured. What is
  known of them says what becomes of the ledger.
-/
theorem met_tell
    {tiers : List Tier}
    {act : Machine → Action Unit Shown}
    {B : Action Unit Snapshot → Heap → Prop}
    {Q : List Tier → Heap → Prop}
    (hRun : g.tape = .running tiers)
    (hm : At K g m)
    (hCapture : ∀ r, Obeys (At K (g.on (.held r)))
      ((act m).mapM fun s =>
        captureValue X.observer K.program i n s.kind s.value)
      (fun b k => B b k.heap ∧ At K (g.on (.held r)) k)
      (fun _ _ => False) fun _ => False)
    (hEnds : ∀ b h, B b h → ∀ kind, b.ends = some kind →
      ∃ tier rest, tiers = tier :: rest ∧ tier.role.kind = kind)
    (hDone : ∀ b h (r r' : Recorder), B b h →
      r.Keeps K.program K.strict tiers → r.Commits b span r' →
      ∃ tiers', Q tiers' h ∧ r'.Keeps K.program K.strict tiers') :
    Met
      (fun _ k => ∃ tiers', Q tiers' k.heap ∧
        At K (g.on (.running tiers')) k)
      (fun _ _ => False) (fun _ => False)
      (X.teller.tell K.program i n span act m) := by
  have hTape := hm.tape
  rw [hRun] at hTape
  rcases hTape with ⟨r, hr, hOn, hKeeps⟩
  have hRecording : m.recording = true := by
    simp [Machine.recording, hr, hOn]
  have hWatch : watch X.observer .recorded = pure () := by
    funext k
    simp only [watch, Splice.Guards.recorded]
    rfl
  rw [X.tell_apply (Splice.Guards.sound _), hRecording, if_pos rfl,
    bind_apply, record_eq_recordAs, hWatch]
  unfold recordAs
  have hHeld := hCapture { r with suspended := true }
    { m with recorder := some { r with suspended := true } }
    ⟨hm.frames, hm.since, rfl, rfl⟩
  simp only [hr, Option.bind_some, Recorder.suspend?, hOn,
    Bool.false_eq_true, if_false]
  generalize (act m).mapM (fun s : Shown =>
      captureValue X.observer K.program i n s.kind s.value)
    { m with recorder := some { r with suspended := true } } = t
    at hHeld ⊢
  cases hHeld with
  | @ok b k hPost =>
    rcases hPost with ⟨hB, hk⟩
    have hRecorder : k.recorder
        = some { r with suspended := true } := hk.tape.1
    simp only [hRecorder]
    cases hCommit : { r with suspended := true }.commit b span with
    | error why =>
      have hWhy : why = .exhausted := by
        refine Recorder.commit_error (fun kind hKind => ?_) hCommit
        rcases hEnds b k.heap hB kind hKind with
          ⟨tier, rest, rfl, hTier⟩
        refine ⟨tier.frame, _, hKeeps.frames, ?_⟩
        rw [hKeeps.kept.kind List.mem_cons_self, hTier]
      rw [hWhy]
      exact .exhausted
    | ok r' =>
      rcases hDone b k.heap _ r' hB (hKeeps.suspension true)
        (Recorder.commits_of_ok hCommit) with ⟨tiers', hQ, hKeeps'⟩
      refine .ok ⟨tiers', hQ, hk.frames, hk.since, _, rfl, rfl, ?_⟩
      exact hKeeps'.suspension false
  | thrown h => exact h.elim
  | lost h => exact h.elim
  | exhausted => exact .exhausted
  | spent => exact .spent
  | stopped => exact .stopped

/- A phase with its own recorder is that phase. -/
theorem Phase.on_self
    {t : Tape}
    (h : g.tape = t) : g.on t = g := by
  rw [← h]
  rfl

/- An action inside of a frame is told. -/
theorem unmoved_tell
    (hi : Invokes K i)
    {act : Machine → Action Unit Shown}
    (hInner : ∀ m, (act m).Inner) :
    Unmoved K g (X.teller.tell K.program i n span act) := by
  intro m hm
  cases hTape : g.tape with
  | held r =>
    rw [tell_held hTape hm]
    exact .ok hm
  | running tiers =>
    refine (met_tell (B := fun b _ => b.opens = none ∧ b.ends = none)
      (Q := fun tiers' _ => tiers' = tiers) hTape hm (fun r => ?_)
      ?_ ?_).weaken ?_ (fun _ _ h => h) fun _ h => h
    · refine (unmoved_captures hi rfl n (act m)).tracking.weaken
        (fun _ hm => hm) ?_ (fun _ _ h => h) fun _ h => h
      rintro b k ⟨⟨k₀, _, hRun⟩, hk⟩
      have hCaptures := captures_of_ok hRun
      exact ⟨⟨hCaptures.opens.trans (hInner m).1,
        hCaptures.ends.trans (hInner m).2⟩, hk⟩
    · intro b h hB kind hKind
      rw [hB.2] at hKind
      cases hKind
    · intro b h r r' hB hKeeps hDone
      exact ⟨tiers, rfl, hDone.keeps_inner hKeeps hB.1 hB.2⟩
    · rintro _ k ⟨_, rfl, hk⟩
      rwa [Phase.on_self hTape] at hk

/- A call is told. -/
theorem obeys_call
    (hi : Invokes K i)
    (callee : Callee)
    (receiver : Option Shown)
    (args : List Shown) :
    Obeys (At K g)
      (X.teller.tell K.program i n span fun _ =>
        .call callee receiver args)
      (fun _ m => ∃ frame, At K (g.on (g.tape.opened
        ⟨frame, .call callee args.length false .none⟩)) m)
      (fun _ _ => False) fun _ => False := by
  intro m hm
  cases hTape : g.tape with
  | held r =>
    rw [tell_held hTape hm]
    exact .ok ⟨⟨.first, .call, 0⟩, (Phase.on_self hTape).symm ▸ hm⟩
  | running tiers =>
    refine (met_tell
      (B := fun b _ => ∃ receiver' args',
        b = .call callee receiver' args' ∧ args'.length = args.length)
      (Q := fun tiers' _ => ∃ frame, tiers' =
        ⟨frame, .call callee args.length false .none⟩ :: tiers)
      hTape hm (fun r => ?_) ?_ ?_).weaken ?_ (fun _ _ h => h)
      fun _ h => h
    · refine (unmoved_captures hi rfl n _).tracking.weaken
        (fun _ hm => hm) ?_ (fun _ _ h => h) fun _ h => h
      rintro b k ⟨⟨k₀, _, hRun⟩, hk⟩
      exact ⟨call_of_ok hRun, hk⟩
    · rintro _ h ⟨_, _, rfl, _⟩ kind hKind
      cases hKind
    · rintro _ h r r' ⟨_, _, rfl, hLength⟩ hKeeps hDone
      rw [← hLength]
      exact ⟨_, ⟨_, rfl⟩, hDone.keeps_call hKeeps⟩
    · rintro _ k ⟨_, ⟨frame, rfl⟩, hk⟩
      exact ⟨frame, hk⟩

/- The start of a method is told. -/
theorem obeys_enter
    (callee : Callee)
    (hDirect : enclosingFrames g.frames = [] →
      ∀ tiers, g.tape = .running tiers →
        AskedFor K.program callee tiers)
    (hOwn : K.strict = true →
      owns (enclosingFrames g.frames) = true →
      ∀ tiers, g.tape = .running tiers →
        ∀ t ∈ tiers.head?, t.role.child.isThrown = false) :
    Obeys (At K g)
      (X.teller.tell K.program i n span fun m =>
        .enter callee (enclosingFrames m.frames))
      (fun _ m => ∃ frame, At K (g.on (g.tape.entered frame callee
        (enclosingFrames g.frames))) m)
      (fun _ _ => False) fun _ => False := by
  intro m hm
  cases hTape : g.tape with
  | held r =>
    rw [tell_held hTape hm]
    exact .ok ⟨⟨.first, .enter, 0⟩, (Phase.on_self hTape).symm ▸ hm⟩
  | running tiers =>
    refine (met_tell
      (B := fun b _ =>
        b = .enter callee (enclosingFrames g.frames))
      (Q := fun tiers' _ => ∃ frame, tiers' =
        ⟨frame, .enter callee (owns (enclosingFrames g.frames))⟩
          :: if enclosingFrames g.frames = [] then started tiers
            else tiers)
      hTape hm (fun r => ?_) ?_ ?_).weaken ?_ (fun _ _ h => h)
      fun _ h => h
    · rw [hm.frames]
      exact .pure fun k hk => ⟨rfl, hk⟩
    · rintro _ h rfl kind hKind
      cases hKind
    · rintro _ h r r' rfl hKeeps hDone
      exact ⟨_, ⟨_, rfl⟩, hDone.keeps_enter hKeeps
        (fun hNil => hDirect hNil tiers hTape)
        fun hStrict hOwned => hOwn hStrict hOwned tiers hTape⟩
    · rintro _ k ⟨_, ⟨frame, rfl⟩, hk⟩
      exact ⟨frame, hk⟩

/- Some ending fits every outcome. -/
theorem Child.exists_fits
    (h : Heap)
    (exception : Option Val) :
    ∃ child : Child, child.Fits h exception := by
  cases exception with
  | none => exact ⟨.returned, rfl⟩
  | some v =>
    exact ⟨.thrown (.ref (h.identity v) (h.className v) ""), v, h,
      rfl, .refl, _, _, _, rfl, .inr ⟨rfl, rfl⟩⟩

/- The end of a method is told. -/
theorem obeys_exit
    (hi : Invokes K i)
    (method : String)
    (how : Exit Shown)
    (hKind : ∀ s, how = .exceptional s → s.kind = .reference)
    (hTop : ∀ tiers, g.tape = .running tiers →
      ∃ frame callee own rest,
        tiers = ⟨frame, .enter callee own⟩ :: rest ∧
          callee.method = method) :
    Obeys (At K g)
      (X.teller.tell K.program i n span fun _ =>
        .exit () method how)
      (fun _ m => ∃ child : Child,
        child.Fits m.heap how.exception? ∧
          At K (g.on (g.tape.shut K child)) m)
      (fun _ _ => False) fun _ => False := by
  intro m hm
  cases hTape : g.tape with
  | held r =>
    rw [tell_held hTape hm]
    rcases Child.exists_fits m.heap how.exception? with ⟨child, hFits⟩
    exact .ok ⟨child, hFits, (Phase.on_self hTape).symm ▸ hm⟩
  | running tiers =>
    rcases hTop tiers hTape with ⟨frame, callee, own, rest, rfl, rfl⟩
    refine (met_tell
      (B := fun b h => ∃ how' : Exit Snapshot,
        b = .exit () callee.method how' ∧
          how'.child.Fits h how.exception?)
      (Q := fun tiers' h => ∃ child : Child,
        child.Fits h how.exception? ∧
          tiers' = settled (K.strict && own) child rest)
      hTape hm (fun r => ?_) ?_ ?_).weaken ?_ (fun _ _ h => h)
      fun _ h => h
    · cases how with
      | explicit returned =>
        refine (unmoved_captures hi rfl n
          (.exit () callee.method (.explicit returned))).tracking.weaken
          (fun _ hm => hm) ?_ (fun _ _ h => h) fun _ h => h
        rintro b k ⟨⟨k₀, _, hRun⟩, hk⟩
        rcases bind_returned hRun with ⟨how', k₁, hHow, hRun⟩
        rcases bind_returned hHow with ⟨returned', k₂, _, hHow⟩
        cases hHow
        cases hRun
        exact ⟨⟨_, rfl, rfl⟩, hk⟩
      | endOfBody => exact .pure fun k hk => ⟨⟨_, rfl, rfl⟩, hk⟩
      | exceptional s =>
        rcases s with ⟨kind, v⟩
        obtain rfl : kind = .reference := hKind _ rfl
        simp only [Action.mapM, Exit.mapM, bind_assoc, pure_bind]
        refine (obeys_shot hi (g := g.on (.held r)) rfl n v fun t =>
          (Action.exit () callee.method (.exceptional t)
            : Action Unit Snapshot)).weaken (fun _ hm => hm) ?_
          (fun _ _ h => h) fun _ h => h
        rintro _ k ⟨t, h, rfl, _, hGrown, hDepicts, hk⟩
        exact ⟨⟨_, rfl, v, h, rfl, hGrown, hDepicts⟩, hk⟩
    · rintro _ h ⟨how', rfl, _⟩ kind hEnds
      cases hEnds
      exact ⟨_, rest, rfl, rfl⟩
    · rintro _ h r r' ⟨how', rfl, hFits⟩ hKeeps hDone
      exact ⟨_, ⟨_, hFits, rfl⟩, hDone.keeps_exit hKeeps⟩
    · rintro _ k ⟨_, ⟨child, hFits, rfl⟩, hk⟩
      exact ⟨child, hFits, hk⟩

/- A caller goes on if the last activation ended without exception. -/
theorem Child.Fits.allows_calm
    {h : Heap}
    {child : Child}
    {how : Resumption Snapshot}
    (hFits : child.Fits h Option.none)
    (hCalm : ∀ t, how ≠ .aborted t) : child.Allows how := by
  cases child with
  | none => trivial
  | returned =>
    cases how with
    | aborted t => exact absurd rfl (hCalm t)
    | _ => trivial
  | thrown s =>
    rcases hFits with ⟨v, k, hv, _⟩
    cases hv

/- A caller is aborted by what the last activation threw. -/
theorem Child.Fits.allows_aborted
    {h h' : Heap}
    {child : Child}
    {v : Val}
    {t : Snapshot}
    (hFits : child.Fits h (some v))
    (hGrown : h.Extends h')
    (hDepicts : h'.Depicts v t) : child.Allows (.aborted t) := by
  cases child with
  | none => trivial
  | returned => cases hFits
  | thrown s =>
    rcases hFits with ⟨v', k, hv, hk, hs⟩
    cases hv
    exact hs.follows (hk.trans hGrown) hDepicts

/-
  A caller goes on after a call that may have run activations: the
  frame of the call is closed.
-/
theorem obeys_resume
    (hi : Invokes K i)
    {frame : OpenFrame}
    {callee : Callee}
    {args : Nat}
    {frames : List Frame}
    (how : Resumption Shown)
    (hKind : ∀ s, how = .aborted s → s.kind = .reference) :
    Obeys
      (Moved K frames
        (g.on (g.tape.opened ⟨frame, .call callee args false .none⟩))
        how.exception?)
      (X.teller.tell K.program i n span fun _ =>
        .resume () callee.cls callee.method how)
      (fun _ => At K g) (fun _ _ => False) fun _ => False := by
  rintro m ⟨t, hMoves, hm⟩
  cases hTape : g.tape with
  | held r =>
    rw [hTape] at hMoves
    cases hMoves
    rw [tell_held (g := g.on (.held r)) rfl hm]
    exact .ok (Phase.on_self hTape ▸ hm)
  | running tiers =>
    rw [hTape] at hMoves
    obtain ⟨direct, child, rfl, hChild⟩ : ∃ direct child,
        t = .running (⟨frame, .call callee args direct child⟩ :: tiers)
          ∧ (child = .none ∨ child.Fits m.heap how.exception?) := by
      cases hMoves with
      | same => exact ⟨_, _, rfl, .inl rfl⟩
      | call _ hChild =>
        exact ⟨_, _, rfl, hChild.imp_right fun h => h.2.2⟩
    have hCalm : how.exception? = none →
        ∀ how' : Resumption Snapshot, (∀ t, how' ≠ .aborted t) →
          child.Allows how' := by
      intro hNone how' hOther
      rcases hChild with rfl | hFits
      · trivial
      · rw [hNone] at hFits
        exact hFits.allows_calm hOther
    have hAborted : ∀ v t h, how.exception? = some v →
        m.heap.Extends h → h.Depicts v t →
          child.Allows (.aborted t) := by
      intro v t h hSome hGrown hDepicts
      rcases hChild with rfl | hFits
      · trivial
      · rw [hSome] at hFits
        exact hFits.allows_aborted hGrown hDepicts
    refine (met_tell
      (g := { g with
        since := m.heap
        tape := .running
          (⟨frame, .call callee args direct child⟩ :: tiers) })
      (B := fun b _ => ∃ how' : Resumption Snapshot,
        b = .resume () callee.cls callee.method how' ∧
          child.Allows how')
      (Q := fun tiers' _ => tiers' = tiers) rfl hm.now (fun r => ?_)
      ?_ ?_).weaken ?_ (fun _ _ h => h) fun _ h => h
    · cases how with
      | void =>
        refine .pure fun k hk => ⟨⟨_, rfl, hCalm rfl .void ?_⟩, hk⟩
        rintro t ⟨⟩
      | returned s =>
        refine (unmoved_captures hi rfl n (.resume () callee.cls
          callee.method (.returned s))).tracking.weaken
          (fun _ hm => hm) ?_ (fun _ _ h => h) fun _ h => h
        rintro b k ⟨⟨k₀, _, hRun⟩, hk⟩
        rcases bind_returned hRun with ⟨how', k₁, hHow, hRun⟩
        rcases bind_returned hHow with ⟨s', k₂, _, hHow⟩
        cases hHow
        cases hRun
        refine ⟨⟨_, rfl, hCalm rfl (.returned s') ?_⟩, hk⟩
        rintro t ⟨⟩
      | aborted s =>
        rcases s with ⟨kind, v⟩
        obtain rfl : kind = .reference := hKind _ rfl
        simp only [Action.mapM, Resumption.mapM, bind_assoc,
          pure_bind]
        refine (obeys_shot hi (g := Phase.on _ (.held r)) rfl n v
          fun t => (Action.resume () callee.cls callee.method
            (.aborted t) : Action Unit Snapshot)).weaken
          (fun _ hm => hm) ?_ (fun _ _ h => h) fun _ h => h
        rintro _ k ⟨t, h, rfl, hSince, hGrown, hDepicts, hk⟩
        exact ⟨⟨_, rfl, hAborted v t h rfl hSince hDepicts⟩, hk⟩
    · rintro _ h ⟨how', rfl, _⟩ kind hEnds
      cases hEnds
      exact ⟨_, tiers, rfl, rfl⟩
    · rintro _ h r r' ⟨how', rfl, hAllowed⟩ hKeeps hDone
      exact ⟨tiers, rfl, hDone.keeps_resume hKeeps fun _ => hAllowed⟩
    · rintro _ k ⟨_, rfl, hk⟩
      have hBack := hk.later hm.since
      exact Phase.on_self hTape ▸ hBack

end Events

end ExecTrace
