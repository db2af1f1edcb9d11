import ExecTrace.Proofs.Reporting

/-
  Runs that leave names and frames alone. Such a run keeps the
  names of all scopes, or of all but the innermost one. It keeps
  the frames unless it is cut short by a panic, but it may mark
  the innermost one. As a relation between two runs this says
  something of the first one only, so it is a congruence.

  Main declarations:
    * `markedFrames` and `FramesKept`
    * `Locals.names` and `SameBelow`
    * `Leaves`, `Restores` and `Balances`
    * `Leaves.inFrame` and `Leaves.inScope`
    * `congruence_restores` and `carries_balances`
    * `reporting_restores`
-/

namespace ExecTrace

open Run

------------------------------------------------------------
-- Frames and Names
------------------------------------------------------------

/- Frames of which the innermost one is marked. -/
def markedFrames : List Frame → List Frame
  | [] => []
  | f :: rest => { f with instrumented := true } :: rest

/- Frames that are kept, or only marked if they may be. -/
def FramesKept
    (marks : Prop)
    (fs fs' : List Frame) : Prop :=
  fs' = fs ∨ marks ∧ fs' = markedFrames fs

section Frames

variable {marks : Prop}
variable {f : Frame}
variable {es fs gs : List Frame}

/- A mark is set once. -/
theorem markedFrames_marked :
    markedFrames (markedFrames fs) = markedFrames fs := by
  cases fs <;> rfl

/- Frames are kept as they are. -/
theorem FramesKept.refl : FramesKept marks fs fs :=
  .inl rfl

/- Frames are kept step by step. -/
theorem FramesKept.trans
    (h : FramesKept marks es fs)
    (h' : FramesKept marks fs gs) : FramesKept marks es gs := by
  rcases h with rfl | ⟨hMarks, rfl⟩
  · exact h'
  · rcases h' with rfl | ⟨_, rfl⟩
    · exact .inr ⟨hMarks, rfl⟩
    · exact .inr ⟨hMarks, markedFrames_marked⟩

/- Only the innermost frame is marked. -/
theorem FramesKept.tail
    (h : FramesKept marks (f :: fs) gs) : gs.tail = fs := by
  rcases h with rfl | ⟨_, rfl⟩ <;> rfl

end Frames

/- The names of the variables in each scope. -/
def Locals.names (l : Locals) : List (List String) :=
  l.scopes.map fun scope => scope.map Prod.fst

/- Names that are the same below the innermost scope. -/
structure SameBelow (ns ns' : List (List String)) : Prop where
  length : ns'.length = ns.length
  tail : ns'.tail = ns.tail

section Names

variable {name : String}
variable {v : Val}
variable {b : Bindings String}
variable {l l' : Locals}
variable {ks ns os : List (List String)}

/- Names stay the same step by step. -/
theorem SameBelow.trans
    (h : SameBelow ks ns)
    (h' : SameBelow ns os) : SameBelow ks os :=
  ⟨h'.length.trans h.length, h'.tail.trans h.tail⟩

/- Equal names are the same below the innermost scope. -/
theorem SameBelow.of_eq
    (h : ns = os) : SameBelow ns os := by
  subst h
  exact ⟨rfl, rfl⟩

/- A scope keeps its names if one of them gets a value. -/
theorem Bindings.names_put
    (h : (b.get? name).isSome = true) :
    (b.put name v).map Prod.fst = b.map Prod.fst := by
  induction b with
  | nil => cases h
  | cons binding rest ih =>
    rcases binding with ⟨x, u⟩
    unfold Bindings.put
    split
    · rfl
    · rename_i hOther
      have hRest : (Bindings.get? name rest).isSome = true := by
        simpa only [Bindings.get?, hOther, if_false] using h
      rw [List.map_cons, ih hRest, List.map_cons]

/- A variable that is set keeps the names of all scopes. -/
theorem Locals.names_set
    (h : l.set? name v = some l') : l'.names = l.names := by
  have hIn : ∀ scopes scopes' : List (Bindings String),
      setIn? name v scopes = some scopes' →
        scopes'.map (fun scope => scope.map Prod.fst)
          = scopes.map fun scope => scope.map Prod.fst := by
    intro scopes
    induction scopes with
    | nil =>
      intro scopes' hSet
      cases hSet
    | cons b rest ih =>
      intro scopes' hSet
      unfold setIn? at hSet
      split at hSet
      · rename_i hHere
        cases hSet
        rw [List.map_cons, Bindings.names_put hHere, List.map_cons]
      · rcases Option.map_eq_some_iff.mp hSet with
          ⟨rest', hRest, rfl⟩
        rw [List.map_cons, ih rest' hRest, List.map_cons]
  rcases Option.map_eq_some_iff.mp h with ⟨scopes, hSet, rfl⟩
  exact hIn l.scopes scopes hSet

/- A variable is declared in the innermost scope. -/
theorem Locals.names_declare :
    SameBelow l.names (l.declare name v).names := by
  unfold declare
  split
  · exact .of_eq rfl
  · rename_i hScopes
    unfold names
    rw [hScopes]
    exact ⟨rfl, rfl⟩

end Names

------------------------------------------------------------
-- Runs that Leave Names and Frames Alone
------------------------------------------------------------

/- An end of a run that is no panic. -/
def Unbroken
    {β : Type}
    (r : Except Interrupt β) : Prop :=
  ∀ message, r ≠ .error (.panic message)

/-
  A run that changes the names of the scopes as `L` says, and
  keeps the frames unless it panics.
-/
def Leaves
    (L : List (List String) → List (List String) → Prop)
    (marks : Prop)
    (β : Type)
    (x _y : Run β) : Prop :=
  ∀ m, L m.locals.names (x m).2.locals.names ∧
    (Unbroken (x m).1 → FramesKept marks m.frames (x m).2.frames)

/- A run that keeps the names of all scopes. -/
abbrev Restores :=
  Leaves Eq

/- A run that keeps the names below the innermost scope. -/
abbrev Balances :=
  Leaves SameBelow

section Runs

variable {L : List (List String) → List (List String) → Prop}
variable {marks marks' : Prop}
variable {α β : Type}

/- A result is no panic. -/
theorem unbroken_ok
    (b : β) : Unbroken (.ok b : Except Interrupt β) :=
  fun _ h => by cases h

/- A run may mark a frame that may be marked anyway. -/
theorem Leaves.weaken
    {x y : Run β}
    (h : Leaves L marks β x y)
    (hMarks : marks → marks') : Leaves L marks' β x y :=
  fun m => ⟨(h m).1, fun hEnd =>
    ((h m).2 hEnd).imp_right fun hMarked =>
      ⟨hMarks hMarked.1, hMarked.2⟩⟩

/- A sequence leaves what its parts leave. -/
theorem Leaves.bind
    (hTrans : ∀ {ks ns os}, L ks ns → L ns os → L ks os)
    {x y : Run α}
    {f g : α → Run β}
    (hx : Leaves L marks α x y)
    (hf : ∀ a, Leaves L marks β (f a) (g a)) :
    Leaves L marks β (x >>= f) (y >>= g) := by
  intro m
  have hFirst := hx m
  rw [bind_apply]
  rcases hEnd : x m with ⟨r, m'⟩
  rw [hEnd] at hFirst
  cases r with
  | error c =>
    refine ⟨hFirst.1, fun hUnbroken => hFirst.2 ?_⟩
    rintro message ⟨⟩
    exact hUnbroken message rfl
  | ok a =>
    have hNext := hf a m'
    exact ⟨hTrans hFirst.1 hNext.1, fun hUnbroken =>
      (hFirst.2 (unbroken_ok a)).trans (hNext.2 hUnbroken)⟩

/- A run that keeps all names declares none. -/
theorem Leaves.balances
    {x y : Run β}
    (h : Restores marks β x y) : Balances marks β x y :=
  fun m => ⟨.of_eq (h m).1, (h m).2⟩

/- A frame is left as it was entered, so no mark gets out. -/
theorem Leaves.inFrame
    {x y : Run β}
    (h : Restores marks β x y)
    (frame : Frame) :
    Restores False β (ExecTrace.inFrame frame x)
      (ExecTrace.inFrame frame y) := by
  intro m
  have hBody := h { m with frames := frame :: m.frames }
  unfold ExecTrace.inFrame
  generalize x { m with frames := frame :: m.frames } = r
    at hBody ⊢
  rcases r with ⟨r, m'⟩
  have hKept : Unbroken r →
      FramesKept False m.frames m'.frames.tail :=
    fun hEnd => .inl (hBody.2 hEnd).tail
  cases r with
  | ok b => exact ⟨hBody.1, hKept⟩
  | error c =>
    cases c with
    | panic message =>
      exact ⟨hBody.1, fun hEnd => absurd rfl (hEnd message)⟩
    | _ => exact ⟨hBody.1, hKept⟩

/- Runs that keep all names are a congruence. -/
theorem congruence_restores : Congruence (Restores marks) where
  pure _ := fun _ => ⟨rfl, fun _ => .refl⟩
  bind hx hf := Leaves.bind (L := Eq) Eq.trans hx hf
  look hf := fun m => hf m m
  cut _ _ := fun _ => ⟨rfl, fun _ => .refl⟩
  alter _ hf := fun m =>
    ⟨congrArg Locals.names (hf.locals m).symm,
      fun _ => .inl (hf.frames m)⟩
  inFrame frame _ h := (h.inFrame frame).weaken False.elim

/- Runs that may declare variables follow each other. -/
theorem carries_balances : Carries Run Run (Balances marks) where
  pure _ := fun _ => ⟨.of_eq rfl, fun _ => .refl⟩
  bind hx hf := Leaves.bind (L := SameBelow) SameBelow.trans hx hf

/- A scope of its own is gone behind a run. -/
theorem Leaves.inScope
    {x y : Run β}
    (h : Balances marks β x y) :
    Restores marks β (ExecTrace.inScope x)
      (ExecTrace.inScope y) := by
  intro m
  have hBody := h
    { m with
      locals := { m.locals with scopes := [] :: m.locals.scopes } }
  unfold ExecTrace.inScope
  dsimp only
  generalize x _ = r at hBody ⊢
  rcases r with ⟨r, m'⟩
  have hLength : m'.locals.scopes.length
      = m.locals.scopes.length + 1 := by
    simpa [Locals.names] using hBody.1.length
  have hDrop : m'.locals.scopes.length - m.locals.scopes.length
      = 1 := by omega
  have hNames : (m'.locals.scopes.drop
      (m'.locals.scopes.length - m.locals.scopes.length)).map
        (fun scope => scope.map Prod.fst) = m.locals.names := by
    rw [hDrop, List.drop_one, List.map_tail]
    exact hBody.1.tail
  exact ⟨hNames.symm, hBody.2⟩

/- Other local variables are gone behind a run with them. -/
theorem Leaves.withLocals
    {x y : Run β}
    (h : Balances marks β x y)
    (locals : Locals) :
    Restores marks β (ExecTrace.withLocals locals x)
      (ExecTrace.withLocals locals y) :=
  fun m => ⟨rfl, (h { m with locals := locals }).2⟩

/- A variable is declared. -/
theorem balances_declareLocal
    (name : String)
    (v : Val) :
    Balances marks Unit (declareLocal name v)
      (declareLocal name v) :=
  fun _ => ⟨Locals.names_declare, fun _ => .refl⟩

/- A variable is set, if it is declared. -/
theorem restores_setLocal
    (name : String) : Congruence.Sets (Restores marks) name := by
  intro v m
  unfold setLocal
  rw [get_bind_apply]
  cases hSet : m.locals.set? name v with
  | none => exact ⟨rfl, fun _ => .refl⟩
  | some locals =>
    exact ⟨(Locals.names_set hSet).symm, fun _ => .refl⟩

/- A handler is run if something is thrown. -/
theorem Leaves.catching
    {body body' : Run Flow}
    {handle handle' : Val → Run Flow}
    (hBody : Restores marks Flow body body')
    (hHandle : ∀ v, Restores marks Flow (handle v) (handle' v)) :
    Restores marks Flow (ExecTrace.catching body handle)
      (ExecTrace.catching body' handle') := by
  intro m
  have hFirst := hBody m
  unfold ExecTrace.catching
  generalize body m = r at hFirst ⊢
  rcases r with ⟨r, m'⟩
  cases r with
  | ok flow => exact hFirst
  | error c =>
    cases c with
    | throw v =>
      have hNext := hHandle v m'
      have hThrown : FramesKept marks m.frames m'.frames :=
        hFirst.2 fun _ h => by cases h
      exact ⟨hFirst.1.trans hNext.1,
        fun hEnd => hThrown.trans (hNext.2 hEnd)⟩
    | _ => exact hFirst

/- A text that the program may fail to give. -/
theorem restores_textUnlessThrown
    {x y : Run String}
    (h : Restores marks String x y) :
    Restores marks (Option String) (textUnlessThrown x)
      (textUnlessThrown y) := by
  intro m
  have hText := h m
  unfold textUnlessThrown
  generalize x m = r at hText ⊢
  rcases r with ⟨r, m'⟩
  -- Only a panic breaks a run, and a panic is passed on.
  have hKept : Unbroken r → FramesKept marks m.frames m'.frames :=
    hText.2
  cases r with
  | ok text => exact ⟨hText.1, fun _ => hKept (unbroken_ok text)⟩
  | error c =>
    cases c with
    | panic message =>
      exact ⟨hText.1, fun hEnd => absurd rfl (hEnd message)⟩
    | _ => exact ⟨hText.1, fun _ => hKept fun _ h => by cases h⟩

/- An action is recorded. -/
theorem restores_record
    {capture capture' : Live → Run Snapshot}
    (h : ∀ l, Restores marks Snapshot (capture l) (capture' l))
    (a : Action Unit Live)
    (span : Span) :
    Restores marks (Option EventId)
      (record Machine.slot misuse capture a span)
      (record Machine.slot misuse capture' a span) := by
  intro m
  unfold record
  cases hSlot : (Machine.slot.get m).bind Recorder.suspend? with
  | none => exact ⟨rfl, fun _ => .refl⟩
  | some r =>
    have hCapture := congruence_restores.mapAction a h
      (Machine.slot.set r m)
    simp only [ExceptT.run]
    generalize a.mapM capture (Machine.slot.set r m) = e
      at hCapture ⊢
    rcases e with ⟨captured, m'⟩
    have hNames : m.locals.names = m'.locals.names := hCapture.1
    have hFrames : Unbroken captured →
        FramesKept marks m.frames m'.frames := hCapture.2
    cases captured with
    | error c =>
      simp only [locals_update, frames_update]
      refine ⟨hNames, fun hEnd => hFrames ?_⟩
      rintro message ⟨⟩
      exact hEnd message rfl
    | ok b =>
      have hKept := hFrames (unbroken_ok b)
      dsimp only
      split
      · exact ⟨hNames, fun _ => hKept⟩
      · split
        · simp only [locals_update, frames_update]
          exact ⟨hNames, fun _ => hKept⟩
        · exact ⟨hNames, fun _ => hKept⟩

/- Runs that keep all names report. -/
theorem reporting_restores : Reporting (Restores marks) where
  toCongruence := congruence_restores
  panic _ := fun _ => ⟨rfl, fun _ => .refl⟩
  textUnlessThrown := restores_textUnlessThrown
  record := restores_record

/- The current activation is marked. -/
theorem restores_markInstrumented
    (hMarks : marks) :
    Restores marks Unit markInstrumented markInstrumented := by
  intro m
  unfold markInstrumented
  rw [modify_apply]
  cases hFrames : m.frames with
  | nil => exact ⟨rfl, fun _ => .inl hFrames⟩
  | cons f rest => exact ⟨rfl, fun _ => .inr ⟨hMarks, rfl⟩⟩

end Runs

end ExecTrace
