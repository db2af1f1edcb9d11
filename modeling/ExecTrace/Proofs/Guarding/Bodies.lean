import ExecTrace.Proofs.Guarding.Speakers
import ExecTrace.Proofs.Retelling.Runs

/-
  Methods under guard. A method may run constructors before it
  tells that it starts; from then on its code is inside of it. When
  it ends, all that has changed is that the innermost call knows
  how. By induction on the fuel the methods of a program move no
  further than they may.

  Main declarations:
    * `Moves.through`
    * `Admits`
    * `obeys_runBody`
    * `invokes_perform`
    * `invokes_guarded`
-/

namespace ExecTrace

open Run
open Instrument (Site excludes)
open Teller (splitSuper)

variable {K : Rules}

------------------------------------------------------------
-- Activations of a Method
------------------------------------------------------------

section Activations

variable {g : Phase}
variable {f : Frame}
variable {m : Machine}
variable {frames : List Frame}
variable {exception : Option Val}
variable {h h' : Heap}
variable {s t : Tape}

/- The frame of a method that reports. -/
def Frame.marked (f : Frame) : Frame :=
  { f with instrumented := true }

/-
  A method that ends moves its caller: of what a constructor above
  it did no more is known than of the method itself.
-/
theorem Moves.through
    (hBare : f.instrumented = false)
    (hIdle : s.Idle)
    (hMoves : Moves K (f :: frames) none h s t)
    (frame : OpenFrame)
    (callee : Callee)
    {child : Child}
    (hFits : child.Fits h' exception) :
    Moves K frames exception h' s
      ((t.entered frame callee
        (enclosingFrames (f.marked :: frames))).shut K child) := by
  have hNil : enclosingFrames (f.marked :: frames) = [] ↔
      bare frames = false := enclosing_eq_nil
  have hOwned : owns (enclosingFrames (f.marked :: frames))
      = owned frames := owns_enclosing
  have hCall : ∀ frame' callee' args direct child' rest,
      s = .running (⟨frame', .call callee' args direct .none⟩ :: rest) →
      t = .running (⟨frame', .call callee' args direct child'⟩ :: rest) →
      (child' = .none ∨ K.strict = true ∧ owned frames = true) →
      Moves K frames exception h' s
        ((t.entered frame callee
          (enclosingFrames (f.marked :: frames))).shut K child) := by
    rintro frame' callee' args direct child' rest rfl rfl hChild
    have hLast : (if K.strict && owned frames then child else child')
          = .none ∨ K.strict = true ∧ owned frames = true ∧
        (if K.strict && owned frames then child
          else child').Fits h' exception := by
      cases hCounts : K.strict && owned frames with
      | true =>
        simp only [Bool.and_eq_true] at hCounts
        exact .inr ⟨hCounts.1, hCounts.2, hFits⟩
      | false =>
        refine .inl (hChild.resolve_right fun hOwn => ?_)
        simp [hOwn.1, hOwn.2] at hCounts
    simp only [Tape.entered, Tape.shut, hOwned]
    cases hDirect : bare frames with
    | true =>
      rw [if_neg (by simp [hNil, hDirect])]
      exact .call (fun _ => rfl) hLast
    | false =>
      rw [if_pos (hNil.mpr hDirect)]
      exact .call (fun h => by simp [hDirect] at h) hLast
  cases hMoves with
  | same =>
    cases s with
    | held r => exact .same _
    | running tiers =>
      rcases tiers with _ | ⟨⟨frame', role⟩, rest⟩
      · simp only [Tape.entered, Tape.shut, started, ite_self]
        exact .same _
      · cases role with
        | enter callee' own =>
          simp only [Tape.entered, Tape.shut, started, ite_self]
          exact .same _
        | call callee' args direct child' =>
          have hNone : child' = .none := hIdle _ rfl _ rfl
          subst hNone
          exact hCall _ _ _ _ _ _ rfl rfl (.inl rfl)
  | call hDirect hChild =>
    obtain rfl := hDirect (by simp [bare, hBare])
    refine hCall _ _ _ _ _ _ rfl rfl (hChild.imp_right ?_)
    rintro ⟨hStrict, hOwn, _⟩
    exact ⟨hStrict, owned_of_cons hBare hOwn⟩

/- A machine in the frame of a method that is about to end. -/
def Inward
    (K : Rules)
    (g : Phase)
    (exception : Option Val)
    (m : Machine) : Prop :=
  Moved K g.frames g exception { m with frames := m.frames.tail }

/- A machine in the frame of a method after a fault. -/
def Adrift
    (K : Rules)
    (g : Phase)
    (m : Machine) : Prop :=
  Lost K g { m with frames := m.frames.tail }

/- The phase of a method that has told that it started. -/
def Phase.inside
    (g : Phase)
    (f : Frame)
    (frame : OpenFrame)
    (callee : Callee)
    (t : Tape) : Phase where
  frames := f.marked :: g.frames
  since := g.since
  tape := t.entered frame callee (enclosingFrames (f.marked :: g.frames))

/- A machine in which a method has told that it started. -/
def Started
    (K : Rules)
    (g : Phase)
    (f : Frame)
    (callee : Callee)
    (m : Machine) : Prop :=
  ∃ h t frame, Moves K (f :: g.frames) none h g.tape t ∧
    At K (g.inside f frame callee t) m

section Inward

variable {frame : OpenFrame}
variable {callee : Callee}

/- A method that has started is inside of itself. -/
theorem inside_of_moves
    (hDeep : g.tape.Deep K)
    (hMoves : Moves K (f :: g.frames) none h g.tape t) :
    Inside K callee.method (g.inside f frame callee t) := by
  intro tiers hTape
  have hFloor := hMoves.deep hDeep
  cases t with
  | held r => cases hTape
  | running tiers' =>
    cases hTape
    refine ⟨_, _, _, _, rfl, rfl, ?_⟩
    split
    · rw [frames_started]
      exact hFloor _ rfl
    · exact hFloor _ rfl

/- A machine in which a method has told its end. -/
def Shut
    (K : Rules)
    (g : Phase)
    (exception : Option Val)
    (m : Machine) : Prop :=
  ∃ child : Child, child.Fits m.heap exception ∧
    At K (g.on (g.tape.shut K child)) m

/- A method that has told its end may be left. -/
theorem inward_of_shut
    (hBare : f.instrumented = false)
    (hIdle : g.tape.Idle)
    (hMoves : Moves K (f :: g.frames) none h g.tape t)
    (hm : Shut K (g.inside f frame callee t) exception m) :
    Inward K g exception m := by
  rcases hm with ⟨child, hFits, hm⟩
  exact ⟨_, hMoves.through hBare hIdle frame callee hFits,
    congrArg List.tail hm.frames, hm.since, hm.tape⟩

/- A method that has started is left with a fault. -/
theorem adrift_of_lost
    (hMoves : Moves K (f :: g.frames) none h g.tape t)
    (hm : Lost K (g.inside f frame callee t) m) : Adrift K g m := by
  refine ⟨congrArg List.tail hm.frames, hm.since, hMoves.spilt ?_⟩
  have hTape := hm.tape
  cases t <;> exact hTape

/- A method that has told nothing may be left. -/
theorem inward_of_moved
    (hBare : f.instrumented = false)
    (hm : Moved K (f :: g.frames) (g.push f) exception m) :
    Inward K g exception m :=
  hm.pop.outer hBare

/- What is known of a method at the end of its body. -/
def Ended
    (K : Rules)
    (g : Phase)
    (d : MethodDef)
    (flow : Flow)
    (m : Machine) : Prop :=
  match flow with
  | .normal => d.ret = .void → Inward K g none m
  | .return _ => Inward K g none m
  | _ => Adrift K g m

/-
  What is known of a method that has ended with a flow, where a
  jump out of the method is a fault.
-/
def OfFlow
    (ended lost : Machine → Prop)
    (flow : Flow)
    (m : Machine) : Prop :=
  match flow with
  | .normal => ended m
  | .return _ => ended m
  | _ => lost m

end Inward

end Activations

------------------------------------------------------------
-- Programs
------------------------------------------------------------

/-
  The test of the code in front of the start of a method: source
  code, without a further super call if the rules are strict.
-/
def Test.outer (strict : Bool) : Test where
  expr := Test.sourceExpr
  stmt := fun s =>
    Test.sourceStmt s && !(strict && startsWithSuper [s])

/- Whether no super call is in the arguments of another one. -/
def Program.superless (p : Program) : Bool :=
  p.classes.all fun c => c.methods.all fun m =>
    match m.body with
    | some (⟨.superCall _ args, _⟩ :: _) =>
      passExprs (Test.outer true) args
    | _ => true

/-
  A program whose runs can be followed: a source program of which,
  if the rules are strict, no class is left out, and no super call
  is in the arguments of another one.
-/
structure Admits
    (K : Rules)
    (exclusions : List Pattern) : Prop where
  source : K.program.passes Test.source = true
  told : K.strict = true → ∀ c ∈ K.program.classes,
    excludes exclusions c.name = false
  superless : K.strict = true → K.program.superless = true

section Programs

variable {exclusions : List Pattern}
variable {c : ClassDef}
variable {d : MethodDef}
variable {body : List Stmt}

/- Code in front of the start of a method is source code. -/
theorem Test.outer_weaker
    (strict : Bool) : (Test.outer strict).Weaker Test.source where
  expr := fun _ he => he
  stmt := fun s hs => by
    simp only [outer, Bool.and_eq_true] at hs
    exact hs.1

/- The body of a method is source code. -/
theorem Admits.source_body
    (h : Admits K exclusions)
    (hDeclared : K.program.Declares c d)
    (hBody : d.body = some body) :
    passStmts Test.source body = true := by
  have hSource := h.source
  simp only [Program.passes, List.all_eq_true] at hSource
  have hMethod := hSource c hDeclared.1 d hDeclared.2
  simp only [MethodDef.passes, hBody, Bool.and_eq_true] at hMethod
  exact hMethod.2

/- The arguments of a super call in front of a body are code. -/
theorem Admits.source_args
    (h : Admits K exclusions)
    (hDeclared : K.program.Declares c d)
    {signature : String}
    {args : List Expr}
    {span : Span}
    {rest : List Stmt}
    (hBody : d.body = some (⟨.superCall signature args, span⟩ :: rest)) :
    passExprs (Test.outer K.strict) args = true := by
  cases hStrict : K.strict with
  | true =>
    have hSuperless := h.superless hStrict
    simp only [Program.superless, List.all_eq_true] at hSuperless
    have hMethod := hSuperless c hDeclared.1 d hDeclared.2
    rw [hBody] at hMethod
    exact hMethod
  | false =>
    have hSource := h.source_body hDeclared hBody
    simp only [passStmts, Stmt.passes, StmtForm.passes,
      Bool.and_eq_true] at hSource
    have hWeaker : Test.source.Weaker (Test.outer false) :=
      ⟨fun _ he => he, fun s hs => by
        simp only [Test.outer, Bool.false_and, Bool.not_false,
          Bool.and_true]
        exact hs⟩
    exact passExprs_weaker hWeaker args hSource.1.2

end Programs

------------------------------------------------------------
-- Bodies
------------------------------------------------------------

/- The runs of a program with some fuel stay in their phases. -/
structure Guarded
    (K : Rules)
    (T : Teller)
    (n : Nat) : Prop where
  invoke : Invokes K (T.invoke K.program n)
  inside : ∀ name, Parts K (T.runner K.program n) (some name)
    Test.source (Inside K name)
  outside : ∀ name, Parts K (T.runner K.program n) (some name)
    (Test.outer K.strict) (Outside K)
  muted : Parts K (T.runner K.program n) none Test.source (Muted K)
  first : ∀ (site : Site) signature args span,
    passExprs (Test.outer K.strict) args = true →
    ∀ g, Outside K g →
      Obeys (At K g)
        (T.exec K.program n (some site)
          ⟨.superCall signature args, span⟩)
        (fun flow m => flow = .normal ∧ Moved K g.frames g none m)
        (fun v => Moved K g.frames g (some v)) (Lost K g)

section Bodies

variable {X : Splice}
variable [X.Guards]
variable {n : Nat}
variable {g : Phase}
variable {c : ClassDef}
variable {d : MethodDef}
variable {i : Invoker}

/- A method tells that it starts, once its frame is marked. -/
theorem obeys_entering
    {r : SiteRunner}
    (hDeclared : K.program.Declares c d)
    (hg : Expects K d.name d.arity g) :
    Obeys
      (Moved K (⟨c.name, d.name, false⟩ :: g.frames)
        (g.push ⟨c.name, d.name, false⟩) none)
      (X.teller.entering K.program r n c d)
      (fun _ => Started K g ⟨c.name, d.name, false⟩
        ⟨c.name, d.name, d.signature⟩)
      (fun _ _ => False) fun _ => False := by
  rcases g with ⟨φ, since, tape⟩
  rintro m ⟨t, hMoves, hm⟩
  have hMoves : Moves K (⟨c.name, d.name, false⟩ :: φ) none m.heap
    tape t := hMoves
  have hMarked : At K ⟨⟨c.name, d.name, true⟩ :: φ, since, t⟩
      { m with frames := ⟨c.name, d.name, true⟩ :: φ } :=
    ⟨rfl, hm.since, hm.tape⟩
  have hFrames : m.frames = ⟨c.name, d.name, false⟩ :: φ := hm.frames
  have hMark : markInstrumented m
      = (.ok (), { m with
        frames := ⟨c.name, d.name, true⟩ :: φ }) := by
    unfold markInstrumented
    rw [modify_apply, hFrames]
  change Met _ _ _ ((do
    markInstrumented
    X.teller.tell K.program r.invoke n d.span fun k =>
      .enter ⟨c.name, d.name, d.signature⟩ (enclosingFrames k.frames)
    watch X.observer (.entered ⟨c.name, d.name, d.signature⟩)
      : Run Unit) m)
  rw [bind_ok hMark]
  have hChild : ∀ tiers, t = .running tiers →
      ∀ tier ∈ tiers.head?, tier.role.child.isThrown = false := by
    rintro tiers rfl tier hTier
    cases hMoves with
    | same =>
      rw [hg.idle tiers rfl tier hTier]
      rfl
    | @call frame callee args direct direct' child rest _ hChild =>
      cases hTier
      rcases hChild with rfl | ⟨_, _, hFits⟩
      · rfl
      · cases child with
        | thrown s =>
          rcases hFits with ⟨_, _, hNone, _⟩
          cases hNone
        | _ => rfl
  refine Obeys.bind (obeys_enter ⟨c.name, d.name, d.signature⟩
    (fun hNil tiers hTape => ?_)
    fun _ _ tiers hTape => hChild tiers hTape)
    (fun _ => .watch fun k ⟨frame, hk⟩ _ => ⟨_, t, frame, hMoves, hk⟩)
    _ hMarked
  -- A direct start answers the call that is told.
  have hTold : bare φ = false := enclosing_eq_nil.mp hNil
  obtain rfl : t = .running tiers := hTape
  have hTakes : K.program.Takes ⟨c.name, d.name, d.signature⟩ d.arity :=
    ⟨c, d, hDeclared, rfl, rfl, rfl, rfl⟩
  rcases tiers with _ | ⟨⟨frame, role⟩, rest⟩
  · trivial
  · cases role with
    | enter callee own => trivial
    | call callee args direct child =>
      have hDirect : ∀ direct child, tape = .running
          (⟨frame, .call callee args direct child⟩ :: rest) →
          direct = false ∧ callee.method = d.name ∧ args = d.arity :=
        fun direct child => hg.direct hTold _ _ _ _ _ _
      cases hMoves with
      | same =>
        rcases hDirect direct child rfl with ⟨hNew, hName, rfl⟩
        exact ⟨hNew, hName, hTakes⟩
      | call hSame _ =>
        rcases hDirect _ _ rfl with ⟨hNew, hName, rfl⟩
        exact ⟨(hSame rfl).trans hNew, hName, hTakes⟩

/- What is known of the rest of a body at its end. -/
def Rested
    (K : Rules)
    (g : Phase)
    (d : MethodDef)
    (flow : Flow)
    (m : Machine) : Prop :=
  match flow with
  | .normal => d.ret = .void → Shut K g none m
  | .return _ => Shut K g none m
  | _ => At K g m

/- The rest of a body is run, and its end is told. -/
theorem obeys_restOfBody
    (ih : Guarded K X.teller n)
    {site : Site}
    (hSite : site.method = d.name)
    {rest : List Stmt}
    (hRest : passStmts Test.source rest = true)
    (hTold : bare g.frames = false)
    (hg : Inside K d.name g) :
    Obeys (At K g)
      (X.teller.restOfBody K.program (X.teller.runner K.program n) n
        (some site) d rest)
      (Rested K g d) (fun _ => At K g) (Lost K g) := by
  have hVia : (some site).map Site.method = some d.name :=
    congrArg some hSite
  have hRun := Ends.runAll rest fun s hs =>
    (ih.inside d.name).exec (some site) hVia s
      (passes_of_passStmts hRest s hs)
  refine Obeys.bind (hRun g hg) fun flow => ?_
  cases flow with
  | normal =>
    dsimp only
    split
    · refine Obeys.via (fun _ => Shut K g none)
        ((obeys_leave ih.invoke d.span.ending .endOfBody nofun
          hg).weaken (fun _ hm => hm) (fun _ _ hm => hm.2)
          (fun _ _ hm => hm.elim) fun _ hm => hm.elim)
        fun _ => .pure fun _ hm _ => hm
    · rename_i hVoid
      exact .pure fun _ _ h => absurd h hVoid
  | «return» v =>
    refine .pure fun m hm => ⟨.returned, rfl, ?_⟩
    have hLeft : At K (g.left K) m := hm
    unfold Phase.left at hLeft
    rw [hTold] at hLeft
    exact hLeft
  | _ => exact .pure fun _ hm => hm

/- The rest of a body is guarded: an exception is told. -/
theorem obeys_rest
    (ih : Guarded K X.teller n)
    {site : Site}
    (hSite : site.method = d.name)
    {rest : List Stmt}
    (hRest : passStmts Test.source rest = true)
    (hTold : bare g.frames = false)
    (hg : Inside K d.name g) :
    Obeys (At K g)
      (Teller.onThrow
        (X.teller.restOfBody K.program (X.teller.runner K.program n) n
          (some site) d rest)
        fun e => X.teller.leave K.program (X.teller.runner K.program n)
          n d.span d.name (.exceptional (shown Ty.throwable e)))
      (Rested K g d) (fun v => Shut K g (some v)) (Lost K g) := by
  refine (obeys_restOfBody ih hSite hRest hTold hg).onThrow fun v => ?_
  refine (obeys_leave ih.invoke d.span
    (.exceptional (shown Ty.throwable v)) ?_ hg).weaken
    (fun _ hm => hm) (fun _ _ hm => hm.2) (fun _ _ hm => hm)
    fun _ hm => hm.elim
  rintro s ⟨⟩
  rfl

/- The constructors above a class are run, unless a body does. -/
theorem obeys_constructAbove
    (hi : Invokes K i)
    (hg : Outside K g)
    (body : List Stmt)
    (self : Option Val) :
    Ventures K g (constructAbove K.program i c d body self) := by
  unfold constructAbove
  split
  · exact ventures_implicitSuper hi c _ (hg.expects _ _)
  · exact .pure fun _ hm => .of_at hm

/- A super call in front of a body is run. -/
omit [X.Guards] in
theorem obeys_splitSuper
    (ih : Guarded K X.teller n)
    (hAdmits : Admits K X.exclusions)
    (hDeclared : K.program.Declares c d)
    {body : List Stmt}
    (hBody : d.body = some body)
    (self : Option Val)
    (site : Site)
    (hg : Outside K g) :
    Obeys (At K g)
      (do
        constructAbove K.program
          (X.teller.invoke K.program n) c d body self
        runAll (X.teller.exec K.program n (some site))
          (splitSuper d body).1)
      (fun flow m => flow = .normal ∧ Moved K g.frames g none m)
      (fun v => Moved K g.frames g (some v)) (Lost K g) := by
  by_cases hSuper : (d.isConstructor && startsWithSuper body) = true
  · have hNone : constructAbove K.program
        (X.teller.invoke K.program n) c d body self = pure () := by
      simp only [Bool.and_eq_true] at hSuper
      unfold constructAbove
      rw [hSuper.2]
      simp
    rw [hNone, pure_bind]
    unfold splitSuper
    rw [if_pos hSuper]
    simp only [Bool.and_eq_true] at hSuper
    rcases body with _ | ⟨⟨form, span⟩, rest⟩
    · cases hSuper.2
    · cases form with
      | superCall signature args =>
        refine Obeys.bind (ih.first site signature args span
          (hAdmits.source_args hDeclared hBody) g hg) fun flow => ?_
        refine .assuming (fun _ hm => hm.1) ?_
        rintro rfl
        exact .pure fun _ hm => hm
      | _ => simp [startsWithSuper] at hSuper
  · refine Obeys.bind (obeys_constructAbove ih.invoke hg body self)
      fun _ => ?_
    unfold splitSuper
    rw [if_neg hSuper]
    exact .pure fun _ hm => ⟨rfl, hm⟩

/- A method that reports nothing is run. -/
omit [X.Guards] in
theorem obeys_mutedBody
    (ih : Guarded K X.teller n)
    (hLax : K.strict = false)
    {body : List Stmt}
    (hBody : passStmts Test.source body = true)
    (self : Option Val)
    (hg : Outside K (g.push ⟨c.name, d.name, false⟩)) :
    Obeys (At K (g.push ⟨c.name, d.name, false⟩))
      (do
        constructAbove K.program
          (X.teller.invoke K.program n) c d body self
        runAll (X.teller.exec K.program n none) body)
      (Ended K g d) (fun v => Inward K g (some v)) (Adrift K g) := by
  have hMuted : Muted K (g.push ⟨c.name, d.name, false⟩) := ⟨hg, hLax⟩
  have hInward : ∀ exception m,
      At K (g.push ⟨c.name, d.name, false⟩) m →
        Inward K g exception m :=
    fun _ _ hm => inward_of_moved rfl (.of_at hm)
  have hRun := Ends.runAll body fun s hs =>
    ih.muted.exec none rfl s (passes_of_passStmts hBody s hs)
  refine Obeys.via (fun _ => At K (g.push ⟨c.name, d.name, false⟩))
    ((obeys_constructAbove ih.invoke hg body self).weaken
      (fun _ hm => hm) (fun _ _ hm => hMuted.still hm)
      (fun _ _ hm => inward_of_moved rfl hm) fun _ hm => hm.pop)
    fun _ => ?_
  refine (hRun _ hMuted).weaken (fun _ hm => hm) (fun flow m hm => ?_)
    (fun _ _ hm => hInward _ _ hm) fun _ hm => hm.pop
  cases flow with
  | normal => exact fun _ => hInward _ _ hm
  | «return» v =>
    have hLeft : At K ((g.push ⟨c.name, d.name, false⟩).left K) m := hm
    rw [hg.left] at hLeft
    exact hInward _ _ hLeft
  | _ => exact (At.lost (show At K _ m from hm) hg.deep).pop

/- A method that reports is run. -/
theorem obeys_toldBody
    (ih : Guarded K X.teller n)
    (hAdmits : Admits K X.exclusions)
    (hDeclared : K.program.Declares c d)
    {body : List Stmt}
    (hBody : d.body = some body)
    (self : Option Val)
    {site : Site}
    (hSite : site.method = d.name)
    (hg : Expects K d.name d.arity g) :
    Obeys (At K (g.push ⟨c.name, d.name, false⟩))
      (do
        constructAbove K.program
          (X.teller.invoke K.program n) c d body self
        match ← runAll (X.teller.exec K.program n (some site))
            (splitSuper d body).1 with
        | .normal => do
          X.teller.entering K.program (X.teller.runner K.program n) n c
            d
          Teller.onThrow
            (X.teller.restOfBody K.program
              (X.teller.runner K.program n) n (some site) d
              (splitSuper d body).2)
            fun e => X.teller.leave K.program
              (X.teller.runner K.program n) n d.span d.name
              (.exceptional (shown Ty.throwable e))
        | flow => pure flow)
      (Ended K g d) (fun v => Inward K g (some v)) (Adrift K g) := by
  have hOutside : Outside K (g.push ⟨c.name, d.name, false⟩) :=
    ⟨hg.deep, hg.idle, rfl⟩
  have hSource := hAdmits.source_body hDeclared hBody
  have hRest := (Teller.passStmts_splitSuper d hSource).2
  rw [← bind_assoc]
  refine Obeys.bind ((obeys_splitSuper ih hAdmits hDeclared hBody self
    site hOutside).weaken (fun _ hm => hm) (fun _ _ hm => hm)
    (fun _ _ hm => inward_of_moved rfl hm) fun _ hm => hm.pop)
    fun flow => ?_
  refine .assuming (fun _ hm => hm.1) ?_
  rintro rfl
  refine Obeys.via (fun _ => Started K g ⟨c.name, d.name, false⟩
      ⟨c.name, d.name, d.signature⟩)
    ((obeys_entering hDeclared hg).weaken (fun _ hm => hm.2)
      (fun _ _ hm => hm) (fun _ _ hm => hm.elim) fun _ hm => hm.elim)
    fun _ => ?_
  rintro m ⟨h, t, frame, hMoves, hm⟩
  have hInside : Inside K d.name
      (g.inside ⟨c.name, d.name, false⟩ frame
        ⟨c.name, d.name, d.signature⟩ t) :=
    inside_of_moves hg.deep hMoves
  refine ((obeys_rest ih hSite hRest rfl hInside).weaken
    (fun _ hm => hm) (fun flow k hk => ?_)
    (fun v k hk => inward_of_shut rfl hg.idle hMoves hk)
    fun k hk => adrift_of_lost hMoves hk) m hm
  cases flow with
  | normal =>
    exact fun hVoid => inward_of_shut rfl hg.idle hMoves (hk hVoid)
  | «return» v => exact inward_of_shut rfl hg.idle hMoves hk
  | _ =>
    exact adrift_of_lost hMoves
      (At.lost (show At K _ k from hk) hInside.deep)

/- What is known of a method when its end was watched. -/
theorem obeys_watchEnd
    (flow : Flow) :
    Obeys (Ended K g d flow)
      (do
        watchEnd X.observer d flow
        pure flow)
      (OfFlow (Inward K g none) (Adrift K g))
      (fun v => Inward K g (some v)) (Adrift K g) := by
  cases flow with
  | normal =>
    exact Obeys.via (fun _ => Inward K g none)
      (.watch fun m hm hWatch => hm (Splice.Guards.ended d m hWatch))
      fun _ => .pure fun _ hm => hm
  | _ => exact .pure fun _ hm => hm

/- A body is run in a frame and with variables of its own. -/
theorem obeys_inBody
    (ih : Guarded K X.teller n)
    (hAdmits : Admits K X.exclusions)
    (hDeclared : K.program.Declares c d)
    {body : List Stmt}
    (hBody : d.body = some body)
    (self : Option Val)
    (hg : Expects K d.name d.arity g) :
    Obeys (At K (g.push ⟨c.name, d.name, false⟩))
      (do
        constructAbove K.program
          (X.teller.invoke K.program n) c d body self
        let flow ← X.teller.runBody K.program
          (X.teller.runner K.program n) n c d body
        watchEnd X.observer d flow
        pure flow)
      (OfFlow (Inward K g none) (Adrift K g))
      (fun v => Inward K g (some v)) (Adrift K g) := by
  have hSource := hAdmits.source_body hDeclared hBody
  have hRun : Obeys (At K (g.push ⟨c.name, d.name, false⟩))
      (do
        constructAbove K.program
          (X.teller.invoke K.program n) c d body self
        X.teller.runBody K.program (X.teller.runner K.program n) n c d
          body)
      (Ended K g d) (fun v => Inward K g (some v)) (Adrift K g) := by
    unfold Teller.runBody
    split
    · rename_i hOut
      have hLax : K.strict = false := by
        by_contra hStrict
        have hTold := hAdmits.told (by simpa using hStrict) c
          hDeclared.1
        have hOut : excludes X.exclusions c.name = true := hOut
        rw [hTold] at hOut
        cases hOut
      exact obeys_mutedBody ih hLax hSource self
        ⟨hg.deep, hg.idle, rfl⟩
    · exact obeys_toldBody ih hAdmits hDeclared hBody self rfl hg
  rw [← bind_assoc]
  exact Obeys.bind hRun obeys_watchEnd

/- The methods of a program move no further than they may. -/
theorem invokes_perform
    (ih : Guarded K X.teller n)
    (hAdmits : Admits K X.exclusions) :
    Invokes K (X.teller.invoke K.program (n + 1)) := by
  intro c d hDeclared self args g hg
  change Obeys _ (activate X.observer K.program
    (X.teller.invoke K.program n)
    (X.teller.runBody K.program (X.teller.runner K.program n) n c d) c d
    self args) _ _ _
  unfold activate
  cases hBody : d.body with
  | none => exact (congruence_deep.fault _).ventures hg.deep
  | some body =>
    refine .look fun m hm => ?_
    split
    · exact (congruence_deep.fault _).ventures hg.deep m hm
    rename_i hArity
    split
    · exact (congruence_deep.raise _ _).ventures hg.deep m hm
    have hArity : args.length = d.arity := by simpa using hArity
    rw [hArity] at hg
    have hInBody := (obeys_inBody ih hAdmits hDeclared hBody self
      hg).withLocals (startLocals c d self args) At.blind
      (fun flow m l hm => by
        cases flow <;> first
          | exact Moved.blind _ l hm
          | exact Lost.blind _ l hm)
      (fun _ _ l hm => Moved.blind _ l hm)
      fun _ l hm => Lost.blind _ l hm
    refine Obeys.via
      (OfFlow (Moved K g.frames g none) (Lost K g))
      (hInBody.inFrame ⟨c.name, d.name, false⟩
        (fun _ hm => At.push hm _)
        (fun flow _ hm => by cases flow <;> exact hm)
        (fun _ _ hm => hm) fun _ hm => hm) (fun flow => ?_) m hm
    unfold resultOf
    cases flow with
    | normal => exact .pure fun _ hm => hm
    | «return» v => exact .pure fun _ hm => hm
    | _ => exact fun k hk => .lost hk

------------------------------------------------------------
-- Runs
------------------------------------------------------------

/- With no fuel nothing is run. -/
theorem guarded_zero
    {T : Teller} : Guarded K T 0 where
  invoke := fun _ _ _ _ _ _ _ _ _ => .spent
  inside := fun _ => ⟨fun _ _ _ _ _ _ _ _ => .spent,
    fun _ _ _ _ _ _ _ _ => .spent⟩
  outside := fun _ => ⟨fun _ _ _ _ _ _ _ _ => .spent,
    fun _ _ _ _ _ _ _ _ => .spent⟩
  muted := ⟨fun _ _ _ _ _ _ _ _ => .spent,
    fun _ _ _ _ _ _ _ _ => .spent⟩
  first := fun _ _ _ _ _ _ _ _ _ => .spent

/- Code of a kind stays in its phases with more fuel. -/
theorem parts_succ
    {T : Teller}
    {via : Option String}
    {t : Test}
    {G : Phase → Prop}
    (hi : Invokes K (T.invoke K.program n))
    (h : ∀ site : Option Site, site.map Site.method = via →
      Speaks K (T.on site) (T.runner K.program n) n via t G) :
    Parts K (T.runner K.program (n + 1)) via t G where
  eval := fun site hSite e he =>
    Stays.bind ((h site hSite).rests_evalForm hSite hi he) fun v =>
      Stays.bind (rests_watch T.observer (.value e v)) fun _ =>
        (h site hSite).congruence.pure v
  exec := fun site hSite _ hs => (h site hSite).ends_execForm hSite hs

/- The runs of a program stay in their phases. -/
theorem guarded_runs
    (hAdmits : Admits K X.exclusions)
    (n : Nat) : Guarded K X.teller n := by
  have hSome : ∀ {site : Option Site} {name : String},
      site.map Site.method = some name → ∃ s, site = some s := by
    intro site name hSite
    cases site with
    | none => cases hSite
    | some s => exact ⟨s, rfl⟩
  induction n with
  | zero => exact guarded_zero
  | succ n ih =>
    refine ⟨invokes_perform ih hAdmits, fun name => ?_, fun name => ?_,
      ?_, ?_⟩
    · refine parts_succ ih.invoke fun site hSite => ?_
      rcases hSome hSite with ⟨s, rfl⟩
      exact speaks_inside ⟨fun _ h => h, fun _ h => h⟩ ih.invoke
        (ih.inside name)
    · refine parts_succ ih.invoke fun site hSite => ?_
      rcases hSome hSite with ⟨s, rfl⟩
      exact speaks_outside (Test.outer_weaker K.strict)
        (fun hStrict _ _ _ => by
          simp [Test.outer, hStrict, startsWithSuper])
        ih.invoke (ih.outside name)
    · refine parts_succ ih.invoke fun site hSite => ?_
      rw [Option.map_eq_none_iff] at hSite
      subst hSite
      exact speaks_muted ⟨fun _ h => h, fun _ h => h⟩ ih.invoke ih.muted
    · intro site signature args span hArgs g hg
      have hParts := (ih.outside site.method).eval (some site) rfl
      have hc := congruence_outside (K := K)
      refine Obeys.via (fun _ => At K g)
        (((hc.currentSelf .superOutside) g hg).weaken (fun _ hm => hm)
          (fun _ _ hm => hm) (fun _ _ hm => .of_at hm) fun _ hm => hm)
        fun self => ?_
      refine Obeys.via (fun _ => At K g)
        ((hc.mapList args (fun e he => hParts e
          (passes_of_passExprs hArgs e he)) g hg).weaken
          (fun _ hm => hm) (fun _ _ hm => hm) (fun _ _ hm => .of_at hm)
          fun _ hm => hm) fun vs => ?_
      refine .look fun m hm => ?_
      exact Obeys.bind (ventures_superCall ih.invoke m.locals.cls self
        vs (hg.expects _ _)) (fun _ => .pure fun _ hm => ⟨rfl, hm⟩) m hm

/-
  The methods of a program that is followed move no further than
  they may.
-/
theorem invokes_guarded
    (hAdmits : Admits K X.exclusions)
    (n : Nat) : Invokes K (X.teller.invoke K.program n) :=
  (guarded_runs hAdmits n).invoke

end Bodies

end ExecTrace
