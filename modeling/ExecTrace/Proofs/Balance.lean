import ExecTrace.Proofs.Leaving
import ExecTrace.Syntax.Build

/-
  Balanced runs. Whatever a run ends with, it leaves as many
  scopes as it found, and those below the innermost one with
  their names. Unless it is cut short by a panic, it leaves the
  frames as they were too, but for one mark: a probe that tells
  of the start of the current activation sets it on the innermost
  frame.

  Main declarations:
    * `Expr.Enters` and `Stmt.Enters`
    * `Balancing`
    * `restores_evalForm`, `balances_execForm`
    * `Balanced` and `runs_balanced`
    * `frames_of_call`
-/

namespace ExecTrace

open Run

------------------------------------------------------------
-- Probes of the Start of an Activation
------------------------------------------------------------

/- The expressions that a form may evaluate. -/
def ExprForm.exprs (form : ExprForm) : List Expr :=
  match form with
  | .letIn _ body => [body]
  | form => form.parts

/- The statements that a form may run. -/
def ExprForm.stmts : ExprForm → List Stmt
  | .switch _ arms => arms.flatMap Arm.body
  | .letIn stmts _ => stmts
  | _ => []

/- The expressions that a form may evaluate. -/
def StmtForm.exprs (form : StmtForm) : List Expr :=
  match form with
  | .cond test _ _ => [test]
  | .while _ test _ => [test]
  | .doWhile _ _ test => [test]
  | .for _ _ test update _ => test.toList ++ update
  | .forEach _ _ _ iterable _ => [iterable]
  | .switch selector _ => [selector]
  | .yield value => [value]
  | .probe told => told.operands.map Operand.expr
  | form => form.parts

/- The statements that a form may run. -/
def StmtForm.stmts : StmtForm → List Stmt
  | .block stmts => stmts
  | .cond _ onTrue onFalse => onTrue :: onFalse.toList
  | .while _ _ body => [body]
  | .doWhile _ body _ => [body]
  | .for _ init _ _ body => body :: init
  | .forEach _ _ _ _ body => [body]
  | .switch _ arms => arms.flatMap Arm.body
  | .try body catches => body ++ catches.flatMap Catch.body
  | _ => []

mutual

/-
  An expression in which some probe tells that the activation
  starts. Methods that are called are not looked into.
-/
inductive Expr.Enters : Expr → Prop where
  | expr
      {e x : Expr}
      (hx : x ∈ e.form.exprs)
      (h : x.Enters) : e.Enters
  | stmt
      {e : Expr} {s : Stmt}
      (hs : s ∈ e.form.stmts)
      (h : s.Enters) : e.Enters

/- A statement in which some probe tells so. -/
inductive Stmt.Enters : Stmt → Prop where
  | probe
      {s : Stmt} {probe : Probe Operand}
      (hForm : s.form = .probe probe)
      (h : probe.isEnter = true) : s.Enters
  | expr
      {s : Stmt} {x : Expr}
      (hx : x ∈ s.form.exprs)
      (h : x.Enters) : s.Enters
  | stmt
      {s t : Stmt}
      (ht : t ∈ s.form.stmts)
      (h : t.Enters) : s.Enters

end

/- A form that runs no statements evaluates its parts. -/
theorem ExprForm.exprs_of_flat
    {form : ExprForm}
    (h : form.isNested = false) : form.exprs = form.parts := by
  cases form with
  | letIn stmts body => cases h
  | _ => rfl

/- A plain form of statements evaluates its parts. -/
theorem StmtForm.exprs_of_plain
    {form : StmtForm}
    (h : form.isPlain = true) : form.exprs = form.parts := by
  cases form <;> first | rfl | cases h

------------------------------------------------------------
-- Constructs
------------------------------------------------------------

/-
  A way to run the parts of a program that keeps the names of
  all scopes in expressions, and those below the innermost one
  in statements. The call of a method marks no frame.
-/
structure Balancing (r : Runner) : Prop where
  eval : ∀ e, Restores e.Enters Val (r.eval e) (r.eval e)
  exec : ∀ s, Balances s.Enters Flow (r.exec s) (r.exec s)
  invoke : ∀ c m self args,
    Restores False Val (r.invoke c m self args)
      (r.invoke c m self args)

section Constructs

variable {marks : Prop}
variable {p : Program}
variable {r : Runner}
variable {ss : List Stmt}
variable {s : Stmt}
variable {arms : List Arm}

/- Methods are called in a run that marks what it may. -/
theorem Balancing.invokers
    (h : Balancing r) :
    Congruence.Invokers (Restores marks) p r.invoke r.invoke :=
  fun c m _ self args => (h.invoke c m self args).weaken False.elim

/- Statements are run one after the other. -/
theorem balances_runAll
    (h : Balancing r)
    (hss : ∀ s ∈ ss, s.Enters → marks) :
    Balances marks Flow (runAll r.exec ss) (runAll r.exec ss) := by
  induction ss with
  | nil => exact carries_balances.pure _
  | cons s rest ih =>
    have hFirst := (h.exec s).weaken (hss s List.mem_cons_self)
    refine carries_balances.bind hFirst fun flow => ?_
    cases flow with
    | normal => exact ih fun s hs => hss s (List.mem_cons_of_mem _ hs)
    | _ => exact carries_balances.pure _

/- The body of a loop is run once. -/
theorem restores_loopRound
    (h : Balancing r)
    (label : Option String)
    (hs : s.Enters → marks) :
    Restores marks (Option Flow) (loopRound r.exec label s)
      (loopRound r.exec label s) :=
  congruence_restores.loopRound ((h.exec s).weaken hs).inScope label

/- What is run with a variable of its own. -/
theorem restores_withVariable
    {β : Type}
    {x : Run β}
    (h : Balances marks β x x)
    (name : String)
    (v : Val) :
    Restores marks β (inScope (declareLocal name v >>= fun _ => x))
      (inScope (declareLocal name v >>= fun _ => x)) :=
  (carries_balances.bind (balances_declareLocal name v)
    fun _ => h).inScope

/- Statements in front of a loop are run in its scope. -/
theorem restores_initialized
    (h : Balancing r)
    {loop : Run Flow}
    (hss : ∀ s ∈ ss, s.Enters → marks)
    (hLoop : Restores marks Flow loop loop) :
    Restores marks Flow (initialized r.exec ss loop)
      (initialized r.exec ss loop) := by
  refine (carries_balances.bind (balances_runAll h hss)
    fun flow => ?_).inScope
  cases flow with
  | normal => exact hLoop.balances
  | _ => exact (congruence_restores.fault _).balances

/- The arms of a switch statement are run. -/
theorem balances_runArms
    (h : Balancing r)
    (hArms : ∀ arm ∈ arms, ∀ s ∈ arm.body, s.Enters → marks) :
    Balances marks Flow (runArms (runAll r.exec) arms)
      (runArms (runAll r.exec) arms) :=
  carries_balances.runArms fun arm harm =>
    balances_runAll h (hArms arm harm)

/- The arms of a switch expression are run. -/
theorem balances_yieldFromArms
    (h : Balancing r)
    (hArms : ∀ arm ∈ arms, ∀ s ∈ arm.body, s.Enters → marks) :
    Balances marks Val (yieldFromArms (runAll r.exec) arms)
      (yieldFromArms (runAll r.exec) arms) :=
  carries_balances.yieldFromArms
    (congruence_restores.fault _).balances
    (fun _ => (congruence_restores.faultEscaped _ _).balances)
    fun arm harm => balances_runAll h (hArms arm harm)

/- A switch statement is run on a value. -/
theorem restores_switchOn
    (h : Balancing r)
    (selector : Val)
    (hArms : ∀ arm ∈ arms, ∀ s ∈ arm.body, s.Enters → marks) :
    Restores marks Flow (switchOn p r.exec selector arms)
      (switchOn p r.exec selector arms) := by
  refine congruence_restores.switchOn
    (fun selected hSelected => ?_) selector
  exact (balances_runArms h fun arm harm =>
    hArms arm (hSelected arm harm)).inScope

/- A switch expression on a value. -/
theorem restores_switchValue
    (h : Balancing r)
    (selector : Val)
    (hArms : ∀ arm ∈ arms, ∀ s ∈ arm.body, s.Enters → marks) :
    Restores marks Val (switchValue p r.exec selector arms)
      (switchValue p r.exec selector arms) := by
  refine congruence_restores.switchValue
    (fun selected hSelected => ?_) selector
  exact (balances_yieldFromArms h fun arm harm =>
    hArms arm (hSelected arm harm)).inScope

/- The handler for an exception is run. -/
theorem restores_runHandler
    (h : Balancing r)
    {catches : List Catch}
    (hCatches : ∀ c ∈ catches, ∀ s ∈ c.body, s.Enters → marks)
    (exception : Val) :
    Restores marks Flow
      (runHandler p (fun c => runAll r.exec c.body) catches exception)
      (runHandler p (fun c => runAll r.exec c.body) catches
        exception) := by
  refine congruence_restores.runHandler fun c hc => ?_
  exact restores_withVariable (balances_runAll h (hCatches c hc)) _ _

/- An expression is evaluated. -/
theorem restores_evalForm
    (h : Balancing r)
    (e : Expr) :
    Restores e.Enters Val (Runner.evalForm .silent p r e)
      (Runner.evalForm .silent p r e) := by
  rcases e with ⟨form, ty, span⟩
  cases hNested : form.isNested with
  | false =>
    refine congruence_restores.evalForm h.invokers hNested
      (fun x hx => (h.eval x).weaken fun hEnters => .expr ?_ hEnters)
      fun name _ => restores_setLocal name
    rw [ExprForm.exprs_of_flat hNested]
    exact hx
  | true =>
    cases form with
    | switch selector arms =>
      refine congruence_restores.bind ((h.eval selector).weaken
        fun hEnters => .expr (List.mem_singleton_self _) hEnters)
        fun v => ?_
      refine congruence_restores.map (restores_switchValue h v
        fun arm harm s hs hEnters => .stmt ?_ hEnters) _
      exact List.mem_flatMap.mpr ⟨arm, harm, hs⟩
    | letIn stmts body =>
      unfold Runner.evalForm
      have hStmts : Balances
          (Expr.Enters ⟨.letIn stmts body, ty, span⟩) Flow
          (runAll r.exec stmts) (runAll r.exec stmts) :=
        balances_runAll h fun _ hs hEnters => .stmt hs hEnters
      refine (carries_balances.bind hStmts fun flow => ?_).inScope
      cases flow with
      | normal =>
        exact ((h.eval body).weaken fun hEnters =>
          .expr (List.mem_singleton_self _) hEnters).balances
      | _ => exact (congruence_restores.faultEscaped _ _).balances
    | _ => cases hNested

/- A variable is declared with a value of its own. -/
theorem balances_declare
    (h : Balancing r)
    (rounds : Nat)
    {name : String}
    {ty : Ty}
    {init : Option Expr}
    {span : Span}
    (hs : s = ⟨.declare name ty init, span⟩) :
    Balances s.Enters Flow (Runner.execForm .silent p r rounds s)
      (Runner.execForm .silent p r rounds s) := by
  have hDeclare : ∀ v, Balances s.Enters Flow
      (declareLocal name v >>= fun _ => pure .normal)
      (declareLocal name v >>= fun _ => pure .normal) :=
    fun v => carries_balances.map (balances_declareLocal name v) _
  subst hs
  cases init with
  | none => exact hDeclare _
  | some init =>
    have hInit := (h.eval init).weaken fun hEnters =>
      Stmt.Enters.expr (s := ⟨.declare name ty (some init), span⟩)
        (List.mem_singleton_self init) hEnters
    exact carries_balances.bind hInit.balances fun v => hDeclare _

/- A statement that declares no variable is run. -/
theorem restores_execForm
    (h : Balancing r)
    (rounds : Nat)
    (hOther : s.form.isDeclare = false) :
    Restores s.Enters Flow (Runner.execForm .silent p r rounds s)
      (Runner.execForm .silent p r rounds s) := by
  rcases s with ⟨form, span⟩
  have hExpr : ∀ x ∈ form.exprs,
      Restores (Stmt.Enters ⟨form, span⟩) Val
        (r.eval x) (r.eval x) :=
    fun x hx => (h.eval x).weaken fun hEnters => .expr hx hEnters
  have hStmt : ∀ t ∈ form.stmts,
      t.Enters → Stmt.Enters ⟨form, span⟩ :=
    fun t ht hEnters => .stmt ht hEnters
  cases hPlain : form.isPlain with
  | true =>
    rw [StmtForm.exprs_of_plain hPlain] at hExpr
    exact congruence_restores.execForm h.invokers hPlain hExpr rounds
  | false =>
    unfold Runner.execForm
    cases form with
    | block stmts => exact (balances_runAll h hStmt).inScope
    | cond test onTrue onFalse =>
      refine congruence_restores.bind (congruence_restores.truth
        (hExpr test (List.mem_singleton_self _))) fun b => ?_
      cases b with
      | true =>
        exact ((h.exec onTrue).weaken
          (hStmt onTrue List.mem_cons_self)).inScope
      | false =>
        cases onFalse with
        | none => exact congruence_restores.pure _
        | some onFalse =>
          exact ((h.exec onFalse).weaken
            (hStmt onFalse (by simp [StmtForm.stmts]))).inScope
    | «while» label test body =>
      have hTest := congruence_restores.truth
        (hExpr test (List.mem_singleton_self _))
      have hRound := restores_loopRound h label
        (hStmt body (List.mem_singleton_self _))
      exact congruence_restores.iterate
        (fun _ => congruence_restores.roundWhile hTest hRound)
        rounds 0
    | doWhile label body test =>
      have hTest := congruence_restores.truth
        (hExpr test (List.mem_singleton_self _))
      have hRound := restores_loopRound h label
        (hStmt body (List.mem_singleton_self _))
      exact congruence_restores.iterate
        (fun _ => congruence_restores.roundUntil hRound hTest)
        rounds 0
    | «for» label init test update body =>
      have hTest := congruence_restores.goesOn fun e he =>
        hExpr e (List.mem_append_left _ (Option.mem_toList.mpr he))
      have hUpdate := congruence_restores.performAll fun e he =>
        hExpr e (List.mem_append_right _ he)
      have hRound := restores_loopRound h label
        (hStmt body List.mem_cons_self)
      refine restores_initialized h
        (fun t ht => hStmt t (List.mem_cons_of_mem _ ht)) ?_
      exact congruence_restores.iterate
        (fun _ => congruence_restores.roundWhile hTest
          (congruence_restores.roundUntil hRound hUpdate)) rounds 0
    | forEach label var ty iterable body =>
      have hRound := restores_loopRound h label
        (hStmt body (List.mem_singleton_self _))
      refine congruence_restores.bind
        (hExpr iterable (List.mem_singleton_self _)) fun v => ?_
      refine congruence_restores.bind (congruence_restores.iterated v)
        fun address => ?_
      exact congruence_restores.iterate
        (congruence_restores.roundOver
          (restores_withVariable hRound.balances var) address ty)
        rounds 0
    | switch selector arms =>
      refine congruence_restores.bind
        (hExpr selector (List.mem_singleton_self _)) fun v => ?_
      exact restores_switchOn h v fun arm harm t ht =>
        hStmt t (List.mem_flatMap.mpr ⟨arm, harm, ht⟩)
    | «break» label => exact congruence_restores.pure _
    | «continue» label => exact congruence_restores.pure _
    | yield value =>
      exact congruence_restores.map
        (hExpr value (List.mem_singleton_self _)) _
    | «try» body catches =>
      have hBody := balances_runAll h fun t ht =>
        hStmt t (List.mem_append_left _ ht)
      refine hBody.inScope.catching fun v => ?_
      exact restores_runHandler h (fun c hc t ht =>
        hStmt t (List.mem_append_right _
          (List.mem_flatMap.mpr ⟨c, hc, ht⟩))) v
    | probe told =>
      have hMark := fun hEnter => restores_markInstrumented
        (Stmt.Enters.probe (s := ⟨.probe told, span⟩) rfl hEnter)
      have hOperands := fun o (ho : o ∈ told.operands) =>
        hExpr o.expr (List.mem_map_of_mem ho)
      refine congruence_restores.bind ?_ fun _ => ?_
      · cases told <;> exact congruence_restores.pure _
      refine congruence_restores.bind (reporting_restores.report
        hMark hOperands h.invokers rounds span) fun _ => ?_
      refine congruence_restores.bind ?_
        fun _ => congruence_restores.pure _
      cases told <;> exact congruence_restores.pure _
    | declare name ty init => cases hOther
    | _ => cases hPlain

/- A statement is run. -/
theorem balances_execForm
    (h : Balancing r)
    (rounds : Nat)
    (s : Stmt) :
    Balances s.Enters Flow (Runner.execForm .silent p r rounds s)
      (Runner.execForm .silent p r rounds s) := by
  rcases s with ⟨form, span⟩
  cases form with
  | declare name ty init => exact balances_declare h rounds rfl
  | _ => exact (restores_execForm h rounds rfl).balances

/- A method is run in a frame and with variables of its own. -/
theorem restores_perform
    (h : Balancing r)
    (owner : ClassDef)
    (m : MethodDef)
    (self : Option Val)
    (args : List Val) :
    Restores False Val (Runner.perform .silent p r owner m self args)
      (Runner.perform .silent p r owner m self args) := by
  refine congruence_restores.activate fun body _ => ?_
  refine congruence_restores.bind ?_
    fun flow => congruence_restores.resultOf owner m flow
  -- Whatever is marked inside, the frame is gone behind the body.
  refine Leaves.inFrame
    (Leaves.withLocals (?_ : Balances True Flow _ _) _) _
  refine carries_balances.bind (congruence_restores.constructAbove
    h.invokers owner m body self).balances fun _ => ?_
  refine carries_balances.bind
    (balances_runAll h fun _ _ _ => trivial) fun flow => ?_
  cases flow <;> exact carries_balances.pure _

end Constructs

------------------------------------------------------------
-- Runs of Programs
------------------------------------------------------------

section Programs

variable {p : Program}
variable {fuel : Nat}
variable {m m' : Machine}

/- The runs of a program are balancing, whatever their fuel is. -/
theorem balancing_runs
    (p : Program)
    (fuel : Nat) :
    Balancing ⟨eval .silent p fuel, exec .silent p fuel,
      invoke .silent p fuel⟩ := by
  induction fuel with
  | zero =>
    exact ⟨fun _ => congruence_restores.cut _ rfl,
      fun _ => (congruence_restores.cut _ rfl).balances,
      fun _ _ _ _ => congruence_restores.cut _ rfl⟩
  | succ fuel ih =>
    refine ⟨fun e => ?_, fun s => ?_, fun c m self args => ?_⟩
    · simp only [eval, watch_silent, pure_bind, bind_pure]
      exact restores_evalForm ih e
    · exact balances_execForm ih fuel s
    · exact restores_perform ih c m self args

/-
  A machine behind a run has as many scopes as before it, with
  the same names below the innermost one, and the same frames,
  but for the mark of the innermost one if the run may set it.
-/
structure Balanced
    (marks : Prop)
    (m m' : Machine) : Prop where
  depth : m'.locals.scopes.length = m.locals.scopes.length
  outer : m'.locals.names.tail = m.locals.names.tail
  frames : m'.frames = m.frames ∨
    marks ∧ m'.frames = markedFrames m.frames

/- A run that does not panic leaves a balanced machine. -/
theorem Leaves.balanced
    {marks : Prop}
    {β : Type}
    {x : Run β}
    (h : Balances marks β x x)
    (hEnd : Unbroken (x m).1) : Balanced marks m (x m).2 where
  depth := by simpa [Locals.names] using (h m).1.length
  outer := (h m).1.tail
  frames := (h m).2 hEnd

/-
  Scopes and frames are balanced on every path. However an
  expression or a statement ends, unless it is by a panic, there
  are as many scopes as before, those below the innermost one
  have the same names, and the frames are the same. Only the mark
  of the innermost frame may be set, and only if a probe in the
  tree tells that the activation starts. An expression keeps the
  names of the innermost scope as well.
-/
theorem runs_balanced
    (p : Program)
    (fuel : Nat)
    (m m' : Machine) :
    (∀ e r, eval .silent p fuel e m = (r, m') → Unbroken r →
      Balanced e.Enters m m' ∧ m'.locals.names = m.locals.names) ∧
    ∀ s r, exec .silent p fuel s m = (r, m') → Unbroken r →
      Balanced s.Enters m m' := by
  have hRuns := balancing_runs p fuel
  refine ⟨fun e r hEval hEnd => ?_, fun s r hExec hEnd => ?_⟩
  · have hRestores := hRuns.eval e
    have hBalanced := hRestores.balances.balanced (m := m)
    have hNames := (hRestores m).1
    simp only [hEval] at hBalanced hNames
    exact ⟨hBalanced hEnd, hNames.symm⟩
  · have hBalanced := (hRuns.exec s).balanced (m := m)
    simp only [hExec] at hBalanced
    exact hBalanced hEnd

/- A machine with a variable in a scope around the innermost one. -/
def aroundMachine (n : Int32) : Machine where
  locals := { scopes := [[], [("x", .int n)]] }
  frames := [⟨"Main", "main", false⟩]

/- Set that variable. -/
def setAround (value : Expr) : Stmt :=
  .expr (.assign (.localVar "x" .int) value)

/- A block that a jump leaves behind a declaration. -/
def jumpingBlock : Stmt :=
  .block [
    .declare "y" .int (some (.int 1)),
    setAround (.localVar "y" .int),
    .ofForm (.break (some "out"))]

/- An expression that a jump must not leave. -/
def jumpingExpr : Expr :=
  .letIn [setAround (.int 2), .ofForm (.break none)] (.int 3)

/-
  The block is left by a jump and the expression by a fault. Only
  the value of the variable around them is another one.
-/
theorem runs_balanced_jumping :
    (eval .silent ⟨[]⟩ 4 jumpingExpr (aroundMachine 0)
        = (.error (.fault (.escapedBlock "Break(None)")),
          aroundMachine 2) ∧
      Balanced jumpingExpr.Enters (aroundMachine 0)
        (aroundMachine 2)) ∧
    exec .silent ⟨[]⟩ 4 jumpingBlock (aroundMachine 0)
        = (.ok (.break (some "out")), aroundMachine 1) ∧
      Balanced jumpingBlock.Enters (aroundMachine 0)
        (aroundMachine 1) := by
  have hEval : eval .silent ⟨[]⟩ 4 jumpingExpr (aroundMachine 0)
      = (.error (.fault (.escapedBlock "Break(None)")),
        aroundMachine 2) := rfl
  have hExec : exec .silent ⟨[]⟩ 4 jumpingBlock (aroundMachine 0)
      = (.ok (.break (some "out")), aroundMachine 1) := rfl
  refine ⟨⟨hEval, ?_⟩, hExec, ?_⟩
  · exact ((runs_balanced ⟨[]⟩ 4 _ _).1 _ _ hEval
      fun _ h => by cases h).1
  · exact (runs_balanced ⟨[]⟩ 4 _ _).2 _ _ hExec (unbroken_ok _)

/-
  Frames are not the same in general: the probe at the start of
  an activation marks the innermost one.
-/
theorem frames_marked_at_start :
    ¬∀ (s : Stmt) (m m' : Machine),
      exec .silent ⟨[]⟩ 1 s m = (.ok .normal, m') →
        m'.frames = m.frames := by
  intro h
  have hSame := h
    (.probe (.enter ⟨"Main", "main", "()void"⟩))
    { frames := [⟨"Main", "main", false⟩] }
    { frames := [⟨"Main", "main", true⟩] } rfl
  exact absurd hSame (by decide)

/-
  A call from the host leaves the frames and the names as they
  are, unless the tracer is defective.
-/
theorem frames_of_call
    {cls method : String}
    {args : List Val}
    {r : Except Broken Completion}
    (h : Machine.call p fuel cls method args m = (r, m'))
    (hEnd : ∀ message, r ≠ .error (.panic message)) :
    m'.frames = m.frames ∧ m'.locals.names = m.locals.names := by
  have hRequest : Restores False Val
      (Machine.request .silent p fuel cls method args)
      (Machine.request .silent p fuel cls method args) :=
    congruence_restores.inFrame _ rfl (congruence_restores.onClass
      (balancing_runs p fuel).invokers cls method args)
  have hLeft := hRequest m
  unfold Machine.call at h
  generalize Machine.request .silent p fuel cls method args m = e
    at hLeft h
  rcases e with ⟨e, k⟩
  have hKept : Unbroken e →
      k.frames = m.frames ∧ k.locals.names = m.locals.names :=
    fun hUnbroken =>
      ⟨(hLeft.2 hUnbroken).resolve_right (·.1), hLeft.1.symm⟩
  cases e with
  | ok v =>
    cases h
    exact hKept (unbroken_ok v)
  | error c =>
    cases c with
    | panic message =>
      cases h
      exact absurd rfl (hEnd message)
    | _ =>
      cases h
      exact hKept fun _ hPanic => by cases hPanic

end Programs

end ExecTrace
