import ExecTrace.Proofs.Acceptance

/-
  Verdicts of instrumentation. Where every assignment has the
  type of its target, no type is changed. Where nothing but calls
  brings in the type `void`, a program is instrumented or refused
  with a problem, and no invariant is broken. A program formed
  as it should be is accepted if and only if no update of a loop
  is a call without a result and every assignment has the type
  of its target.

  Main declarations:
    * `fitting` and `Instrument.keepsTypes`
    * `assembled` and `Instrument.refuses`
    * `formed`, `Instrument.accepts` and `Instrument.inquires`
    * `instrument_keeps_types`
    * `instrument_refuses_assembled`
    * `instrument_accepts_formed_iff`
-/

namespace ExecTrace

open Instrument

------------------------------------------------------------
-- Types of Assignments
------------------------------------------------------------

/- Whether an assignment has the type of its target. -/
def Expr.fitsTarget (e : Expr) : Bool :=
  e.form.destination?.all fun target => e.ty == target.ty

/- Such an assignment keeps its type. -/
theorem Expr.fitsTarget_iff
    {e : Expr} :
    e.fitsTarget = true ↔ rewrittenTy e = e.ty := by
  unfold fitsTarget rewrittenTy
  cases e.form.destination? with
  | none => simp
  | some target =>
    constructor
    · intro h
      exact (of_decide_eq_true h).symm
    · intro h
      exact decide_eq_true h.symm

/- The test that assignments have the types of their targets. -/
def fitting : SiteTest where
  expr _ e := e.fitsTarget
  stmt _ _ := true

/- The test that everything passes. -/
def SiteTest.always : SiteTest where
  expr _ _ := true
  stmt _ _ := true

/- Where assignments fit, every failure but one is allowed. -/
def Instrument.keepsTypes : Contract where
  test := fitting
  learned := .always
  allows f := ∀ e became, f ≠ .typeChanged e became
  voidCall _ _ := nofun
  notAPlace _ _ _ := nofun
  typeChanged h hTy := (hTy (Expr.fitsTarget_iff.mp h)).elim
  target _ _ _ := fun _ _ => nofun
  value _ _ _ _ := fun _ _ => nofun
  variableTy _ _ _ := fun _ _ => nofun
  returned _ _ := fun _ _ => nofun
  noLanding _ _ _ := nofun
  update _ _ _ _ := nofun
  learnExpr _ _ := rfl
  learnStmt _ _ := rfl

/- An expression that is rewritten keeps its type. -/
theorem Instrument.expr_eq_exprForm
    (o : Options)
    {site : Site}
    {e : Expr}
    (h : e.passesAt fitting site = true) :
    expr o site e = exprForm o site e e.form := by
  rcases e with ⟨form, ty, span⟩
  unfold Expr.passesAt at h
  rcases Bool.and_eq_true_iff.mp h with ⟨hTest, hForm⟩
  have hMeets :=
    keepsTypes.meets_exprForm o site ty span form hTest hForm
  unfold expr
  funext n
  change (exprForm o site ⟨form, ty, span⟩ form n).bind _ = _
  cases hResult : exprForm o site ⟨form, ty, span⟩ form n with
  | error f => rfl
  | ok r =>
    rcases r with ⟨out, k⟩
    have hOut := (hMeets.fits_of_ok hResult).1
    rw [Expr.fitsTarget_iff.mp hTest] at hOut
    simp only [Except.bind]
    rw [if_pos hOut]
    rfl

/-
  Where all assignments have the types of their targets, the
  check of types never fires: every expression that is visited
  becomes one of the same type, and no program is refused since
  a type was changed.
-/
theorem instrument_keeps_types
    (o : Options)
    {p : Program}
    (h : p.passesAt fitting = true) :
    (∀ site e, p.Visits site e →
      expr o site e = exprForm o site e e.form ∧
        ∀ n out n', exprForm o site e e.form n = .ok (out, n') →
          out.ty = e.ty) ∧
      ∀ e became,
        instrument o p ≠ .error (.typeChanged e became) := by
  constructor
  · intro site e hVisits
    have hFits := hVisits.passesAt h
    have hSame := expr_eq_exprForm o hFits
    constructor
    · exact hSame
    · intro n out n' hOut
      rw [← hSame] at hOut
      have hKept := keepsTypes.meets_expr o site e hFits
      exact (hKept.fits_of_ok hOut).1
  · intro e became hFailure
    cases hExclusions : o.exclusions? with
    | error problem => simp [instrument, hExclusions] at hFailure
    | ok exclusions =>
      have hOutcome := keepsTypes.outcome_instrument o
        hExclusions fun c hc _ => List.all_eq_true.mp h c hc
      rw [hFailure] at hOutcome
      exact hOutcome e became rfl

/- A program that runs some statements and gives no result. -/
def Program.running (body : List Stmt) : Program where
  classes :=
    [{ name := "Main"
       methods :=
        [{ name := "main"
           kind := .static
           ret := .void
           body := some body }] }]

/- The site of these statements. -/
def mainSite : Site where
  cls := "Main"
  method := "main"
  ret := .void

/- A byte is increased by an integer. -/
def increment : Expr :=
  .compoundAssign .add (.localVar "b" .byte) (.int 1)

/- The increment is visited, and what becomes of it is a byte. -/
theorem instrument_keeps_types_increment :
    let p := Program.running [.expr increment]
    p.passesAt fitting = true ∧
      p.Visits mainSite increment ∧
      (∃ out n,
        exprForm {} mainSite increment increment.form 0 =
            .ok (out, n) ∧
          out.ty = .byte) ∧
      ∀ e became,
        instrument {} p ≠ .error (.typeChanged e became) := by
  intro p
  have hFits : p.passesAt fitting = true := by decide
  have hVisits : p.Visits mainSite increment := by
    intro t ht
    simp only [p, Program.passesAt, Program.running,
      ClassDef.passesAt, MethodDef.passesAt, passStmtsAt,
      Stmt.passesAt, Stmt.expr, StmtForm.passesAt,
      List.all_cons, Bool.and_eq_true] at ht
    exact (Bool.and_eq_true_iff.mp ht.1.1.1.2).1
  have hOut : ∃ out n,
      exprForm {} mainSite increment increment.form 0 =
        .ok (out, n) := ⟨_, _, rfl⟩
  have hKept := instrument_keeps_types {} hFits
  rcases hOut with ⟨out, n, hOut⟩
  refine ⟨hFits, hVisits, ⟨out, n, hOut, ?_⟩, hKept.2⟩
  exact (hKept.1 mainSite increment hVisits).2 0 out n hOut

------------------------------------------------------------
-- Types of Results
------------------------------------------------------------

/- Numbers are combined in a numeric type. -/
theorem Ty.promote_ne_void
    (a b : Ty) : Ty.promote a b ≠ .void := by
  unfold promote
  split
  · nofun
  · split
    · nofun
    · split <;> nofun

/- A value is promoted to a value. -/
theorem Ty.promoteUnary_ne_void
    {ty : Ty}
    (h : ty ≠ .void) : ty.promoteUnary ≠ .void := by
  cases ty with
  | void => exact absurd rfl h
  | _ => nofun

/- An operator makes a value of a value. -/
theorem UnaryOp.resultTy_ne_void
    (op : UnaryOp)
    {ty : Ty}
    (h : ty ≠ .void) : op.resultTy ty ≠ .void := by
  cases op with
  | not => nofun
  | neg => exact Ty.promoteUnary_ne_void h
  | bitNot => exact Ty.promoteUnary_ne_void h

/- An operator makes a value of two values. -/
theorem BinaryOp.resultTy_ne_void
    (op : BinaryOp)
    {a : Ty}
    (b : Ty)
    (h : a ≠ .void) : op.resultTy a b ≠ .void := by
  unfold resultTy
  split
  · nofun
  · split
    · nofun
    · split
      · exact Ty.promoteUnary_ne_void h
      · split
        · nofun
        · exact Ty.promote_ne_void a b

/- One of two values is a value. -/
theorem Expr.conditionalTy_ne_void
    {a b : Ty}
    (ha : a ≠ .void)
    (hb : b ≠ .void) : Expr.conditionalTy a b ≠ .void := by
  unfold conditionalTy
  split
  · exact ha
  · split
    · exact Ty.promote_ne_void a b
    · split
      · exact hb
      · exact ha

------------------------------------------------------------
-- Assembled Programs
------------------------------------------------------------

/- Whether an expression has the type that builders compute. -/
def Expr.isBuilt (e : Expr) : Bool :=
  match e.form with
  | .literal value => e.ty == (Expr.literal value).ty
  | .localVar _ => true
  | .self =>
    match e.ty with
    | .cls _ => true
    | _ => false
  | .staticField _ _ => true
  | .instanceField _ _ _ => true
  | .index array i => e.ty == (Expr.index array i).ty
  | .length array => e.ty == (Expr.length array).ty
  | .unary op arg => e.ty == (Expr.unary op arg).ty
  | .binary op lhs rhs => e.ty == (Expr.binary op lhs rhs).ty
  | .conditional cond onTrue onFalse =>
    e.ty == (Expr.conditional cond onTrue onFalse).ty
  | .assign target value => e.ty == (Expr.assign target value).ty
  | .compoundAssign op target value =>
    e.ty == (Expr.compoundAssign op target value).ty
  | .step op target => e.ty == (Expr.step op target).ty
  | .call _ _ _ => true
  | .new cls _ args => e.ty == (Expr.new cls args).ty
  | .newArray element length =>
    e.ty == (Expr.newArray element length).ty
  | .arrayOf element items =>
    e.ty == (Expr.arrayOf element items).ty
  | .cast target arg => e.ty == (Expr.cast target arg).ty
  | .typeTest arg target => e.ty == (Expr.typeTest arg target).ty
  | .switch _ _ => true
  | .letIn stmts body => e.ty == (Expr.letIn stmts body).ty

/-
  Whether an expression that is no call is of type `void` though
  none of its parts is: a variable, a field, an element, a cast,
  a switch, or a spliced expression.
-/
def Expr.startsVoid (e : Expr) : Bool :=
  match e.form with
  | .localVar _ => e.ty == .void
  | .staticField _ _ => e.ty == .void
  | .instanceField _ _ _ => e.ty == .void
  | .index _ _ => e.ty == .void
  | .cast _ _ => e.ty == .void
  | .switch _ _ => e.ty == .void
  | .letIn _ _ => e.ty == .void
  | _ => false

/-
  The test that a tree is assembled with the builders and, if it
  is to be free of `void`, that nothing but calls brings in that
  type.
-/
def assembled (free : Bool) : SiteTest where
  expr _ e :=
    e.isBuilt &&
      (!free ||
        (!e.startsVoid &&
          e.form.target?.all fun target => !target.startsVoid))
  stmt site s :=
    !free ||
      (s.form.variableTys.all (fun ty => ty != .void) &&
        (!s.form.returnsValue || site.ret != .void))

/- Whether a failure is a problem of the options or the tree. -/
def Instrument.Failure.isRefusal (f : Failure) : Prop :=
  ∃ reason,
    f.problem? = some (.configuration reason) ∨
      f.problem? = some (.instrumentation reason)

/- An operand without a value is no such problem. -/
theorem Instrument.not_isRefusal_voidOperand
    (e : Expr) : ¬Failure.isRefusal (.voidOperand e) := by
  rintro ⟨reason, hNone | hNone⟩ <;> cases hNone

/- So what can be reported has a value. -/
theorem Instrument.Valued.ne_void
    {ty : Ty}
    (h : Valued Failure.isRefusal ty) : ty ≠ .void := by
  intro hVoid
  exact not_isRefusal_voidOperand (.int 0) (h hVoid (.int 0))

/- A place of type `void` is one by itself. -/
theorem Expr.ty_ne_void_of_isPlace
    {e : Expr}
    (hPlace : e.isPlace = true)
    (h : e.startsVoid = false) : e.ty ≠ .void := by
  rcases e with ⟨form, ty, span⟩
  cases form <;> simp_all [isPlace, startsVoid]

/- What is built of values only is a value, calls aside. -/
theorem Expr.ty_ne_void_of_isBuilt
    {e : Expr}
    (hBuilt : e.isBuilt = true)
    (hStarts : e.startsVoid = false)
    (hCall : e.isVoidCall = false)
    (hParts : ∀ part ∈ e.form.typedBy, part.ty ≠ .void)
    (hTarget : ∀ target ∈ e.form.target?, target.ty ≠ .void) :
    e.ty ≠ .void := by
  rcases e with ⟨form, ty, span⟩
  cases form with
  | literal value =>
    have hTy : ty = value.ty := eq_of_beq hBuilt
    rw [hTy]
    cases value <;> nofun
  | self =>
    rintro rfl
    cases hBuilt
  | length array =>
    have hTy : ty = .int := eq_of_beq hBuilt
    rw [hTy]
    nofun
  | unary op arg =>
    have hTy : ty = op.resultTy arg.ty := eq_of_beq hBuilt
    rw [hTy]
    apply op.resultTy_ne_void
    exact hParts arg List.mem_cons_self
  | binary op lhs rhs =>
    have hTy : ty = op.resultTy lhs.ty rhs.ty := eq_of_beq hBuilt
    rw [hTy]
    apply op.resultTy_ne_void
    exact hParts lhs List.mem_cons_self
  | conditional cond onTrue onFalse =>
    have hTy : ty = conditionalTy onTrue.ty onFalse.ty :=
      eq_of_beq hBuilt
    rw [hTy]
    apply conditionalTy_ne_void
    · exact hParts onTrue (by simp [ExprForm.typedBy])
    · exact hParts onFalse (by simp [ExprForm.typedBy])
  | assign target value =>
    have hTy : ty = target.ty := eq_of_beq hBuilt
    rw [hTy]
    exact hTarget target rfl
  | compoundAssign op target value =>
    have hTy : ty = target.ty := eq_of_beq hBuilt
    rw [hTy]
    exact hTarget target rfl
  | step op target =>
    have hTy : ty = target.ty := eq_of_beq hBuilt
    rw [hTy]
    exact hTarget target rfl
  | call callee receiver args =>
    simpa [isVoidCall] using hCall
  | new cls signature args =>
    have hTy : ty = .cls cls := eq_of_beq hBuilt
    rw [hTy]
    nofun
  | newArray element length =>
    have hTy : ty = .array element := eq_of_beq hBuilt
    rw [hTy]
    nofun
  | arrayOf element items =>
    have hTy : ty = .array element := eq_of_beq hBuilt
    rw [hTy]
    nofun
  | typeTest arg target =>
    have hTy : ty = .bool := eq_of_beq hBuilt
    rw [hTy]
    nofun
  | _ => simpa [startsVoid] using hStarts

/- The builders give assignments the types of their targets. -/
theorem Expr.fitsTarget_of_isBuilt
    {e : Expr}
    (h : e.isBuilt = true) : e.fitsTarget = true := by
  rcases e with ⟨form, ty, span⟩
  cases form with
  | assign target value => exact h
  | compoundAssign op target value => exact h
  | _ => rfl

/- What the test of expressions says. -/
theorem assembled_expr
    {site : Site}
    {e : Expr}
    (h : (assembled true).expr site e = true) :
    e.isBuilt = true ∧ e.startsVoid = false ∧
      ∀ target ∈ e.form.target?, target.startsVoid = false := by
  simp only [assembled, Bool.not_true, Bool.false_or,
    Bool.and_eq_true, Bool.not_eq_true'] at h
  refine ⟨h.1, h.2.1, ?_⟩
  intro target hTarget
  have hAll := h.2.2
  rw [Option.mem_def] at hTarget
  rw [hTarget] at hAll
  simpa using hAll

/- What the test of statements says. -/
theorem assembled_stmt
    {site : Site}
    {s : Stmt}
    (h : (assembled true).stmt site s = true) :
    (∀ ty ∈ s.form.variableTys, ty ≠ .void) ∧
      (s.form.returnsValue = true → site.ret ≠ .void) := by
  simp only [assembled, Bool.not_true, Bool.false_or,
    Bool.and_eq_true, List.all_eq_true, bne_iff_ne] at h
  refine ⟨h.1, ?_⟩
  intro hReturns
  simpa [hReturns] using h.2

/- Where only calls bring in `void`, no invariant breaks. -/
def Instrument.refuses : Contract where
  test := assembled true
  learned := .always
  allows := Failure.isRefusal
  voidCall _ _ := ⟨_, .inr rfl⟩
  notAPlace _ _ _ := ⟨_, .inr rfl⟩
  typeChanged h hTy := by
    have hFits := Expr.fitsTarget_of_isBuilt (assembled_expr h).1
    exact (hTy (Expr.fitsTarget_iff.mp hFits)).elim
  target h hTarget hPlace := by
    apply valued_of_ne_void
    apply Expr.ty_ne_void_of_isPlace hPlace
    exact (assembled_expr h).2.2 _ hTarget
  value h hCall hParts hTarget := by
    rcases assembled_expr h with ⟨hBuilt, hStarts, _⟩
    apply valued_of_ne_void
    apply Expr.ty_ne_void_of_isBuilt hBuilt hStarts hCall
    · intro part hPart
      exact (hParts part hPart).ne_void
    · intro target ht
      exact (hTarget target ht).ne_void
  variableTy h ty hTy :=
    valued_of_ne_void ((assembled_stmt h).1 ty hTy)
  returned h hReturns :=
    valued_of_ne_void ((assembled_stmt h).2 hReturns)
  noLanding _ _ _ := ⟨_, .inr rfl⟩
  update _ _ _ _ := ⟨_, .inr rfl⟩
  learnExpr _ _ := rfl
  learnStmt _ _ := rfl

/- A pattern that cannot be understood is a problem of options. -/
theorem Instrument.exclusions?_error
    {o : Options}
    {problem : Problem}
    (h : o.exclusions? = .error problem) :
    ∃ pattern, problem = patternProblem pattern := by
  unfold Options.exclusions? at h
  generalize o.excludeClasses = patterns at h
  induction patterns with
  | nil => cases h
  | cons pattern rest ih =>
    rw [List.mapM_cons] at h
    unfold exclusion? at h
    cases hFirst : Pattern.ofText? pattern with
    | none =>
      rw [hFirst] at h
      cases h
      exact ⟨pattern, rfl⟩
    | some first =>
      rw [hFirst] at h
      change (rest.mapM exclusion?).bind _ = _ at h
      cases hRest : rest.mapM exclusion? with
      | error other =>
        rw [hRest] at h
        cases h
        exact ih hRest
      | ok others =>
        rw [hRest] at h
        cases h

/-
  A program that is assembled with the builders, and in which
  nothing but calls brings in `void`, is instrumented or refused
  with a problem of the options or of the program.
-/
theorem instrument_refuses_assembled
    (o : Options)
    {p : Program}
    (h : p.passesAt (assembled true) = true) :
    (∃ q, instrument o p = .ok q) ∨
      ∃ f, instrument o p = .error f ∧ f.isRefusal := by
  cases hExclusions : o.exclusions? with
  | error problem =>
    rcases exclusions?_error hExclusions with ⟨pattern, rfl⟩
    right
    refine ⟨.badOption (patternProblem pattern), ?_, ?_⟩
    · simp [instrument, hExclusions]
    · exact ⟨_, .inl rfl⟩
  | ok exclusions =>
    have hOutcome := refuses.outcome_instrument o hExclusions
      fun c hc _ => List.all_eq_true.mp h c hc
    cases hResult : instrument o p with
    | ok q => exact .inl ⟨q, rfl⟩
    | error f =>
      rw [hResult] at hOutcome
      exact .inr ⟨f, rfl, hOutcome⟩

/- A call of the method in which it stands. -/
def callOfMain : Expr :=
  .callStatic "Main" "main" [] .void

/- A call without a result, negated. -/
def negatedCall : Expr :=
  .unary .neg callOfMain

/- The negation of a call without a result is refused. -/
theorem instrument_refuses_assembled_call :
    (Program.running [.expr negatedCall]).passesAt
        (assembled true) = true ∧
      ∃ f, instrument {} (.running [.expr negatedCall]) =
          .error f ∧
        f.isRefusal := by
  have hAssembled : (Program.running [.expr negatedCall]).passesAt
      (assembled true) = true := by
    decide
  refine ⟨hAssembled, ?_⟩
  rcases instrument_refuses_assembled {} hAssembled with
    ⟨q, hq⟩ | hRefused
  · cases hq
  · exact hRefused

/-
  A value that is returned from a method without a result breaks
  an invariant: the variable that holds it is of type `void`.
-/
theorem instrument_refuses_assembled_return :
    (Program.running [.ofForm (.return (some (.int 1)))]).passesAt
        (assembled false) = true ∧
      ∃ e,
        instrument {}
            (.running [.ofForm (.return (some (.int 1)))]) =
          .error (.voidOperand e) ∧
        ¬Failure.isRefusal (.voidOperand e) := by
  constructor
  · decide
  · exact ⟨⟨.localVar "$ret1", .void, .unknown⟩, rfl,
      not_isRefusal_voidOperand _⟩

------------------------------------------------------------
-- Formed Programs
------------------------------------------------------------

/- Whether a jump has a construct around it to land on. -/
def Stmt.lands
    (s : Stmt)
    (site : Site) : Bool :=
  s.form.jump?.all fun jump =>
    site.around.any fun l => l.accepts jump.1 jump.2

/-
  The test that a tree is formed as it should be: no expression
  that is visited and no variable is of type `void`, targets are
  places, a value is only returned where there is a result, and
  every jump has a landing. A strict test asks, too, for updates
  that are no calls without a result and for assignments of the
  types of their targets.
-/
def formed (strict : Bool) : SiteTest where
  expr _ e :=
    e.ty != .void &&
      (e.form.target?.all fun target =>
        target.isPlace && target.ty != .void) &&
      (!strict || e.fitsTarget)
  stmt site s :=
    s.form.variableTys.all (fun ty => ty != .void) &&
      (!s.form.returnsValue || site.ret != .void) &&
      s.lands site &&
      (!strict || s.form.updates.all fun e => !e.isVoidCall)

/- What the test of expressions says. -/
theorem formed_expr
    {strict : Bool}
    {site : Site}
    {e : Expr} :
    (formed strict).expr site e = true ↔
      (e.ty ≠ .void ∧
        ∀ target ∈ e.form.target?,
          target.isPlace = true ∧ target.ty ≠ .void) ∧
      (strict = true → e.fitsTarget = true) := by
  unfold formed
  cases strict <;>
    simp [Option.all_eq_true, and_assoc]

/- What the test of statements says. -/
theorem formed_stmt
    {strict : Bool}
    {site : Site}
    {s : Stmt} :
    (formed strict).stmt site s = true ↔
      ((∀ ty ∈ s.form.variableTys, ty ≠ .void) ∧
        (s.form.returnsValue = true → site.ret ≠ .void) ∧
        s.lands site = true) ∧
      (strict = true →
        ∀ e ∈ s.form.updates, e.isVoidCall = false) := by
  simp only [formed]
  cases strict <;> cases s.form.returnsValue <;>
    simp [and_assoc]

/- A jump that lands has a landing. -/
theorem Stmt.resolve?_ne_none
    {s : Stmt}
    {site : Site}
    {jump : Jump}
    {label : Option String}
    (h : s.lands site = true)
    (hJump : s.form.jump? = some (jump, label)) :
    resolve? site.around jump label ≠ none := by
  intro hNone
  unfold lands at h
  rw [hJump] at h
  rcases List.any_eq_true.mp h with ⟨l, hl, hAccepts⟩
  unfold resolve? at hNone
  rw [Option.map_eq_none_iff, List.find?_eq_none] at hNone
  exact hNone l hl hAccepts

/- A call without a result is no value. -/
theorem Expr.isVoidCall_eq_false
    {e : Expr}
    (h : e.ty ≠ .void) : e.isVoidCall = false := by
  rcases e with ⟨form, ty, span⟩
  cases form <;> simp_all [isVoidCall]

/- What is formed strictly does not fail. -/
def Instrument.accepts : Contract where
  test := formed true
  learned := .always
  allows _ := False
  voidCall h hCall := by
    have hTy := (formed_expr.mp h).1.1
    rw [Expr.isVoidCall_eq_false hTy] at hCall
    cases hCall
  notAPlace h hTarget hPlace := by
    have hIs := ((formed_expr.mp h).1.2 _ hTarget).1
    rw [hPlace] at hIs
    cases hIs
  typeChanged h hTy := by
    have hFits := (formed_expr.mp h).2 rfl
    exact hTy (Expr.fitsTarget_iff.mp hFits)
  target h hTarget _ := by
    apply valued_of_ne_void
    exact ((formed_expr.mp h).1.2 _ hTarget).2
  value h _ _ _ := by
    apply valued_of_ne_void
    exact (formed_expr.mp h).1.1
  variableTy h ty hTy := by
    apply valued_of_ne_void
    exact (formed_stmt.mp h).1.1 ty hTy
  returned h hReturns := by
    apply valued_of_ne_void
    exact (formed_stmt.mp h).1.2.1 hReturns
  noLanding h hJump hNone :=
    Stmt.resolve?_ne_none (formed_stmt.mp h).1.2.2 hJump hNone
  update h e he hCall := by
    have hNone := (formed_stmt.mp h).2 rfl e he
    rw [hCall] at hNone
    cases hNone
  learnExpr _ _ := rfl
  learnStmt _ _ := rfl

/- What is formed and does not fail is formed strictly. -/
def Instrument.inquires : Contract where
  test := formed false
  learned := formed true
  allows _ := True
  voidCall _ _ := trivial
  notAPlace _ _ _ := trivial
  typeChanged _ _ := trivial
  target _ _ _ := fun _ _ => trivial
  value _ _ _ _ := fun _ _ => trivial
  variableTy _ _ _ := fun _ _ => trivial
  returned _ _ := fun _ _ => trivial
  noLanding _ _ _ := trivial
  update _ _ _ _ := trivial
  learnExpr h hTy := by
    apply formed_expr.mpr
    exact ⟨(formed_expr.mp h).1, fun _ =>
      Expr.fitsTarget_iff.mpr hTy⟩
  learnStmt h hUpdates := by
    apply formed_stmt.mpr
    exact ⟨(formed_stmt.mp h).1, fun _ => hUpdates⟩

/-
  A program that is formed as it should be is accepted if and
  only if, in the classes that are not left alone, no update of a
  loop is a call without a result and all assignments have the
  types of their targets.
-/
theorem instrument_accepts_formed_iff
    {o : Options}
    {exclusions : List Pattern}
    {p : Program}
    (hExclusions : o.exclusions? = .ok exclusions)
    (h : p.passesAt (formed false) = true) :
    (∃ q, instrument o p = .ok q) ↔
      ∀ c ∈ p.classes, excludes exclusions c.name = false →
        c.passesAt (formed true) = true := by
  constructor
  · rintro ⟨q, hq⟩
    have hOutcome := inquires.outcome_instrument o hExclusions
      fun c hc _ => List.all_eq_true.mp h c hc
    rw [hq] at hOutcome
    exact hOutcome
  · intro hStrict
    have hOutcome :=
      accepts.outcome_instrument o hExclusions hStrict
    cases hResult : instrument o p with
    | ok q => exact ⟨q, rfl⟩
    | error f =>
      rw [hResult] at hOutcome
      exact hOutcome.elim

/- A loop that is never entered, with an update. -/
def loopUpdating (update : Expr) : Stmt :=
  .ofForm (.for none [] (some (.bool false)) [update] (.block []))

/- A loop whose update is a step is accepted. -/
theorem instrument_accepts_formed_step :
    let p := Program.running
      [loopUpdating (.step .postInc (.localVar "i" .int))]
    p.passesAt (formed false) = true ∧
      ∃ q, instrument {} p = .ok q := by
  intro p
  have hFormed : p.passesAt (formed false) = true := by decide
  have hStrict : p.passesAt (formed true) = true := by decide
  have hNone : Options.exclusions? {} = .ok [] := rfl
  refine ⟨hFormed, ?_⟩
  apply (instrument_accepts_formed_iff hNone hFormed).mpr
  intro c hc _
  exact List.all_eq_true.mp hStrict c hc

/- A loop whose update is a call without a result is refused. -/
theorem instrument_accepts_formed_call :
    (Program.running [loopUpdating callOfMain]).passesAt
        (formed false) = true ∧
      Options.exclusions? {} = .ok [] ∧
      instrument {} (.running [loopUpdating callOfMain]) =
        .error (.voidCall callOfMain) := by
  refine ⟨?_, rfl, rfl⟩
  decide

end ExecTrace
