import ExecTrace.Proofs.Scopes

/-
  Source programs: programs without the forms that occur in
  instrumented trees only, and without variables whose names
  start with a dollar. A test can be made of every expression
  and every statement of a program.

  Main declarations:
    * `Test` and `Program.passes`
    * `Test.source` and `Test.plainSource`
-/

namespace ExecTrace

------------------------------------------------------------
-- Tests of Trees
------------------------------------------------------------

/- A test of single expressions and statements. -/
structure Test where
  expr : Expr → Bool
  stmt : Stmt → Bool

mutual

/- Whether all parts of an expression pass a test. -/
def Expr.passes (t : Test) : Expr → Bool
  | ⟨form, ty, span⟩ =>
    t.expr ⟨form, ty, span⟩ && form.passes t

/- Whether all parts of a form of expressions pass a test. -/
def ExprForm.passes (t : Test) : ExprForm → Bool
  | .literal _ => true
  | .localVar _ => true
  | .self => true
  | .staticField _ _ => true
  | .instanceField object _ _ => object.passes t
  | .index array index => array.passes t && index.passes t
  | .length array => array.passes t
  | .unary _ arg => arg.passes t
  | .binary _ lhs rhs => lhs.passes t && rhs.passes t
  | .conditional cond onTrue onFalse =>
    cond.passes t && onTrue.passes t && onFalse.passes t
  | .assign target value => target.passes t && value.passes t
  | .compoundAssign _ target value =>
    target.passes t && value.passes t
  | .step _ target => target.passes t
  | .call _ receiver args =>
    passOption t receiver && passExprs t args
  | .new _ _ args => passExprs t args
  | .newArray _ length => length.passes t
  | .arrayOf _ items => passExprs t items
  | .cast _ arg => arg.passes t
  | .typeTest arg _ => arg.passes t
  | .switch selector arms =>
    selector.passes t && passArms t arms
  | .letIn stmts body => passStmts t stmts && body.passes t

/- Whether all parts of some expressions pass a test. -/
def passExprs (t : Test) : List Expr → Bool
  | [] => true
  | e :: rest => e.passes t && passExprs t rest

/- Whether all parts of an optional expression pass a test. -/
def passOption (t : Test) : Option Expr → Bool
  | none => true
  | some e => e.passes t

/- Whether all parts of some arms pass a test. -/
def passArms (t : Test) : List Arm → Bool
  | [] => true
  | ⟨_, body⟩ :: rest => passStmts t body && passArms t rest

/- Whether all parts of a statement pass a test. -/
def Stmt.passes (t : Test) : Stmt → Bool
  | ⟨form, span⟩ => t.stmt ⟨form, span⟩ && form.passes t

/- Whether all parts of a form of statements pass a test. -/
def StmtForm.passes (t : Test) : StmtForm → Bool
  | .declare _ _ init => passOption t init
  | .expr e => e.passes t
  | .block stmts => passStmts t stmts
  | .cond cond onTrue onFalse =>
    cond.passes t && onTrue.passes t && passStmt? t onFalse
  | .while _ cond body => cond.passes t && body.passes t
  | .doWhile _ body cond => body.passes t && cond.passes t
  | .for _ init cond update body =>
    passStmts t init && passOption t cond
      && passExprs t update && body.passes t
  | .forEach _ _ _ iterable body =>
    iterable.passes t && body.passes t
  | .switch selector arms =>
    selector.passes t && passArms t arms
  | .return value => passOption t value
  | .break _ => true
  | .continue _ => true
  | .yield value => value.passes t
  | .throw exception => exception.passes t
  | .try body catches => passStmts t body && passCatches t catches
  | .assert cond message =>
    cond.passes t && passOption t message
  | .superCall _ args => passExprs t args
  | .probe _ => true

/- Whether all parts of some statements pass a test. -/
def passStmts (t : Test) : List Stmt → Bool
  | [] => true
  | s :: rest => s.passes t && passStmts t rest

/- Whether all parts of an optional statement pass a test. -/
def passStmt? (t : Test) : Option Stmt → Bool
  | none => true
  | some s => s.passes t

/- Whether all parts of some handlers pass a test. -/
def passCatches (t : Test) : List Catch → Bool
  | [] => true
  | ⟨_, _, body, _⟩ :: rest =>
    passStmts t body && passCatches t rest

end

/- Whether the parameters of a method have visible names. -/
def MethodDef.visibleParams (m : MethodDef) : Bool :=
  m.params.all fun x => !hidden x.name

/- Whether the parameters and the body of a method pass. -/
def MethodDef.passes
    (t : Test)
    (m : MethodDef) : Bool :=
  m.visibleParams &&
    match m.body with
    | none => true
    | some body => passStmts t body

/- Whether all methods of a program pass. -/
def Program.passes
    (t : Test)
    (p : Program) : Bool :=
  p.classes.all fun c => c.methods.all fun m => m.passes t

------------------------------------------------------------
-- Source Programs
------------------------------------------------------------

namespace Test

/- An expression that may occur in a source program. -/
def sourceExpr (e : Expr) : Bool :=
  match e.form with
  | .localVar name => !hidden name
  | .letIn _ _ => false
  | _ => true

/- A statement that may occur in a source program. -/
def sourceStmt (s : Stmt) : Bool :=
  match s.form with
  | .declare name _ _ => !hidden name
  | .forEach _ name _ _ _ => !hidden name
  | .try _ catches => catches.all fun c => !hidden c.param
  | .probe _ => false
  | _ => true

/-
  The test of source programs: no forms of instrumented trees,
  and no variable whose name starts with a dollar.
-/
def source : Test where
  expr := sourceExpr
  stmt := sourceStmt

/-
  Whether a compound assignment needs no cast that a plain run
  leaves out: its operator is no short-circuit operator, and
  what it combines is of the type of the target, or the target
  is primitive.
-/
def plainCompound (e : Expr) : Bool :=
  match e.form with
  | .compoundAssign op target value =>
    !op.isShortCircuit &&
      (op.resultTy target.ty value.ty == target.ty
        || target.ty.isPrimitive)
  | _ => true

/- The test of source programs with plain compounds only. -/
def plainSource : Test where
  expr := fun e => sourceExpr e && plainCompound e
  stmt := sourceStmt

/-
  Whether a compound assignment needs no cast to a class: what it
  combines is of the type of the target, or the target is
  primitive.
-/
def typedCompound (e : Expr) : Bool :=
  match e.form with
  | .compoundAssign op target value =>
    op.resultTy target.ty value.ty == target.ty
      || target.ty.isPrimitive
  | _ => true

end Test

------------------------------------------------------------
-- Weaker Tests
------------------------------------------------------------

/- A test that everything passes that passes another one. -/
structure Test.Weaker (t t' : Test) : Prop where
  expr : ∀ e, t.expr e = true → t'.expr e = true
  stmt : ∀ s, t.stmt s = true → t'.stmt s = true

section Weaker

variable {t t' : Test}

mutual

/- An expression that passes a test passes a weaker one. -/
theorem Expr.passes_weaker
    (h : t.Weaker t') :
    ∀ e : Expr, e.passes t = true → e.passes t' = true
  | ⟨form, ty, span⟩, he => by
    simp only [Expr.passes, Bool.and_eq_true] at he ⊢
    exact ⟨h.expr _ he.1, form.passes_weaker h he.2⟩

/- A form of expressions that passes a test. -/
theorem ExprForm.passes_weaker
    (h : t.Weaker t') :
    ∀ form : ExprForm,
      form.passes t = true → form.passes t' = true
  | .literal _, _ => rfl
  | .localVar _, _ => rfl
  | .self, _ => rfl
  | .staticField _ _, _ => rfl
  | .instanceField object _ _, he => object.passes_weaker h he
  | .index array index, he => by
    simp only [ExprForm.passes, Bool.and_eq_true] at he ⊢
    exact ⟨array.passes_weaker h he.1, index.passes_weaker h he.2⟩
  | .length array, he => array.passes_weaker h he
  | .unary _ arg, he => arg.passes_weaker h he
  | .binary _ lhs rhs, he => by
    simp only [ExprForm.passes, Bool.and_eq_true] at he ⊢
    exact ⟨lhs.passes_weaker h he.1, rhs.passes_weaker h he.2⟩
  | .conditional cond onTrue onFalse, he => by
    simp only [ExprForm.passes, Bool.and_eq_true] at he ⊢
    exact ⟨⟨cond.passes_weaker h he.1.1,
      onTrue.passes_weaker h he.1.2⟩, onFalse.passes_weaker h he.2⟩
  | .assign target value, he => by
    simp only [ExprForm.passes, Bool.and_eq_true] at he ⊢
    exact ⟨target.passes_weaker h he.1,
      value.passes_weaker h he.2⟩
  | .compoundAssign _ target value, he => by
    simp only [ExprForm.passes, Bool.and_eq_true] at he ⊢
    exact ⟨target.passes_weaker h he.1,
      value.passes_weaker h he.2⟩
  | .step _ target, he => target.passes_weaker h he
  | .call _ receiver args, he => by
    simp only [ExprForm.passes, Bool.and_eq_true] at he ⊢
    exact ⟨passOption_weaker h receiver he.1,
      passExprs_weaker h args he.2⟩
  | .new _ _ args, he => passExprs_weaker h args he
  | .newArray _ length, he => length.passes_weaker h he
  | .arrayOf _ items, he => passExprs_weaker h items he
  | .cast _ arg, he => arg.passes_weaker h he
  | .typeTest arg _, he => arg.passes_weaker h he
  | .switch selector arms, he => by
    simp only [ExprForm.passes, Bool.and_eq_true] at he ⊢
    exact ⟨selector.passes_weaker h he.1,
      passArms_weaker h arms he.2⟩
  | .letIn stmts body, he => by
    simp only [ExprForm.passes, Bool.and_eq_true] at he ⊢
    exact ⟨passStmts_weaker h stmts he.1,
      body.passes_weaker h he.2⟩

/- Some expressions that pass a test. -/
theorem passExprs_weaker
    (h : t.Weaker t') :
    ∀ es : List Expr,
      passExprs t es = true → passExprs t' es = true
  | [], _ => rfl
  | e :: rest, he => by
    simp only [passExprs, Bool.and_eq_true] at he ⊢
    exact ⟨e.passes_weaker h he.1, passExprs_weaker h rest he.2⟩

/- An optional expression that passes a test. -/
theorem passOption_weaker
    (h : t.Weaker t') :
    ∀ e : Option Expr,
      passOption t e = true → passOption t' e = true
  | none, _ => rfl
  | some e, he => e.passes_weaker h he

/- Some arms that pass a test. -/
theorem passArms_weaker
    (h : t.Weaker t') :
    ∀ arms : List Arm,
      passArms t arms = true → passArms t' arms = true
  | [], _ => rfl
  | ⟨_, body⟩ :: rest, he => by
    simp only [passArms, Bool.and_eq_true] at he ⊢
    exact ⟨passStmts_weaker h body he.1,
      passArms_weaker h rest he.2⟩

/- A statement that passes a test passes a weaker one. -/
theorem Stmt.passes_weaker
    (h : t.Weaker t') :
    ∀ s : Stmt, s.passes t = true → s.passes t' = true
  | ⟨form, span⟩, hs => by
    simp only [Stmt.passes, Bool.and_eq_true] at hs ⊢
    exact ⟨h.stmt _ hs.1, form.passes_weaker h hs.2⟩

/- A form of statements that passes a test. -/
theorem StmtForm.passes_weaker
    (h : t.Weaker t') :
    ∀ form : StmtForm,
      form.passes t = true → form.passes t' = true
  | .declare _ _ init, hs => passOption_weaker h init hs
  | .expr e, hs => e.passes_weaker h hs
  | .block stmts, hs => passStmts_weaker h stmts hs
  | .cond cond onTrue onFalse, hs => by
    simp only [StmtForm.passes, Bool.and_eq_true] at hs ⊢
    exact ⟨⟨cond.passes_weaker h hs.1.1,
      onTrue.passes_weaker h hs.1.2⟩, passStmt?_weaker h onFalse hs.2⟩
  | .while _ cond body, hs => by
    simp only [StmtForm.passes, Bool.and_eq_true] at hs ⊢
    exact ⟨cond.passes_weaker h hs.1, body.passes_weaker h hs.2⟩
  | .doWhile _ body cond, hs => by
    simp only [StmtForm.passes, Bool.and_eq_true] at hs ⊢
    exact ⟨body.passes_weaker h hs.1, cond.passes_weaker h hs.2⟩
  | .for _ init cond update body, hs => by
    simp only [StmtForm.passes, Bool.and_eq_true] at hs ⊢
    exact ⟨⟨⟨passStmts_weaker h init hs.1.1.1,
      passOption_weaker h cond hs.1.1.2⟩,
      passExprs_weaker h update hs.1.2⟩, body.passes_weaker h hs.2⟩
  | .forEach _ _ _ iterable body, hs => by
    simp only [StmtForm.passes, Bool.and_eq_true] at hs ⊢
    exact ⟨iterable.passes_weaker h hs.1,
      body.passes_weaker h hs.2⟩
  | .switch selector arms, hs => by
    simp only [StmtForm.passes, Bool.and_eq_true] at hs ⊢
    exact ⟨selector.passes_weaker h hs.1,
      passArms_weaker h arms hs.2⟩
  | .return value, hs => passOption_weaker h value hs
  | .break _, _ => rfl
  | .continue _, _ => rfl
  | .yield value, hs => value.passes_weaker h hs
  | .throw exception, hs => exception.passes_weaker h hs
  | .try body catches, hs => by
    simp only [StmtForm.passes, Bool.and_eq_true] at hs ⊢
    exact ⟨passStmts_weaker h body hs.1,
      passCatches_weaker h catches hs.2⟩
  | .assert cond message, hs => by
    simp only [StmtForm.passes, Bool.and_eq_true] at hs ⊢
    exact ⟨cond.passes_weaker h hs.1,
      passOption_weaker h message hs.2⟩
  | .superCall _ args, hs => passExprs_weaker h args hs
  | .probe _, _ => rfl

/- Some statements that pass a test. -/
theorem passStmts_weaker
    (h : t.Weaker t') :
    ∀ ss : List Stmt,
      passStmts t ss = true → passStmts t' ss = true
  | [], _ => rfl
  | s :: rest, hs => by
    simp only [passStmts, Bool.and_eq_true] at hs ⊢
    exact ⟨s.passes_weaker h hs.1, passStmts_weaker h rest hs.2⟩

/- An optional statement that passes a test. -/
theorem passStmt?_weaker
    (h : t.Weaker t') :
    ∀ s : Option Stmt,
      passStmt? t s = true → passStmt? t' s = true
  | none, _ => rfl
  | some s, hs => s.passes_weaker h hs

/- Some handlers that pass a test. -/
theorem passCatches_weaker
    (h : t.Weaker t') :
    ∀ catches : List Catch,
      passCatches t catches = true → passCatches t' catches = true
  | [], _ => rfl
  | ⟨_, _, body, _⟩ :: rest, hs => by
    simp only [passCatches, Bool.and_eq_true] at hs ⊢
    exact ⟨passStmts_weaker h body hs.1,
      passCatches_weaker h rest hs.2⟩

end

/- A program that passes a test passes a weaker one. -/
theorem Program.passes_weaker
    (h : t.Weaker t')
    {p : Program}
    (hp : p.passes t = true) : p.passes t' = true := by
  simp only [Program.passes, List.all_eq_true] at hp ⊢
  intro c hc m hm
  have hMethod := hp c hc m hm
  simp only [MethodDef.passes, Bool.and_eq_true] at hMethod ⊢
  refine ⟨hMethod.1, ?_⟩
  cases hBody : m.body with
  | none => rfl
  | some body =>
    have hStmts := hMethod.2
    rw [hBody] at hStmts
    exact passStmts_weaker h body hStmts

end Weaker

/- Plain compounds are asked for on top of source programs. -/
theorem Test.plainSource_weaker :
    Test.plainSource.Weaker Test.source where
  expr := fun e he => by
    simp only [Test.plainSource, Bool.and_eq_true] at he
    exact he.1
  stmt := fun _ hs => hs

------------------------------------------------------------
-- Parts that Pass
------------------------------------------------------------

section Parts

variable {t : Test}

/- Each of some expressions passes. -/
theorem passes_of_passExprs
    {es : List Expr}
    (h : passExprs t es = true) :
    ∀ e ∈ es, e.passes t = true := by
  induction es with
  | nil => exact fun _ he => by cases he
  | cons e rest ih =>
    simp only [passExprs, Bool.and_eq_true] at h
    intro x hx
    rcases List.mem_cons.mp hx with rfl | hx
    · exact h.1
    · exact ih h.2 x hx

/- Each of some statements passes. -/
theorem passes_of_passStmts
    {ss : List Stmt}
    (h : passStmts t ss = true) :
    ∀ s ∈ ss, s.passes t = true := by
  induction ss with
  | nil => exact fun _ hs => by cases hs
  | cons s rest ih =>
    simp only [passStmts, Bool.and_eq_true] at h
    intro x hx
    rcases List.mem_cons.mp hx with rfl | hx
    · exact h.1
    · exact ih h.2 x hx

/- The body of each of some arms passes. -/
theorem passes_of_passArms
    {arms : List Arm}
    (h : passArms t arms = true) :
    ∀ arm ∈ arms, passStmts t arm.body = true := by
  induction arms with
  | nil => exact fun _ harm => by cases harm
  | cons arm rest ih =>
    rcases arm with ⟨labels, body⟩
    simp only [passArms, Bool.and_eq_true] at h
    intro x hx
    rcases List.mem_cons.mp hx with rfl | hx
    · exact h.1
    · exact ih h.2 x hx

/- The body of each of some handlers passes. -/
theorem passes_of_passCatches
    {catches : List Catch}
    (h : passCatches t catches = true) :
    ∀ c ∈ catches, passStmts t c.body = true := by
  induction catches with
  | nil => exact fun _ hc => by cases hc
  | cons c rest ih =>
    rcases c with ⟨param, ty, body, span⟩
    simp only [passCatches, Bool.and_eq_true] at h
    intro x hx
    rcases List.mem_cons.mp hx with rfl | hx
    · exact h.1
    · exact ih h.2 x hx

end Parts

end ExecTrace
