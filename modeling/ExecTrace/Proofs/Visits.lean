import ExecTrace.Proofs.Jumps

/-
  Trees as instrumentation visits them. A test at sites is made
  of every expression and every statement that is visited, each
  at the site where it stands. Spliced parts are not visited, and
  of a target of an assignment only the parts are. A call without
  a result whose value is discarded is not visited as an
  expression either: only its receiver and its arguments are.

  Main declarations:
    * `SiteTest`, `Expr.passesAt` and `Stmt.passesAt`
    * `ClassDef.passesAt` and `Program.Visits`
    * `Expr.passesAt_within` and `Program.Visits.passesAt`
    * `Expr.isVoidCall` and `Expr.discardedPassesAt_eq`
    * `ExprForm.target?`, `ExprForm.typedBy` and `StmtForm.updates`
-/

namespace ExecTrace

open Instrument

------------------------------------------------------------
-- Tests at Sites
------------------------------------------------------------

/- A test of single expressions and statements at sites. -/
structure SiteTest where
  expr : Site → Expr → Bool
  stmt : Site → Stmt → Bool

mutual

/- Whether all that is visited in an expression passes. -/
def Expr.passesAt
    (t : SiteTest)
    (site : Site) : Expr → Bool
  | ⟨form, ty, span⟩ =>
    t.expr site ⟨form, ty, span⟩ && form.passesAt t site span

/- Whether all that is visited in a form passes. -/
def ExprForm.passesAt
    (t : SiteTest)
    (site : Site)
    (span : Span) : ExprForm → Bool
  | .literal _ => true
  | .localVar _ => true
  | .self => true
  | .staticField _ _ => true
  | .letIn _ _ => true
  | .instanceField object _ _ => object.passesAt t site
  | .index array index =>
    array.passesAt t site && index.passesAt t site
  | .length array => array.passesAt t site
  | .unary _ arg => arg.passesAt t site
  | .binary _ lhs rhs => lhs.passesAt t site && rhs.passesAt t site
  | .conditional cond onTrue onFalse =>
    cond.passesAt t site && onTrue.passesAt t site
      && onFalse.passesAt t site
  | .assign target value =>
    target.partsPassAt t site && value.passesAt t site
  | .compoundAssign _ target value =>
    target.partsPassAt t site && value.passesAt t site
  | .step _ target => target.partsPassAt t site
  | .call _ receiver args =>
    passOptionAt t site receiver && passExprsAt t site args
  | .new _ _ args => passExprsAt t site args
  | .newArray _ length => length.passesAt t site
  | .arrayOf _ items => passExprsAt t site items
  | .cast _ arg => arg.passesAt t site
  | .typeTest arg _ => arg.passesAt t site
  | .switch selector arms =>
    selector.passesAt t site
      && passArmsAt t (site.inside ⟨.switchExpr, none, span⟩) arms

/- Whether all that is visited in a target passes. -/
def Expr.partsPassAt
    (t : SiteTest)
    (site : Site) : Expr → Bool
  | ⟨.instanceField object _ _, _, _⟩ => object.passesAt t site
  | ⟨.index array index, _, _⟩ =>
    array.passesAt t site && index.passesAt t site
  | _ => true

/- Whether all passes where the value is discarded. -/
def Expr.discardedPassesAt
    (t : SiteTest)
    (site : Site) : Expr → Bool
  | ⟨.call _ receiver args, .void, _⟩ =>
    passOptionAt t site receiver && passExprsAt t site args
  | ⟨form, ty, span⟩ =>
    t.expr site ⟨form, ty, span⟩ && form.passesAt t site span

/- Whether all that is visited in some expressions passes. -/
def passExprsAt
    (t : SiteTest)
    (site : Site) : List Expr → Bool
  | [] => true
  | e :: rest => e.passesAt t site && passExprsAt t site rest

/- Whether all passes in expressions that are discarded. -/
def passDiscardedAt
    (t : SiteTest)
    (site : Site) : List Expr → Bool
  | [] => true
  | e :: rest =>
    e.discardedPassesAt t site && passDiscardedAt t site rest

/- Whether all passes in an expression that may be missing. -/
def passOptionAt
    (t : SiteTest)
    (site : Site) : Option Expr → Bool
  | none => true
  | some e => e.passesAt t site

/- Whether all that is visited in some arms passes. -/
def passArmsAt
    (t : SiteTest)
    (site : Site) : List Arm → Bool
  | [] => true
  | ⟨_, body⟩ :: rest =>
    passStmtsAt t site body && passArmsAt t site rest

/- Whether all that is visited in a statement passes. -/
def Stmt.passesAt
    (t : SiteTest)
    (site : Site) : Stmt → Bool
  | ⟨form, span⟩ =>
    t.stmt site ⟨form, span⟩ && form.passesAt t site span

/- Whether all that is visited in a form passes. -/
def StmtForm.passesAt
    (t : SiteTest)
    (site : Site)
    (span : Span) : StmtForm → Bool
  | .declare _ _ init => passOptionAt t site init
  | .expr e => e.discardedPassesAt t site
  | .block stmts => passStmtsAt t site stmts
  | .cond cond onTrue onFalse =>
    cond.passesAt t site && onTrue.passesAt t site
      && passStmtAt? t site onFalse
  | .while label cond body =>
    cond.passesAt t (site.inLoop .while label span)
      && body.passesAt t (site.inLoop .while label span)
  | .doWhile label body cond =>
    body.passesAt t (site.inLoop .doWhile label span)
      && cond.passesAt t (site.inLoop .doWhile label span)
  | .for label init cond update body =>
    passStmtsAt t site init
      && passOptionAt t (site.inLoop .for label span) cond
      && passDiscardedAt t (site.inLoop .for label span) update
      && body.passesAt t (site.inLoop .for label span)
  | .forEach label _ _ iterable body =>
    iterable.passesAt t site
      && body.passesAt t (site.inLoop .forEach label span)
  | .switch selector arms =>
    selector.passesAt t site
      && passArmsAt t (site.inside ⟨.switch, none, span⟩) arms
  | .return value => passOptionAt t site value
  | .break _ => true
  | .continue _ => true
  | .yield value => value.passesAt t site
  | .throw exception => exception.passesAt t site
  | .try body catches =>
    passStmtsAt t site body && passCatchesAt t site catches
  | .assert cond message =>
    cond.passesAt t site && passOptionAt t site message
  | .superCall _ args => passExprsAt t site args
  | .probe _ => true

/- Whether all that is visited in some statements passes. -/
def passStmtsAt
    (t : SiteTest)
    (site : Site) : List Stmt → Bool
  | [] => true
  | s :: rest => s.passesAt t site && passStmtsAt t site rest

/- Whether all passes in a statement that may be missing. -/
def passStmtAt?
    (t : SiteTest)
    (site : Site) : Option Stmt → Bool
  | none => true
  | some s => s.passesAt t site

/- Whether all that is visited in some handlers passes. -/
def passCatchesAt
    (t : SiteTest)
    (site : Site) : List Catch → Bool
  | [] => true
  | ⟨_, _, body, _⟩ :: rest =>
    passStmtsAt t site body && passCatchesAt t site rest

end

/- Whether all that is visited in a method of a class passes. -/
def MethodDef.passesAt
    (t : SiteTest)
    (owner : ClassDef)
    (m : MethodDef) : Bool :=
  match m.body with
  | none => true
  | some body => passStmtsAt t (bodySite owner m) body

/- Whether all that is visited in a class passes. -/
def ClassDef.passesAt
    (t : SiteTest)
    (c : ClassDef) : Bool :=
  c.methods.all fun m => m.passesAt t c

/- Whether all that is visited in a program passes. -/
def Program.passesAt
    (t : SiteTest)
    (p : Program) : Bool :=
  p.classes.all fun c => c.passesAt t

------------------------------------------------------------
-- Visited Expressions
------------------------------------------------------------

/-
  Whether an expression is visited at a site: it passes whatever
  test the program passes.
-/
def Program.Visits
    (p : Program)
    (site : Site)
    (e : Expr) : Prop :=
  ∀ t : SiteTest, p.passesAt t = true → t.expr site e = true

/- The test that all that is visited in a node passes a test. -/
def SiteTest.within (t : SiteTest) : SiteTest where
  expr site e := e.passesAt t site
  stmt site s := s.passesAt t site

variable {t : SiteTest}

mutual

/- What passes as a whole passes as a whole at every node. -/
theorem Expr.passesAt_within
    (site : Site) :
    ∀ e : Expr, e.passesAt t site = true →
      e.passesAt t.within site = true
  | ⟨form, ty, span⟩, h => by
    unfold Expr.passesAt
    apply Bool.and_eq_true_iff.mpr
    constructor
    · exact h
    · unfold Expr.passesAt at h
      apply ExprForm.passesAt_within site span form
      exact (Bool.and_eq_true_iff.mp h).2

/- The parts of a form pass as a whole. -/
theorem ExprForm.passesAt_within
    (site : Site)
    (span : Span) :
    ∀ form : ExprForm, form.passesAt t site span = true →
      form.passesAt t.within site span = true
  | .literal _, _ => rfl
  | .localVar _, _ => rfl
  | .self, _ => rfl
  | .staticField _ _, _ => rfl
  | .letIn _ _, _ => rfl
  | .instanceField object _ _, h =>
    Expr.passesAt_within site object h
  | .index array index, h => by
    simp only [ExprForm.passesAt, Bool.and_eq_true] at h ⊢
    exact ⟨Expr.passesAt_within site array h.1,
      Expr.passesAt_within site index h.2⟩
  | .length array, h => Expr.passesAt_within site array h
  | .unary _ arg, h => Expr.passesAt_within site arg h
  | .binary _ lhs rhs, h => by
    simp only [ExprForm.passesAt, Bool.and_eq_true] at h ⊢
    exact ⟨Expr.passesAt_within site lhs h.1,
      Expr.passesAt_within site rhs h.2⟩
  | .conditional cond onTrue onFalse, h => by
    simp only [ExprForm.passesAt, Bool.and_eq_true] at h ⊢
    exact ⟨⟨Expr.passesAt_within site cond h.1.1,
      Expr.passesAt_within site onTrue h.1.2⟩,
      Expr.passesAt_within site onFalse h.2⟩
  | .assign target value, h => by
    simp only [ExprForm.passesAt, Bool.and_eq_true] at h ⊢
    exact ⟨Expr.partsPassAt_within site target h.1,
      Expr.passesAt_within site value h.2⟩
  | .compoundAssign _ target value, h => by
    simp only [ExprForm.passesAt, Bool.and_eq_true] at h ⊢
    exact ⟨Expr.partsPassAt_within site target h.1,
      Expr.passesAt_within site value h.2⟩
  | .step _ target, h => Expr.partsPassAt_within site target h
  | .call _ receiver args, h => by
    simp only [ExprForm.passesAt, Bool.and_eq_true] at h ⊢
    exact ⟨passOptionAt_within site receiver h.1,
      passExprsAt_within site args h.2⟩
  | .new _ _ args, h => passExprsAt_within site args h
  | .newArray _ length, h => Expr.passesAt_within site length h
  | .arrayOf _ items, h => passExprsAt_within site items h
  | .cast _ arg, h => Expr.passesAt_within site arg h
  | .typeTest arg _, h => Expr.passesAt_within site arg h
  | .switch selector arms, h => by
    simp only [ExprForm.passesAt, Bool.and_eq_true] at h ⊢
    exact ⟨Expr.passesAt_within site selector h.1,
      passArmsAt_within _ arms h.2⟩

/- The parts of a target pass as a whole. -/
theorem Expr.partsPassAt_within
    (site : Site) :
    ∀ e : Expr, e.partsPassAt t site = true →
      e.partsPassAt t.within site = true
  | ⟨form, ty, span⟩, h => by
    have hForm := ExprForm.passesAt_within site span form
    cases form with
    | instanceField object cls field => exact hForm h
    | index array index => exact hForm h
    | _ => rfl

/- The parts of a discarded call pass as a whole. -/
theorem Expr.discardedPassesAt_within
    (site : Site) :
    ∀ e : Expr, e.discardedPassesAt t site = true →
      e.discardedPassesAt t.within site = true
  | ⟨form, ty, span⟩, h => by
    have hForm := ExprForm.passesAt_within site span form
    unfold Expr.discardedPassesAt at h ⊢
    split at h
    · rename_i hSame
      cases hSame
      exact hForm h
    · rename_i hSame
      cases hSame
      apply Bool.and_eq_true_iff.mpr
      constructor
      · exact h
      · exact hForm (Bool.and_eq_true_iff.mp h).2

/- Expressions pass as a whole. -/
theorem passExprsAt_within
    (site : Site) :
    ∀ es : List Expr, passExprsAt t site es = true →
      passExprsAt t.within site es = true
  | [], _ => rfl
  | e :: rest, h => by
    simp only [passExprsAt, Bool.and_eq_true] at h ⊢
    exact ⟨Expr.passesAt_within site e h.1,
      passExprsAt_within site rest h.2⟩

/- Discarded expressions pass as a whole. -/
theorem passDiscardedAt_within
    (site : Site) :
    ∀ es : List Expr, passDiscardedAt t site es = true →
      passDiscardedAt t.within site es = true
  | [], _ => rfl
  | e :: rest, h => by
    simp only [passDiscardedAt, Bool.and_eq_true] at h ⊢
    exact ⟨Expr.discardedPassesAt_within site e h.1,
      passDiscardedAt_within site rest h.2⟩

/- An expression that may be missing passes as a whole. -/
theorem passOptionAt_within
    (site : Site) :
    ∀ e : Option Expr, passOptionAt t site e = true →
      passOptionAt t.within site e = true
  | none, _ => rfl
  | some e, h => Expr.passesAt_within site e h

/- Arms pass as a whole. -/
theorem passArmsAt_within
    (site : Site) :
    ∀ as : List Arm, passArmsAt t site as = true →
      passArmsAt t.within site as = true
  | [], _ => rfl
  | ⟨_, body⟩ :: rest, h => by
    simp only [passArmsAt, Bool.and_eq_true] at h ⊢
    exact ⟨passStmtsAt_within site body h.1,
      passArmsAt_within site rest h.2⟩

/- A statement passes as a whole at every node. -/
theorem Stmt.passesAt_within
    (site : Site) :
    ∀ s : Stmt, s.passesAt t site = true →
      s.passesAt t.within site = true
  | ⟨form, span⟩, h => by
    unfold Stmt.passesAt
    apply Bool.and_eq_true_iff.mpr
    constructor
    · exact h
    · unfold Stmt.passesAt at h
      apply StmtForm.passesAt_within site span form
      exact (Bool.and_eq_true_iff.mp h).2

/- The parts of a statement pass as a whole. -/
theorem StmtForm.passesAt_within
    (site : Site)
    (span : Span) :
    ∀ form : StmtForm, form.passesAt t site span = true →
      form.passesAt t.within site span = true
  | .declare _ _ init, h => passOptionAt_within site init h
  | .expr e, h => Expr.discardedPassesAt_within site e h
  | .block stmts, h => passStmtsAt_within site stmts h
  | .cond cond onTrue onFalse, h => by
    simp only [StmtForm.passesAt, Bool.and_eq_true] at h ⊢
    exact ⟨⟨Expr.passesAt_within site cond h.1.1,
      Stmt.passesAt_within site onTrue h.1.2⟩,
      passStmtAt?_within site onFalse h.2⟩
  | .while _ cond body, h => by
    simp only [StmtForm.passesAt, Bool.and_eq_true] at h ⊢
    exact ⟨Expr.passesAt_within _ cond h.1,
      Stmt.passesAt_within _ body h.2⟩
  | .doWhile _ body cond, h => by
    simp only [StmtForm.passesAt, Bool.and_eq_true] at h ⊢
    exact ⟨Stmt.passesAt_within _ body h.1,
      Expr.passesAt_within _ cond h.2⟩
  | .for _ init cond update body, h => by
    simp only [StmtForm.passesAt, Bool.and_eq_true] at h ⊢
    exact ⟨⟨⟨passStmtsAt_within site init h.1.1.1,
      passOptionAt_within _ cond h.1.1.2⟩,
      passDiscardedAt_within _ update h.1.2⟩,
      Stmt.passesAt_within _ body h.2⟩
  | .forEach _ _ _ iterable body, h => by
    simp only [StmtForm.passesAt, Bool.and_eq_true] at h ⊢
    exact ⟨Expr.passesAt_within site iterable h.1,
      Stmt.passesAt_within _ body h.2⟩
  | .switch selector arms, h => by
    simp only [StmtForm.passesAt, Bool.and_eq_true] at h ⊢
    exact ⟨Expr.passesAt_within site selector h.1,
      passArmsAt_within _ arms h.2⟩
  | .return value, h => passOptionAt_within site value h
  | .break _, _ => rfl
  | .continue _, _ => rfl
  | .yield value, h => Expr.passesAt_within site value h
  | .throw exception, h => Expr.passesAt_within site exception h
  | .try body catches, h => by
    simp only [StmtForm.passesAt, Bool.and_eq_true] at h ⊢
    exact ⟨passStmtsAt_within site body h.1,
      passCatchesAt_within site catches h.2⟩
  | .assert cond message, h => by
    simp only [StmtForm.passesAt, Bool.and_eq_true] at h ⊢
    exact ⟨Expr.passesAt_within site cond h.1,
      passOptionAt_within site message h.2⟩
  | .superCall _ args, h => passExprsAt_within site args h
  | .probe _, _ => rfl

/- Statements pass as a whole. -/
theorem passStmtsAt_within
    (site : Site) :
    ∀ ss : List Stmt, passStmtsAt t site ss = true →
      passStmtsAt t.within site ss = true
  | [], _ => rfl
  | s :: rest, h => by
    simp only [passStmtsAt, Bool.and_eq_true] at h ⊢
    exact ⟨Stmt.passesAt_within site s h.1,
      passStmtsAt_within site rest h.2⟩

/- A statement that may be missing passes as a whole. -/
theorem passStmtAt?_within
    (site : Site) :
    ∀ s : Option Stmt, passStmtAt? t site s = true →
      passStmtAt? t.within site s = true
  | none, _ => rfl
  | some s, h => Stmt.passesAt_within site s h

/- Handlers pass as a whole. -/
theorem passCatchesAt_within
    (site : Site) :
    ∀ cs : List Catch, passCatchesAt t site cs = true →
      passCatchesAt t.within site cs = true
  | [], _ => rfl
  | ⟨_, _, body, _⟩ :: rest, h => by
    simp only [passCatchesAt, Bool.and_eq_true] at h ⊢
    exact ⟨passStmtsAt_within site body h.1,
      passCatchesAt_within site rest h.2⟩

end

/- A program passes as a whole at every node. -/
theorem Program.passesAt_within
    {p : Program}
    (h : p.passesAt t = true) : p.passesAt t.within = true := by
  unfold passesAt ClassDef.passesAt at h ⊢
  simp only [List.all_eq_true] at h ⊢
  intro c hc m hm
  have hMethod := h c hc m hm
  unfold MethodDef.passesAt at hMethod ⊢
  cases hBody : m.body with
  | none => rfl
  | some body =>
    rw [hBody] at hMethod
    exact passStmtsAt_within _ body hMethod

/- What is visited in a program that passes passes as a whole. -/
theorem Program.Visits.passesAt
    {p : Program}
    {site : Site}
    {e : Expr}
    (hVisits : p.Visits site e)
    (h : p.passesAt t = true) : e.passesAt t site = true :=
  hVisits t.within (passesAt_within h)

------------------------------------------------------------
-- Discarded Calls
------------------------------------------------------------

/- Whether an expression is a call without a result. -/
def Expr.isVoidCall (e : Expr) : Bool :=
  match e.form with
  | .call _ _ _ => e.ty == .void
  | _ => false

/- A call without a result has a receiver and arguments. -/
theorem Expr.eq_of_isVoidCall
    {e : Expr}
    (h : e.isVoidCall = true) :
    ∃ callee receiver args,
      e = ⟨.call callee receiver args, .void, e.span⟩ := by
  rcases e with ⟨form, ty, span⟩
  cases form with
  | call callee receiver args =>
    have hTy : ty = .void := by simpa [isVoidCall] using h
    subst hTy
    exact ⟨callee, receiver, args, rfl⟩
  | _ => cases h

/- What is no such call is visited as an expression. -/
theorem Expr.discardedPassesAt_eq
    {e : Expr}
    (h : e.isVoidCall = false)
    (t : SiteTest)
    (site : Site) :
    e.discardedPassesAt t site = e.passesAt t site := by
  rcases e with ⟨form, ty, span⟩
  unfold discardedPassesAt passesAt
  split
  · rename_i hSame
    cases hSame
    cases h
  · rename_i hSame
    cases hSame
    rfl

------------------------------------------------------------
-- Parts of Forms
------------------------------------------------------------

/- Whether an expression is a place. -/
def Expr.isPlace (e : Expr) : Bool :=
  match e.form with
  | .localVar _ => true
  | .staticField _ _ => true
  | .instanceField _ _ _ => true
  | .index _ _ => true
  | _ => false

namespace ExprForm

/- What is changed by an expression. -/
def target? : ExprForm → Option Expr
  | .assign target _ => some target
  | .compoundAssign _ target _ => some target
  | .step _ target => some target
  | _ => none

/- What is assigned to by an expression. -/
def destination? : ExprForm → Option Expr
  | .assign target _ => some target
  | .compoundAssign _ target _ => some target
  | _ => none

/- The parts that an expression may have its type from. -/
def typedBy : ExprForm → List Expr
  | .unary _ arg => [arg]
  | .binary _ lhs rhs => [lhs, rhs]
  | .conditional _ onTrue onFalse => [onTrue, onFalse]
  | _ => []

end ExprForm

namespace StmtForm

/- The types of the variables that a statement sets. -/
def variableTys : StmtForm → List Ty
  | .declare _ ty (some _) => [ty]
  | .forEach _ _ ty _ _ => [ty]
  | .try _ catches => catches.map Catch.ty
  | _ => []

/- Whether a statement returns a value. -/
def returnsValue : StmtForm → Bool
  | .return (some _) => true
  | _ => false

/- The jump that a statement is, and its label. -/
def jump? : StmtForm → Option (Jump × Option String)
  | .break label => some (.break, label)
  | .continue label => some (.continue, label)
  | .yield _ => some (.yield, none)
  | _ => none

/- The updates of a loop. -/
def updates : StmtForm → List Expr
  | .for _ _ _ update _ => update
  | _ => []

end StmtForm

end ExecTrace
