import ExecTrace.Proofs.Congruence
import ExecTrace.Proofs.Source

/-
  Settled trees. Of the variables around a tree some are known to
  be bound, and some to hold truth values. In a settled tree the
  operands of each probe are variables that are known to be bound
  where the probe stands, or negations of known truth values, and
  a flag is a known truth value. Whatever instrumentation splices
  into a source program is settled without any knowledge.

  Main declarations:
    * `isFixed`
    * `Known`, `Known.after` and `Expr.truths`
    * `Probe.Settled` and `Stmt.Settled`
    * `settledAll_append`
    * `settledAll_of_source`
    * `ExprForm.parts_settled` and `StmtForm.parts_settled`
-/

namespace ExecTrace

------------------------------------------------------------
-- Knowledge
------------------------------------------------------------

/-
  Whether a name is one that nothing is ever assigned to: a
  hidden name, but not that of the result of a call.
-/
def isFixed (name : String) : Bool :=
  hidden name && !("$result".toList.isPrefixOf name.toList)

/- What is known of the local variables at some point. -/
structure Known where
  bound : List String := []
  truths : List String := []

/- A fixed variable that an expression is. -/
def Expr.fixed (e : Expr) : List String :=
  match e.form with
  | .localVar name => if isFixed name then [name] else []
  | _ => []

/-
  The variables that hold truth values once an expression has
  been evaluated and its value is bound to a name.
-/
def Expr.truths
    (name : String)
    (e : Expr) : List String :=
  match e.form with
  | .binary .and lhs _ => name :: lhs.fixed
  | .binary .or lhs _ => name :: lhs.fixed
  | .typeTest _ _ => [name]
  | _ => []

namespace Known

/- What is known of truth values is forgotten. -/
def forget (Γ : Known) : Known :=
  { Γ with truths := [] }

/- One more variable is known to be bound. -/
def plus
    (Γ : Known)
    (name : String) : Known :=
  ⟨name :: Γ.bound, []⟩

/- What is known behind a statement. -/
def after
    (Γ : Known)
    (s : Stmt) : Known :=
  match s.form with
  | .declare name _ (some init) =>
    ⟨name :: Γ.bound, init.truths name⟩
  | .declare name _ none => Γ.plus name
  | _ => Γ.forget

/- What is known behind some statements. -/
def afterAll
    (Γ : Known)
    (ss : List Stmt) : Known :=
  ss.foldl after Γ

end Known

------------------------------------------------------------
-- Settled Trees
------------------------------------------------------------

/- An operand that reads a known variable, or negates a truth. -/
def Operand.Settled
    (Γ : Known)
    (o : Operand) : Prop :=
  match o.expr.form with
  | .localVar name => name ∈ Γ.bound
  | .unary .not ⟨.localVar name, _, _⟩ => name ∈ Γ.truths
  | _ => False

/- An operand that reads or negates a known truth value. -/
def Operand.IsTruth
    (Γ : Known)
    (o : Operand) : Prop :=
  match o.expr.form with
  | .localVar name => name ∈ Γ.truths
  | .unary .not ⟨.localVar name, _, _⟩ => name ∈ Γ.truths
  | _ => False

/- The operands of a probe that have to be truth values. -/
def Probe.flags {ω : Type} : Probe ω → List ω
  | .castAttempt _ _ succeeds => [succeeds]
  | .binary _ _ _ _ skipped => skipped.toList
  | .typeTest _ _ result => [result]
  | _ => []

/- A probe whose operands can be evaluated. -/
structure Probe.Settled
    (Γ : Known)
    (probe : Probe Operand) : Prop where
  operands : ∀ o ∈ probe.operands, o.Settled Γ
  flags : ∀ o ∈ probe.flags, o.IsTruth Γ

/- A probe is settled where its only operand is. -/
theorem Probe.Settled.one
    {Γ : Known}
    {probe : Probe Operand}
    {o : Operand}
    (hOperands : probe.operands = [o])
    (hFlags : probe.flags = [])
    (ho : o.Settled Γ) : probe.Settled Γ where
  operands := by
    rw [hOperands]
    exact List.forall_mem_singleton.mpr ho
  flags := by
    rw [hFlags]
    exact List.forall_mem_nil _

/- A probe without operands is settled. -/
theorem Probe.Settled.bare
    {Γ : Known}
    {probe : Probe Operand}
    (hOperands : probe.operands = [])
    (hFlags : probe.flags = []) : probe.Settled Γ where
  operands := by
    rw [hOperands]
    exact List.forall_mem_nil _
  flags := by
    rw [hFlags]
    exact List.forall_mem_nil _

/- A target that is no fixed variable. -/
def Expr.Settable (e : Expr) : Prop :=
  match e.form with
  | .localVar name => isFixed name = false
  | _ => True

mutual

/- An expression whose probes are settled. -/
def Expr.Settled (Γ : Known) : Expr → Prop
  | ⟨form, _, _⟩ => form.Settled Γ

/- A form of expressions whose probes are settled. -/
def ExprForm.Settled (Γ : Known) : ExprForm → Prop
  | .literal _ => True
  | .localVar _ => True
  | .self => True
  | .staticField _ _ => True
  | .instanceField object _ _ => object.Settled Γ
  | .index array i => array.Settled Γ ∧ i.Settled Γ
  | .length array => array.Settled Γ
  | .unary _ arg => arg.Settled Γ
  | .binary _ lhs rhs => lhs.Settled Γ ∧ rhs.Settled Γ
  | .conditional test onTrue onFalse =>
    test.Settled Γ ∧ onTrue.Settled Γ ∧ onFalse.Settled Γ
  | .assign target value =>
    target.Settable ∧ target.Settled Γ ∧ value.Settled Γ
  | .compoundAssign _ target value =>
    target.Settable ∧ target.Settled Γ ∧ value.Settled Γ
  | .step _ target => target.Settable ∧ target.Settled Γ
  | .call _ receiver args =>
    settledOption Γ receiver ∧ settledExprs Γ args
  | .new _ _ args => settledExprs Γ args
  | .newArray _ size => size.Settled Γ
  | .arrayOf _ items => settledExprs Γ items
  | .cast _ arg => arg.Settled Γ
  | .typeTest arg _ => arg.Settled Γ
  | .switch selector arms =>
    selector.Settled Γ ∧ settledArms Γ arms
  | .letIn stmts body =>
    settledAll Γ.forget stmts ∧
      body.Settled (Γ.forget.afterAll stmts)

/- Expressions whose probes are settled. -/
def settledExprs (Γ : Known) : List Expr → Prop
  | [] => True
  | e :: rest => e.Settled Γ ∧ settledExprs Γ rest

/- An optional expression whose probes are settled. -/
def settledOption (Γ : Known) : Option Expr → Prop
  | none => True
  | some e => e.Settled Γ

/- Arms whose probes are settled. -/
def settledArms (Γ : Known) : List Arm → Prop
  | [] => True
  | ⟨_, body⟩ :: rest =>
    settledAll Γ.forget body ∧ settledArms Γ rest

/- A statement whose probes are settled. -/
def Stmt.Settled (Γ : Known) : Stmt → Prop
  | ⟨form, _⟩ => form.Settled Γ

/- A form of statements whose probes are settled. -/
def StmtForm.Settled (Γ : Known) : StmtForm → Prop
  | .declare _ _ init => settledOption Γ init
  | .expr e => e.Settled Γ
  | .block stmts => settledAll Γ.forget stmts
  | .cond test onTrue onFalse =>
    test.Settled Γ ∧ onTrue.Settled Γ.forget ∧
      settledStmt? Γ.forget onFalse
  | .while _ test body =>
    test.Settled Γ ∧ body.Settled Γ.forget
  | .doWhile _ body test =>
    body.Settled Γ.forget ∧ test.Settled Γ
  | .for _ init test update body =>
    settledAll Γ.forget init ∧ settledOption Γ test ∧
      settledExprs Γ update ∧ body.Settled Γ.forget
  | .forEach _ var _ iterable body =>
    iterable.Settled Γ ∧ body.Settled (Γ.plus var)
  | .switch selector arms =>
    selector.Settled Γ ∧ settledArms Γ arms
  | .return value => settledOption Γ value
  | .break _ => True
  | .continue _ => True
  | .yield value => value.Settled Γ
  | .throw exception => exception.Settled Γ
  | .try body catches =>
    settledAll Γ.forget body ∧ settledCatches Γ catches
  | .assert test message =>
    test.Settled Γ ∧ settledOption Γ message
  | .superCall _ args => settledExprs Γ args
  | .probe probe => probe.Settled Γ

/- Statements whose probes are settled. -/
def settledAll (Γ : Known) : List Stmt → Prop
  | [] => True
  | s :: rest => s.Settled Γ ∧ settledAll (Γ.after s) rest

/- An optional statement whose probes are settled. -/
def settledStmt? (Γ : Known) : Option Stmt → Prop
  | none => True
  | some s => s.Settled Γ

/- Handlers whose probes are settled. -/
def settledCatches (Γ : Known) : List Catch → Prop
  | [] => True
  | ⟨param, _, body, _⟩ :: rest =>
    settledAll (Γ.plus param) body ∧ settledCatches Γ rest

end

------------------------------------------------------------
-- Sequences of Statements
------------------------------------------------------------

section Sequences

variable {Γ : Known}

/- Statements are settled if both parts of them are. -/
theorem settledAll_append
    (ss ts : List Stmt) :
    settledAll Γ (ss ++ ts) ↔
      settledAll Γ ss ∧ settledAll (Γ.afterAll ss) ts := by
  induction ss generalizing Γ with
  | nil => simp [settledAll, Known.afterAll]
  | cons s rest ih =>
    simp only [List.cons_append, settledAll, ih, and_assoc]
    rfl

/- What is known to be bound behind a statement. -/
theorem Known.mem_after
    {x : String}
    (s : Stmt)
    (h : x ∈ Γ.bound) : x ∈ (Γ.after s).bound := by
  rcases s with ⟨form, span⟩
  cases form with
  | declare name ty init =>
    cases init <;> exact List.mem_cons_of_mem _ h
  | _ => exact h

/- What is known to be bound behind some statements. -/
theorem Known.mem_afterAll
    {x : String}
    (ss : List Stmt)
    (h : x ∈ Γ.bound) : x ∈ (Γ.afterAll ss).bound := by
  induction ss generalizing Γ with
  | nil => exact h
  | cons s rest ih => exact ih (mem_after s h)

end Sequences

------------------------------------------------------------
-- Source Trees
------------------------------------------------------------

/- A variable of a source program is not fixed. -/
theorem isFixed_of_visible
    {name : String}
    (h : hidden name = false) : isFixed name = false := by
  simp [isFixed, h]

/- A target in a source program can be set. -/
theorem Expr.settable_of_source
    {e : Expr}
    (h : e.passes Test.source = true) : e.Settable := by
  rcases e with ⟨form, ty, span⟩
  simp only [Expr.passes, Bool.and_eq_true] at h
  cases form with
  | localVar name =>
    have hVisible : hidden name = false := by
      simpa [Test.source, Test.sourceExpr] using h.1
    exact isFixed_of_visible hVisible
  | _ => trivial

mutual

/- A source expression is settled: it has no probes. -/
theorem Expr.settled_of_source
    (Γ : Known) :
    ∀ e : Expr, e.passes Test.source = true → e.Settled Γ
  | ⟨form, _, _⟩, h => by
    simp only [Expr.passes, Bool.and_eq_true] at h
    exact form.settled_of_source Γ h.2

/- The forms of source expressions are settled. -/
theorem ExprForm.settled_of_source
    (Γ : Known) :
    ∀ form : ExprForm,
      form.passes Test.source = true → form.Settled Γ
  | .literal _, _ => trivial
  | .localVar _, _ => trivial
  | .self, _ => trivial
  | .staticField _ _, _ => trivial
  | .instanceField object _ _, h => object.settled_of_source Γ h
  | .index array index, h => by
    simp only [ExprForm.passes, Bool.and_eq_true] at h
    exact ⟨array.settled_of_source Γ h.1,
      index.settled_of_source Γ h.2⟩
  | .length array, h => array.settled_of_source Γ h
  | .unary _ arg, h => arg.settled_of_source Γ h
  | .binary _ lhs rhs, h => by
    simp only [ExprForm.passes, Bool.and_eq_true] at h
    exact ⟨lhs.settled_of_source Γ h.1,
      rhs.settled_of_source Γ h.2⟩
  | .conditional cond onTrue onFalse, h => by
    simp only [ExprForm.passes, Bool.and_eq_true] at h
    exact ⟨cond.settled_of_source Γ h.1.1,
      onTrue.settled_of_source Γ h.1.2,
      onFalse.settled_of_source Γ h.2⟩
  | .assign target value, h => by
    simp only [ExprForm.passes, Bool.and_eq_true] at h
    exact ⟨target.settable_of_source h.1,
      target.settled_of_source Γ h.1,
      value.settled_of_source Γ h.2⟩
  | .compoundAssign _ target value, h => by
    simp only [ExprForm.passes, Bool.and_eq_true] at h
    exact ⟨target.settable_of_source h.1,
      target.settled_of_source Γ h.1,
      value.settled_of_source Γ h.2⟩
  | .step _ target, h =>
    ⟨target.settable_of_source h, target.settled_of_source Γ h⟩
  | .call _ receiver args, h => by
    simp only [ExprForm.passes, Bool.and_eq_true] at h
    exact ⟨settledOption_of_source Γ receiver h.1,
      settledExprs_of_source Γ args h.2⟩
  | .new _ _ args, h => settledExprs_of_source Γ args h
  | .newArray _ length, h => length.settled_of_source Γ h
  | .arrayOf _ items, h => settledExprs_of_source Γ items h
  | .cast _ arg, h => arg.settled_of_source Γ h
  | .typeTest arg _, h => arg.settled_of_source Γ h
  | .switch selector arms, h => by
    simp only [ExprForm.passes, Bool.and_eq_true] at h
    exact ⟨selector.settled_of_source Γ h.1,
      settledArms_of_source Γ arms h.2⟩
  | .letIn stmts body, h => by
    simp only [ExprForm.passes, Bool.and_eq_true] at h
    exact ⟨settledAll_of_source Γ.forget stmts h.1,
      body.settled_of_source _ h.2⟩

/- Source expressions are settled. -/
theorem settledExprs_of_source
    (Γ : Known) :
    ∀ es : List Expr,
      passExprs Test.source es = true → settledExprs Γ es
  | [], _ => trivial
  | e :: rest, h => by
    simp only [passExprs, Bool.and_eq_true] at h
    exact ⟨e.settled_of_source Γ h.1,
      settledExprs_of_source Γ rest h.2⟩

/- An optional source expression is settled. -/
theorem settledOption_of_source
    (Γ : Known) :
    ∀ e : Option Expr,
      passOption Test.source e = true → settledOption Γ e
  | none, _ => trivial
  | some e, h => e.settled_of_source Γ h

/- The arms of a source program are settled. -/
theorem settledArms_of_source
    (Γ : Known) :
    ∀ arms : List Arm,
      passArms Test.source arms = true → settledArms Γ arms
  | [], _ => trivial
  | ⟨_, body⟩ :: rest, h => by
    simp only [passArms, Bool.and_eq_true] at h
    exact ⟨settledAll_of_source Γ.forget body h.1,
      settledArms_of_source Γ rest h.2⟩

/- A source statement is settled. -/
theorem Stmt.settled_of_source
    (Γ : Known) :
    ∀ s : Stmt, s.passes Test.source = true → s.Settled Γ
  | ⟨form, _⟩, h => by
    simp only [Stmt.passes, Bool.and_eq_true] at h
    exact form.settled_of_source Γ h.1 h.2

/- The forms of source statements are settled. -/
theorem StmtForm.settled_of_source
    {span : Span}
    (Γ : Known) :
    ∀ form : StmtForm,
      Test.source.stmt ⟨form, span⟩ = true →
      form.passes Test.source = true → form.Settled Γ
  | .declare _ _ init, _, h => settledOption_of_source Γ init h
  | .expr e, _, h => e.settled_of_source Γ h
  | .block stmts, _, h => settledAll_of_source Γ.forget stmts h
  | .cond cond onTrue onFalse, _, h => by
    simp only [StmtForm.passes, Bool.and_eq_true] at h
    exact ⟨cond.settled_of_source Γ h.1.1,
      onTrue.settled_of_source Γ.forget h.1.2,
      settledStmt?_of_source Γ.forget onFalse h.2⟩
  | .while _ cond body, _, h => by
    simp only [StmtForm.passes, Bool.and_eq_true] at h
    exact ⟨cond.settled_of_source Γ h.1,
      body.settled_of_source Γ.forget h.2⟩
  | .doWhile _ body cond, _, h => by
    simp only [StmtForm.passes, Bool.and_eq_true] at h
    exact ⟨body.settled_of_source Γ.forget h.1,
      cond.settled_of_source Γ h.2⟩
  | .for _ init cond update body, _, h => by
    simp only [StmtForm.passes, Bool.and_eq_true] at h
    exact ⟨settledAll_of_source Γ.forget init h.1.1.1,
      settledOption_of_source Γ cond h.1.1.2,
      settledExprs_of_source Γ update h.1.2,
      body.settled_of_source Γ.forget h.2⟩
  | .forEach _ var _ iterable body, _, h => by
    simp only [StmtForm.passes, Bool.and_eq_true] at h
    exact ⟨iterable.settled_of_source Γ h.1,
      body.settled_of_source (Γ.plus var) h.2⟩
  | .switch selector arms, _, h => by
    simp only [StmtForm.passes, Bool.and_eq_true] at h
    exact ⟨selector.settled_of_source Γ h.1,
      settledArms_of_source Γ arms h.2⟩
  | .return value, _, h => settledOption_of_source Γ value h
  | .break _, _, _ => trivial
  | .continue _, _, _ => trivial
  | .yield value, _, h => value.settled_of_source Γ h
  | .throw exception, _, h => exception.settled_of_source Γ h
  | .try body catches, _, h => by
    simp only [StmtForm.passes, Bool.and_eq_true] at h
    exact ⟨settledAll_of_source Γ.forget body h.1,
      settledCatches_of_source Γ catches h.2⟩
  | .assert cond message, _, h => by
    simp only [StmtForm.passes, Bool.and_eq_true] at h
    exact ⟨cond.settled_of_source Γ h.1,
      settledOption_of_source Γ message h.2⟩
  | .superCall _ args, _, h => settledExprs_of_source Γ args h
  | .probe _, hNone, _ => by cases hNone

/- Source statements are settled. -/
theorem settledAll_of_source
    (Γ : Known) :
    ∀ ss : List Stmt,
      passStmts Test.source ss = true → settledAll Γ ss
  | [], _ => trivial
  | s :: rest, h => by
    simp only [passStmts, Bool.and_eq_true] at h
    exact ⟨s.settled_of_source Γ h.1,
      settledAll_of_source (Γ.after s) rest h.2⟩

/- An optional source statement is settled. -/
theorem settledStmt?_of_source
    (Γ : Known) :
    ∀ s : Option Stmt,
      passStmt? Test.source s = true → settledStmt? Γ s
  | none, _ => trivial
  | some s, h => s.settled_of_source Γ h

/- The handlers of a source program are settled. -/
theorem settledCatches_of_source
    (Γ : Known) :
    ∀ catches : List Catch,
      passCatches Test.source catches = true →
        settledCatches Γ catches
  | [], _ => trivial
  | ⟨param, _, body, _⟩ :: rest, h => by
    simp only [passCatches, Bool.and_eq_true] at h
    exact ⟨settledAll_of_source (Γ.plus param) body h.1,
      settledCatches_of_source Γ rest h.2⟩

end

------------------------------------------------------------
-- Parts of Settled Trees
------------------------------------------------------------

section Parts

variable {Γ : Known}

/- Each of some settled expressions is settled. -/
theorem settled_of_settledExprs
    {es : List Expr}
    (h : settledExprs Γ es) : ∀ e ∈ es, e.Settled Γ := by
  induction es with
  | nil => exact List.forall_mem_nil _
  | cons e rest ih =>
    intro x hx
    rcases List.mem_cons.mp hx with rfl | hx
    · exact h.1
    · exact ih h.2 x hx

/- An optional settled expression is settled. -/
theorem settled_of_settledOption
    {e : Option Expr}
    (h : settledOption Γ e) : ∀ x ∈ e.toList, x.Settled Γ := by
  cases e with
  | none => exact List.forall_mem_nil _
  | some e =>
    intro x hx
    rcases List.mem_singleton.mp hx with rfl
    exact h

/- The parts of a settled target are settled. -/
theorem Expr.placeParts_settled
    {e : Expr}
    (h : e.Settled Γ) : ∀ x ∈ e.placeParts, x.Settled Γ := by
  rcases e with ⟨form, ty, span⟩
  cases form with
  | instanceField object cls field =>
    intro x hx
    rcases List.mem_singleton.mp hx with rfl
    exact h
  | index array index =>
    intro x hx
    simp only [Expr.placeParts, List.mem_cons, List.not_mem_nil,
      or_false] at hx
    rcases hx with rfl | rfl
    · exact h.1
    · exact h.2
  | _ => exact List.forall_mem_nil _

/- The parts of a settled form are settled. -/
theorem ExprForm.parts_settled
    {form : ExprForm}
    (h : form.Settled Γ) : ∀ x ∈ form.parts, x.Settled Γ := by
  intro x hx
  cases form with
  | assign target value =>
    rcases List.mem_append.mp hx with hx | hx
    · exact Expr.placeParts_settled h.2.1 x hx
    · rcases List.mem_singleton.mp hx with rfl
      exact h.2.2
  | compoundAssign op target value =>
    rcases List.mem_append.mp hx with hx | hx
    · exact Expr.placeParts_settled h.2.1 x hx
    · rcases List.mem_singleton.mp hx with rfl
      exact h.2.2
  | step op target => exact Expr.placeParts_settled h.2 x hx
  | call callee receiver args =>
    rcases List.mem_append.mp hx with hx | hx
    · exact settled_of_settledOption h.1 x hx
    · exact settled_of_settledExprs h.2 x hx
  | new cls signature args => exact settled_of_settledExprs h x hx
  | arrayOf element items => exact settled_of_settledExprs h x hx
  | switch selector arms =>
    rcases List.mem_singleton.mp hx with rfl
    exact h.1
  | _ => grind [ExprForm.parts, ExprForm.Settled]

/- What a settled form assigns is no fixed variable. -/
theorem ExprForm.assigned_settled
    {form : ExprForm}
    (h : form.Settled Γ) :
    ∀ name ∈ form.assigned?, isFixed name = false := by
  have hTarget : ∀ {e : Expr}, e.Settable →
      ∀ name ∈ e.variable?, isFixed name = false := by
    rintro ⟨form, ty, span⟩ he name hName
    cases form with
    | localVar x =>
      cases hName
      exact he
    | _ => cases hName
  cases form with
  | assign target value => exact hTarget h.1
  | compoundAssign op target value => exact hTarget h.1
  | step op target => exact hTarget h.1
  | _ =>
    intro name hName
    cases hName

/- The parts of a settled plain statement are settled. -/
theorem StmtForm.parts_settled
    {form : StmtForm}
    (hPlain : form.isPlain = true)
    (h : form.Settled Γ) : ∀ x ∈ form.parts, x.Settled Γ := by
  intro x hx
  cases form with
  | expr e =>
    rcases List.mem_singleton.mp hx with rfl
    exact h
  | «return» value => exact settled_of_settledOption h x hx
  | throw exception =>
    rcases List.mem_singleton.mp hx with rfl
    exact h
  | assert cond message =>
    rcases List.mem_cons.mp hx with rfl | hx
    · exact h.1
    · exact settled_of_settledOption h.2 x hx
  | superCall signature args =>
    exact settled_of_settledExprs h x hx
  | _ => cases hPlain

/- The body of each of some settled arms is settled. -/
theorem settledAll_of_settledArms
    {arms : List Arm}
    (h : settledArms Γ arms) :
    ∀ arm ∈ arms, settledAll Γ.forget arm.body := by
  induction arms with
  | nil => exact List.forall_mem_nil _
  | cons arm rest ih =>
    rcases arm with ⟨labels, body⟩
    intro a ha
    rcases List.mem_cons.mp ha with rfl | ha
    · exact h.1
    · exact ih h.2 a ha

/- The body of each of some settled handlers is settled. -/
theorem settledAll_of_settledCatches
    {catches : List Catch}
    (h : settledCatches Γ catches) :
    ∀ c ∈ catches, settledAll (Γ.plus c.param) c.body := by
  induction catches with
  | nil => exact List.forall_mem_nil _
  | cons c rest ih =>
    rcases c with ⟨param, ty, body, span⟩
    intro d hd
    rcases List.mem_cons.mp hd with rfl | hd
    · exact h.1
    · exact ih h.2 d hd

/- A settled operand has no probes. -/
theorem Operand.expr_settled
    {o : Operand}
    (h : o.Settled Γ) : o.expr.Settled Γ := by
  rcases o with ⟨⟨form, ty, span⟩, kind⟩
  unfold Operand.Settled at h
  split at h
  · rename_i hForm
    cases hForm
    trivial
  · rename_i hForm
    cases hForm
    trivial
  · exact h.elim

end Parts

end ExecTrace
