import ExecTrace.Proofs.Operands
import ExecTrace.Proofs.Preservation

/-
  Expressions over literals. An expression that is built from
  literals with operators, conditionals and switches, each of
  them on operands of types that it takes, always comes to a
  value of its type or throws. So it completes as before when it
  is instrumented, provided that every character is one code
  unit: a wider one is narrowed where its operand is bound.

  Main declarations:
    * `Test.literal`
    * `Calm` and `YieldsFor`
    * `calm_eval`
    * `call_literal`
    * `CompletesAlike` and `literal_instrument`
    * `literal_instrument_wide`
-/

namespace ExecTrace

open Run
open Instrument (Options)

------------------------------------------------------------
-- Literal Expressions
------------------------------------------------------------

/- Whether a literal is a value of its type. -/
def Literal.isNarrow : Literal → Bool
  | .char c => decide (c.toNat ≤ 0xFFFF)
  | _ => true

namespace Test

/- A statement that yields a value for a type. -/
def yieldsFor
    (ty : Ty)
    (s : Stmt) : Bool :=
  match s.form with
  | .yield value => value.ty.suits ty
  | _ => false

/- An expression over literals, given that its parts are such. -/
def literalExpr (e : Expr) : Bool :=
  match e.form with
  | .literal value => value.isNarrow && e.ty == value.ty
  | .unary op arg => op.takes arg.ty && e.ty == op.resultTy arg.ty
  | .binary op lhs rhs =>
    op.takes lhs.ty rhs.ty && e.ty == op.resultTy lhs.ty rhs.ty
  | .conditional cond onTrue onFalse =>
    cond.ty == .bool && onTrue.ty.suits e.ty && onFalse.ty.suits e.ty
  | .switch _ arms =>
    arms.all fun arm =>
      !arm.body.isEmpty && arm.body.all (yieldsFor e.ty)
  | _ => false

/- A statement that may occur in an expression over literals. -/
def literalStmt (s : Stmt) : Bool :=
  match s.form with
  | .yield _ => true
  | _ => false

/-
  The test of expressions over literals: literals, operators,
  conditionals and switches whose arms yield at once. Operands
  and branches have types that fit, and every character is one
  code unit.
-/
def literal : Test where
  expr := literalExpr
  stmt := literalStmt

/- Literals are plain source expressions. -/
theorem literal_weaker : Test.literal.Weaker Test.plainSource where
  expr := by
    rintro ⟨form, ty, span⟩ he
    cases form <;> first | rfl | cases he
  stmt := by
    rintro ⟨form, span⟩ hs
    cases form <;> first | rfl | cases hs

end Test

/- A literal that is narrow is such a value of its type. -/
theorem Val.isOf_literal
    {l : Literal}
    (h : l.isNarrow = true) :
    (Val.ofLiteral l).isOf l.ty = true := by
  cases l with
  | char c => exact h
  | _ => rfl

------------------------------------------------------------
-- Runs That Complete
------------------------------------------------------------

section Calm

variable {α β : Type}
variable {enough enough' : Prop}
variable {P : α → Prop}
variable {Q : β → Prop}

/-
  An end with a result of which something holds, with an
  exception, or for want of fuel if there was not enough of it.
-/
def CalmEnd
    (enough : Prop)
    (Q : β → Prop) : Except Interrupt β → Prop
  | .ok b => Q b
  | .error (.throw _) => True
  | .error .outOfFuel => ¬enough
  | .error _ => False

/- Whether a run has only such ends, on any machine. -/
def Calm
    (enough : Prop)
    (Q : β → Prop)
    (x : Run β) : Prop :=
  ∀ m, CalmEnd enough Q (x m).1

namespace Calm

/- A result of which something holds. -/
theorem pure
    {b : β}
    (h : Q b) : Calm enough Q (pure b) :=
  fun _ => h

/- Want of fuel is no matter if there was not enough of it. -/
theorem spent
    (h : ¬enough) : Calm enough Q (throw .outOfFuel) :=
  fun _ => h

/- A sequence of which both parts complete. -/
theorem bind
    {x : Run α}
    {f : α → Run β}
    (hx : Calm enough P x)
    (hf : ∀ a, P a → Calm enough Q (f a)) :
    Calm enough Q (x >>= f) := by
  intro m
  have hFirst := hx m
  rw [bind_apply]
  rcases hEnd : x m with ⟨r, m'⟩
  rw [hEnd] at hFirst
  cases r with
  | ok a => exact hf a hFirst m'
  | error c => cases c <;> exact hFirst

/- A look at the machine. -/
theorem look
    {f : Machine → Run β}
    (h : ∀ m, Calm enough Q (f m)) :
    Calm enough Q ((get : Run Machine) >>= f) :=
  fun m => h m m

/- A run with more results, or with less fuel. -/
theorem weaken
    {P : β → Prop}
    {x : Run β}
    (h : Calm enough' P x)
    (hEnough : enough → enough')
    (hResult : ∀ b, P b → Q b) : Calm enough Q x := by
  intro m
  have hEnd := h m
  revert hEnd
  generalize (x m).1 = r
  intro hEnd
  cases r with
  | ok b => exact hResult b hEnd
  | error c =>
    cases c with
    | outOfFuel => exact fun hFuel => hEnd (hEnough hFuel)
    | _ => exact hEnd

/- What is watched is not stopped where nothing is wrong. -/
theorem watch
    {w : Observer}
    {x : Moment}
    (h : ∀ m, w x m = none)
    {Q : Unit → Prop}
    (hQ : Q ()) : Calm enough Q (watch w x) := by
  intro m
  unfold ExecTrace.watch
  rw [h m]
  exact hQ

/- A scope of its own. -/
theorem inScope
    {x : Run β}
    (h : Calm enough Q x) : Calm enough Q (inScope x) :=
  fun _ => h _

/- Other local variables. -/
theorem withLocals
    {x : Run β}
    (locals : Locals)
    (h : Calm enough Q x) : Calm enough Q (withLocals locals x) :=
  fun _ => h _

/- A frame. -/
theorem inFrame
    {x : Run β}
    (frame : Frame)
    (h : Calm enough Q x) : Calm enough Q (inFrame frame x) := by
  intro m
  have hEnd := h { m with frames := frame :: m.frames }
  unfold ExecTrace.inFrame
  rcases hBody : x { m with frames := frame :: m.frames } with ⟨r, m'⟩
  rw [hBody] at hEnd
  cases r with
  | ok b => exact hEnd
  | error c => cases c <;> exact hEnd

/- A step of the machine that gives something. -/
theorem step
    {x : Run β}
    (h : ∀ m, ∃ b m', x m = (.ok b, m')) :
    Calm enough (fun _ => True) x := by
  intro m
  rcases h m with ⟨b, m', hx⟩
  rw [hx]
  trivial

/- A new exception is created. -/
theorem exception
    (p : Program)
    (cls : String)
    (message : Option String) :
    Calm enough (fun _ => True) (Run.exception p cls message) := by
  have hFresh : Calm enough (fun _ => True) freshId :=
    step fun _ => ⟨_, _, rfl⟩
  have hAllocate : Calm enough (fun _ => True) (allocate p cls) :=
    hFresh.bind fun _ _ => step fun _ => ⟨_, _, rfl⟩
  refine hAllocate.bind fun e _ => ?_
  cases e with
  | obj a =>
    cases message with
    | some text => exact step fun _ => ⟨_, _, rfl⟩
    | none => exact pure trivial
  | _ => exact pure trivial

/- A new exception that is thrown. -/
theorem raise
    (p : Program)
    (cls message : String) :
    Calm enough Q (Run.raise p cls message) :=
  bind (exception p cls (some message)) fun _ _ _ => trivial

end Calm

------------------------------------------------------------
-- Operators that Run
------------------------------------------------------------

section Operators

variable {p : Program}
variable {i : Invoker}
variable {a b ty : Ty}
variable {l r v : Val}
variable {op : BinaryOp}

/- An operator that has a result unless it divides by zero. -/
theorem calm_ofOperator
    {result : Except OperatorError Val}
    (h : (∃ u, result = .ok u ∧ u.isOf ty = true) ∨
      result = .error (.number .divideByZero)) :
    Calm enough (fun v => v.isOf ty = true)
      (ofOperator p result) := by
  rcases h with ⟨u, rfl, hu⟩ | rfl
  · exact .pure hu
  · exact .look fun _ => .raise _ _ _

/- The text of a value that is no object. -/
theorem calm_textOf
    (via : String)
    (h : v.isOf ty = true) :
    Calm enough (fun _ => True) (Call.textOf p i via v) := by
  refine .look fun m => ?_
  cases v with
  | obj => cases h
  | _ => exact .pure trivial

/- An operator on operands that it takes. -/
theorem calm_applyBinary
    (hStrict : op.isShortCircuit = false)
    (hTakes : op.takes a b = true)
    (hl : l.isOf a = true)
    (hr : r.isOf b = true) :
    Calm enough (fun v => v.isOf (op.resultTy a b) = true)
      (applyBinary p i op l r (op.resultTy a b)) := by
  unfold applyBinary
  split
  next hText =>
    rw [hText.2]
    exact (calm_textOf _ hl).bind fun _ _ =>
      (calm_textOf _ hr).bind fun _ _ => .pure rfl
  next hText =>
    exact calm_ofOperator
      (Val.binary_of_isOf hStrict hTakes hText hl hr)

/- A condition of the boolean type. -/
theorem calm_truth
    {evaluate : Expr → Run Val}
    {e : Expr}
    (hTy : e.ty = .bool)
    (h : Calm enough (fun v => v.isOf e.ty = true) (evaluate e)) :
    Calm enough (fun _ => True) (truth evaluate e) := by
  refine h.bind fun v hv => ?_
  rw [hTy] at hv
  rcases Val.bool_of_isOf hv with ⟨c, rfl⟩
  exact .pure trivial

/- Two conditions of which both hold. -/
theorem calm_conjunction
    {x y : Run Bool}
    (hx : Calm enough (fun _ => True) x)
    (hy : Calm enough (fun _ => True) y) :
    Calm enough (fun v => v.isOf .bool = true)
      (conjunction x y) := by
  refine hx.bind fun c _ => ?_
  cases c with
  | true => exact hy.bind fun _ _ => .pure rfl
  | false => exact .pure rfl

/- Two conditions of which one holds. -/
theorem calm_disjunction
    {x y : Run Bool}
    (hx : Calm enough (fun _ => True) x)
    (hy : Calm enough (fun _ => True) y) :
    Calm enough (fun v => v.isOf .bool = true)
      (disjunction x y) := by
  refine hx.bind fun c _ => ?_
  cases c with
  | true => exact .pure rfl
  | false => exact hy.bind fun _ _ => .pure rfl

------------------------------------------------------------
-- Switches
------------------------------------------------------------

/- A jump that yields a value for a type. -/
def YieldsFor (ty : Ty) : Flow → Prop
  | .yield v =>
    ∃ given : Ty, given.suits ty = true ∧ v.isOf given = true
  | _ => False

/- The arms that a value selects are among all arms. -/
theorem calm_selectArm
    (selector : Val)
    (arms : List Arm) :
    Calm enough (fun selected => ∀ arm ∈ selected, arm ∈ arms)
      (selectArm p selector arms) := by
  unfold selectArm
  split
  · exact .raise _ _ _
  · dsimp only
    split
    · exact .pure fun _ h => (List.dropWhile_suffix _).subset h
    · exact .pure fun _ h => (List.dropWhile_suffix _).subset h

/- A switch whose arms yield at once. -/
theorem calm_switchValue
    {execute : Stmt → Run Flow}
    {selector : Val}
    {arms : List Arm}
    (h : ∀ arm ∈ arms, ∃ s rest, arm.body = s :: rest ∧
      Calm enough (YieldsFor ty) (execute s)) :
    Calm enough
      (fun v => ∃ given : Ty, given.suits ty = true ∧
        v.isOf given = true)
      (switchValue p execute selector arms) := by
  refine (calm_selectArm selector arms).bind fun selected hAmong => ?_
  cases selected with
  | nil => exact .look fun _ => .raise _ _ _
  | cons arm others =>
    rcases h arm (hAmong arm List.mem_cons_self) with
      ⟨s, rest, hBody, hFirst⟩
    rw [List.isEmpty_cons, if_neg Bool.false_ne_true]
    refine .inScope ?_
    unfold yieldFromArms
    rw [hBody]
    have hRun : Calm enough (YieldsFor ty)
        (runAll execute (s :: rest)) := by
      refine hFirst.bind fun flow hFlow => ?_
      cases flow with
      | yield v => exact .pure hFlow
      | _ => cases hFlow
    refine hRun.bind fun flow hFlow => ?_
    cases flow with
    | yield v => exact .pure hFlow
    | _ => cases hFlow

end Operators

------------------------------------------------------------
-- Literal Expressions Complete
------------------------------------------------------------

section Evaluation

variable {w : Observer}
variable {p : Program}
variable {fuel : Nat}

/- An observer that stops at no value of its type. -/
def Observer.Lenient (w : Observer) : Prop :=
  ∀ e v m, Val.fits e.ty v = true → w (.value e v) m = none

/- Whether all expressions over literals are evaluated. -/
def CalmExprs
    (w : Observer)
    (p : Program)
    (fuel : Nat) : Prop :=
  ∀ e : Expr, e.passes Test.literal = true →
    Calm (sizeOf e ≤ fuel) (fun v => v.isOf e.ty = true)
      (eval w p fuel e)

/- Whether all statements that yield literals are run. -/
def CalmYields
    (w : Observer)
    (p : Program)
    (fuel : Nat) : Prop :=
  ∀ (s : Stmt) (ty : Ty), s.passes Test.literal = true →
    Test.yieldsFor ty s = true →
      Calm (sizeOf s ≤ fuel) (YieldsFor ty) (exec w p fuel s)

/- A part of a larger tree is run with less fuel. -/
theorem Calm.part
    {part whole : Nat}
    {x : Run β}
    (h : Calm (part ≤ fuel) Q x)
    (hSize : part < whole) : Calm (whole ≤ fuel + 1) Q x :=
  h.weaken (fun hFuel => by omega) fun _ => id

/- A statement that yields an expression over literals. -/
theorem calmYields_succ
    (h : CalmExprs w p fuel) : CalmYields w p (fuel + 1) := by
  rintro ⟨form, span⟩ ty hLiteral hYields
  simp only [Stmt.passes, Bool.and_eq_true] at hLiteral
  cases form with
  | yield value =>
    have hSize : sizeOf value
        < sizeOf (Stmt.mk (.yield value) span) := by
      simp only [Stmt.mk.sizeOf_spec, StmtForm.yield.sizeOf_spec]
      omega
    refine ((h value hLiteral.2).part hSize).bind fun v hv => ?_
    exact .pure ⟨value.ty, hYields, hv⟩
  | _ => cases hYields

/- A form of expressions over literals. -/
theorem calm_evalForm
    (hExprs : CalmExprs w p fuel)
    (hYields : CalmYields w p fuel)
    (i : Invoker)
    (e : Expr)
    (he : e.passes Test.literal = true) :
    Calm (sizeOf e ≤ fuel + 1) (fun v => v.isOf e.ty = true)
      (Runner.evalForm w p ⟨eval w p fuel, exec w p fuel, i⟩ e) := by
  rcases e with ⟨form, ty, span⟩
  simp only [Expr.passes, Bool.and_eq_true] at he
  rcases he with ⟨hHere, hParts⟩
  have hForm : sizeOf form < sizeOf (Expr.mk form ty span) := by
    simp only [Expr.mk.sizeOf_spec]
    omega
  have hPart : ∀ part : Expr, part.passes Test.literal = true →
      sizeOf part < sizeOf form →
        Calm (sizeOf (Expr.mk form ty span) ≤ fuel + 1)
          (fun v => v.isOf part.ty = true) (eval w p fuel part) :=
    fun part hPart hSize => (hExprs part hPart).part (by omega)
  cases form with
  | literal value =>
    rcases Bool.and_eq_true_iff.mp hHere with ⟨hNarrow, hTy⟩
    cases beq_iff_eq.mp hTy
    exact .pure (Val.isOf_literal hNarrow)
  | unary op arg =>
    rcases Bool.and_eq_true_iff.mp hHere with ⟨hTakes, hTy⟩
    cases beq_iff_eq.mp hTy
    have hSize : sizeOf arg < sizeOf (ExprForm.unary op arg) := by
      simp only [ExprForm.unary.sizeOf_spec]
      omega
    refine (hPart arg hParts hSize).bind fun v hv => ?_
    exact calm_ofOperator (.inl (Val.unary_of_isOf hTakes hv))
  | binary op lhs rhs =>
    rcases Bool.and_eq_true_iff.mp hHere with ⟨hTakes, hTy⟩
    cases beq_iff_eq.mp hTy
    simp only [ExprForm.passes, Bool.and_eq_true] at hParts
    have hSize : sizeOf lhs < sizeOf (ExprForm.binary op lhs rhs) ∧
        sizeOf rhs < sizeOf (ExprForm.binary op lhs rhs) := by
      simp only [ExprForm.binary.sizeOf_spec]
      omega
    have hLeft := hPart lhs hParts.1 hSize.1
    have hRight := hPart rhs hParts.2 hSize.2
    cases hStrict : op.isShortCircuit with
    | true =>
      have hBools : lhs.ty = .bool ∧ rhs.ty = .bool := by
        cases op <;>
          first
          | (cases hStrict; done)
          | simpa [BinaryOp.takes] using hTakes
      have hl := calm_truth hBools.1 hLeft
      have hr := calm_truth hBools.2 hRight
      cases op with
      | and => exact calm_conjunction hl hr
      | or => exact calm_disjunction hl hr
      | _ => cases hStrict
    | false =>
      have hApply : Calm
          (sizeOf (Expr.mk (.binary op lhs rhs)
            (op.resultTy lhs.ty rhs.ty) span) ≤ fuel + 1)
          (fun v => v.isOf (op.resultTy lhs.ty rhs.ty) = true)
          (do
            let left ← eval w p fuel lhs
            let right ← eval w p fuel rhs
            applyBinary p i op left right
              (op.resultTy lhs.ty rhs.ty)) :=
        hLeft.bind fun l hl => hRight.bind fun r hr =>
          calm_applyBinary hStrict hTakes hl hr
      cases op with
      | and => cases hStrict
      | or => cases hStrict
      | _ => exact hApply
  | conditional cond onTrue onFalse =>
    simp only [ExprForm.passes, Bool.and_eq_true] at hParts
    have hHere : (cond.ty == .bool && onTrue.ty.suits ty
        && onFalse.ty.suits ty) = true := hHere
    simp only [Bool.and_eq_true, beq_iff_eq] at hHere
    rcases hHere with ⟨⟨hCond, hTrue⟩, hFalse⟩
    have hSize : ∀ part : Expr, part = cond ∨ part = onTrue
        ∨ part = onFalse → sizeOf part
          < sizeOf (ExprForm.conditional cond onTrue onFalse) := by
      simp only [ExprForm.conditional.sizeOf_spec]
      rintro _ (rfl | rfl | rfl) <;> omega
    have hBranch : ∀ branch : Expr, branch = onTrue
        ∨ branch = onFalse → branch.passes Test.literal = true →
          branch.ty.suits ty = true →
          Calm (sizeOf (Expr.mk (.conditional cond onTrue onFalse)
              ty span) ≤ fuel + 1)
            (fun v => v.isOf ty = true)
            (eval w p fuel branch >>= fun v => pure (v.convert ty)) :=
      fun branch hAmong hPasses hSuits =>
        (hPart branch hPasses (hSize branch (.inr hAmong))).bind
          fun v hv => .pure (Val.isOf_convert hSuits hv)
    have hTruth := calm_truth hCond
      (hPart cond hParts.1.1 (hSize cond (.inl rfl)))
    refine hTruth.bind fun c _ => ?_
    cases c with
    | true => exact hBranch onTrue (.inl rfl) hParts.1.2 hTrue
    | false => exact hBranch onFalse (.inr rfl) hParts.2 hFalse
  | switch selector arms =>
    simp only [ExprForm.passes, Bool.and_eq_true] at hParts
    have hSize : sizeOf selector
        < sizeOf (ExprForm.switch selector arms) := by
      simp only [ExprForm.switch.sizeOf_spec]
      omega
    refine (hPart selector hParts.1 hSize).bind fun v _ => ?_
    refine Calm.bind
      (P := fun u : Val => ∃ given : Ty, given.suits ty = true ∧
        u.isOf given = true)
      (calm_switchValue fun arm hArm => ?_) fun u hu => ?_
    · have hArms : (arms.all fun arm => !arm.body.isEmpty
          && arm.body.all (Test.yieldsFor ty)) = true := hHere
      have hBody := List.all_eq_true.mp hArms arm hArm
      have hStmts := passes_of_passArms hParts.2 arm hArm
      have hArmSize := List.sizeOf_lt_of_mem hArm
      rcases arm with ⟨labels, _ | ⟨s, rest⟩⟩
      · cases hBody
      · simp only [List.all_cons, Bool.and_eq_true] at hBody
        simp only [passStmts, Bool.and_eq_true] at hStmts
        have hYield := hYields s ty hStmts.1 hBody.2.1
        refine ⟨s, rest, rfl, hYield.part ?_⟩
        simp only [ExprForm.switch.sizeOf_spec, Arm.mk.sizeOf_spec,
          List.cons.sizeOf_spec] at hForm hArmSize ⊢
        omega
    · rcases hu with ⟨given, hSuits, hOf⟩
      exact .pure (Val.isOf_convert hSuits hOf)
  | _ => cases hHere

/-
  By induction on the fuel: as much as there are parts suffices,
  and an observer that stops at no value of its type stops at
  none of theirs.
-/
theorem calm_eval
    (hLenient : w.Lenient)
    (fuel : Nat) :
    CalmExprs w p fuel ∧ CalmYields w p fuel := by
  induction fuel with
  | zero =>
    constructor
    · rintro ⟨form, ty, span⟩ _
      exact .spent (by simp)
    · rintro ⟨form, span⟩ ty _ _
      exact .spent (by simp)
  | succ fuel ih =>
    refine ⟨fun e he => ?_, calmYields_succ ih.1⟩
    refine (calm_evalForm ih.1 ih.2 _ e he).bind fun v hv => ?_
    have hWatch : Calm (sizeOf e ≤ fuel + 1) (fun _ => True)
        (watch w (.value e v)) :=
      .watch (hLenient e v · (Val.fits_of_isOf hv)) trivial
    exact hWatch.bind fun _ _ => .pure hv

/- A statement that returns an expression over literals. -/
theorem calm_return
    {e : Expr}
    (hLenient : w.Lenient)
    (hLiteral : e.passes Test.literal = true)
    (span : Span)
    (fuel : Nat) :
    Calm (sizeOf e < fuel) (fun flow => ∃ v, flow = .return v)
      (exec w p fuel ⟨.return (some e), span⟩) := by
  cases fuel with
  | zero => exact .spent (Nat.not_lt_zero _)
  | succ fuel =>
    have hEval := (calm_eval (p := p) hLenient fuel).1 e hLiteral
    have hLess : Calm (sizeOf e < fuel + 1)
        (fun v => v.isOf e.ty = true) (eval w p fuel e) :=
      hEval.weaken Nat.le_of_lt_succ fun _ => id
    exact hLess.bind fun v _ => .look fun _ => .pure ⟨_, rfl⟩

end Evaluation

------------------------------------------------------------
-- Methods that Return Literals
------------------------------------------------------------

/- A static method that returns an expression. -/
def MethodDef.returning
    (name : String)
    (ret : Ty)
    (e : Expr) : MethodDef :=
  { name := name
    kind := .static
    ret := ret
    body := some [⟨.return (some e), .unknown⟩] }

/- A program of one class with one method, which is static. -/
def Program.returning
    (cls name : String)
    (ret : Ty)
    (e : Expr) : Program :=
  ⟨[{ name := cls, methods := [.returning name ret e] }]⟩

section Requests

variable {w : Observer}
variable {p : Program}
variable {e : Expr}

/- A method that returns an expression over literals. -/
theorem calm_invoke
    (hLenient : w.Lenient)
    (hLiteral : e.passes Test.literal = true)
    (owner : ClassDef)
    (name : String)
    (ret : Ty)
    (fuel : Nat) :
    Calm (sizeOf e + 1 < fuel) (fun _ => True)
      (invoke w p fuel owner (.returning name ret e) none []) := by
  cases fuel with
  | zero => exact .spent (Nat.not_lt_zero _)
  | succ fuel =>
    have hBody : Calm (sizeOf e + 1 < fuel + 1)
        (fun flow => ∃ v, flow = .return v)
        (runAll (exec w p fuel) [⟨.return (some e), .unknown⟩]) := by
      have hReturn := (calm_return (p := p) hLenient hLiteral
        .unknown fuel).weaken Nat.lt_of_succ_lt_succ fun _ => id
      refine hReturn.bind fun flow hFlow => ?_
      rcases hFlow with ⟨v, rfl⟩
      exact .pure ⟨v, rfl⟩
    refine .look fun m => ?_
    have hArity : ¬([] : List Val).length
        ≠ (MethodDef.returning name ret e).arity := nofun
    rw [if_neg hArity]
    split
    · exact .raise _ _ _
    · refine Calm.bind (P := fun flow => ∃ v : Val, flow = .return v)
        (.inFrame _ (.withLocals _ ?_)) ?_
      · refine hBody.bind fun flow hFlow => ?_
        rcases hFlow with ⟨v, rfl⟩
        exact .pure ⟨v, rfl⟩
      · rintro flow ⟨v, rfl⟩
        exact .pure trivial

/- A call from the host of a method that returns such a one. -/
theorem calm_request
    (hLenient : w.Lenient)
    (hLiteral : e.passes Test.literal = true)
    (cls name : String)
    (ret : Ty)
    (fuel : Nat) :
    Calm (sizeOf e + 1 < fuel) (fun _ => True)
      (Machine.request w (.returning cls name ret e) fuel cls name
        []) := by
  refine .inFrame _ ?_
  have hFound : (Program.returning cls name ret e).findMethod? cls
      name 0 = some (⟨cls, none, [], [.returning name ret e],
        .unknown⟩, .returning name ret e) := by
    simp [Program.returning, Program.findMethod?, Program.lineage,
      Program.lineageWithin, Program.class?, Program.methodIn?,
      ClassDef.method?, MethodDef.returning, MethodDef.arity]
  unfold Call.onClass
  rw [List.length_nil, hFound]
  exact calm_invoke hLenient hLiteral _ name ret fuel

end Requests

end Calm

------------------------------------------------------------
-- Instrumented Literals
------------------------------------------------------------

/-
  Whether a call completes in two programs, given enough fuel,
  with one value or one exception, and leaves the same objects,
  static fields and output behind.
-/
def CompletesAlike
    (p q : Program)
    (c : HostCall)
    (m : Machine) : Prop :=
  ∃ (e : Completion) (enough : Nat), ∀ fuel, enough ≤ fuel →
    (Machine.call p fuel c.cls c.method c.args m).1 = .ok e ∧
      (Machine.call q fuel c.cls c.method c.args m).1 = .ok e ∧
      (Machine.call p fuel c.cls c.method c.args m).2.SameState
        (Machine.call q fuel c.cls c.method c.args m).2

/- The observer of types is lenient. -/
theorem Observer.lenient_typed : Observer.typed.Lenient :=
  fun _ _ _ h => if_pos h

/- The observer that sees nothing is lenient. -/
theorem Observer.lenient_silent : Observer.silent.Lenient :=
  fun _ _ _ _ => rfl

section Instrumented

variable {cls name : String}
variable {ret : Ty}
variable {e : Expr}
variable {o : Options}
variable {q : Program}
variable {m : Machine}

/- The program passes the test of plain source programs. -/
theorem passes_returning
    (hLiteral : e.passes Test.literal = true) :
    (Program.returning cls name ret e).passes Test.plainSource
      = true := by
  have hSource := e.passes_weaker Test.literal_weaker hLiteral
  have hReturn : Test.plainSource.stmt
      ⟨.return (some e), .unknown⟩ = true := rfl
  simp [Program.returning, Program.passes, MethodDef.returning,
    MethodDef.passes, MethodDef.visibleParams, passStmts,
    Stmt.passes, StmtForm.passes, passOption, hSource, hReturn]

/- In the typed run of such a program no value stops it. -/
theorem typed_literal
    (hLiteral : e.passes Test.literal = true)
    (fuel : Nat)
    (why : String) :
    (Machine.request .typed (.returning cls name ret e) fuel cls
      name [] m).1 ≠ .error (.stopped why) := by
  have hEnd := calm_request Observer.lenient_typed hLiteral cls name
    ret fuel m
  intro hStopped
  rw [hStopped] at hEnd
  exact hEnd

/- With enough fuel the call completes. -/
theorem call_literal
    (hLiteral : e.passes Test.literal = true)
    (cls name : String)
    (ret : Ty)
    (m : Machine)
    {fuel : Nat}
    (hFuel : sizeOf e + 1 < fuel) :
    ∃ c, (Machine.call (.returning cls name ret e) fuel cls name []
      m).1 = .ok c := by
  have hEnd := calm_request Observer.lenient_silent hLiteral cls name
    ret fuel m
  unfold Machine.call
  rcases hRun : Machine.request .silent (.returning cls name ret e)
    fuel cls name [] m with ⟨r, n⟩
  rw [hRun] at hEnd
  cases r with
  | ok v => exact ⟨_, rfl⟩
  | error cut =>
    cases cut with
    | throw v => exact ⟨_, rfl⟩
    | outOfFuel => exact absurd hFuel hEnd
    | _ => cases hEnd

/- Ends that are alike are the same if one of them completes. -/
theorem EndsAlike.completes
    {x y : Except Broken Completion}
    {c : Completion}
    (h : EndsAlike x y)
    (hx : x = .ok c) : y = .ok c := by
  cases h with
  | completed => exact hx
  | fault => cases hx

/-
  Instrumentation keeps what an expression over literals comes
  to. With enough fuel the method that returns it completes, in
  the instrumented program exactly as in the plain one: with the
  same value, or with the same exception.
-/
theorem literal_instrument
    (hLiteral : e.passes Test.literal = true)
    (hInstrument : instrument o (.returning cls name ret e) = .ok q)
    (maxDepth : Nat) :
    CompletesAlike (.returning cls name ret e) q ⟨cls, name, []⟩
      (.fresh maxDepth) := by
  have hSource : (Program.returning cls name ret e).passes
      Test.plainSource = true := passes_returning hLiteral
  have hAlike := fun first {fuel fuel'}
      (hFuel : Enough (.lacking first) fuel fuel') =>
    call_instrument (c := ⟨cls, name, []⟩) hSource hInstrument hFuel
      (preserved_fresh maxDepth) (typed_literal hLiteral fuel)
  have hLeast : sizeOf e + 1 < sizeOf e + 2 := Nat.lt_succ_self _
  rcases call_literal hLiteral cls name ret (.fresh maxDepth) hLeast
    with ⟨c, hc⟩
  refine ⟨c, 8 * (sizeOf e + 2), fun fuel hFuel => ?_⟩
  -- The instrumented run has enough fuel for the least plain one.
  have hInstrumented : (Machine.call q fuel cls name []
      (.fresh maxDepth)).1 = .ok c := by
    rcases hAlike true (.inl ⟨rfl, hFuel⟩) with
      ⟨hEnds, _⟩ | ⟨_, hShort⟩
    · exact hEnds.completes hc
    · have hSpent := hShort.resolve_left Bool.true_eq_false.mp
      exact absurd (hc.symm.trans hSpent) nofun
  rcases hAlike false (.inr ⟨rfl, Nat.le_refl fuel⟩) with
    ⟨hEnds, hState⟩ | ⟨hShort, _⟩
  · exact ⟨hEnds.symm.completes hInstrumented, hInstrumented,
      hState.sameState⟩
  · have hSpent := hShort.resolve_left Bool.false_ne_true
    exact absurd (hInstrumented.symm.trans hSpent) nofun

end Instrumented

/- A switch over literals: on a character, yielding strings. -/
def letterSwitch : Expr :=
  ⟨.switch
    ⟨.binary .add ⟨.literal (.char 'a'), .char, .unknown⟩
      ⟨.literal (.int 1), .int, .unknown⟩, .int, .unknown⟩
    [⟨[.int 98],
      [⟨.yield ⟨.binary .add ⟨.literal (.str "b"), .str, .unknown⟩
        ⟨.literal (.char 'c'), .char, .unknown⟩, .str, .unknown⟩,
        .unknown⟩]⟩,
    ⟨[],
      [⟨.yield ⟨.literal .null, .null, .unknown⟩, .unknown⟩]⟩],
    .str, .unknown⟩

/- The switch comes to the same in the instrumented program. -/
theorem literal_instrument_switch :
    letterSwitch.passes Test.literal = true ∧
      ∃ q, instrument {} (.returning "Main" "main" .str letterSwitch)
          = .ok q ∧
        CompletesAlike (.returning "Main" "main" .str letterSwitch) q
          ⟨"Main", "main", []⟩ (.fresh 64) := by
  have hLiteral : letterSwitch.passes Test.literal = true := by decide
  have hInstrument : ∃ q, instrument {}
      (.returning "Main" "main" .str letterSwitch) = .ok q := ⟨_, rfl⟩
  rcases hInstrument with ⟨q, hq⟩
  exact ⟨hLiteral, q, hq, literal_instrument hLiteral hq 64⟩

/- A character of two code units, compared with its code. -/
def wideComparison : Expr :=
  ⟨.binary .eq ⟨.literal (.char '😀'), .char, .unknown⟩
    ⟨.literal (.int 128512), .int, .unknown⟩, .bool, .unknown⟩

/-
  A character of two code units is narrowed where the operand is
  bound: it equals its code in the plain run only.
-/
theorem literal_instrument_wide :
    ∃ q, instrument {}
        (.returning "Main" "main" .bool wideComparison) = .ok q ∧
      (Machine.call
        (.returning "Main" "main" .bool wideComparison) 16 "Main"
        "main" [] (.fresh 64)).1 = .ok (.returned (.bool true)) ∧
      (Machine.call q 16 "Main" "main" [] (.fresh 64)).1
        = .ok (.returned (.bool false)) := by
  refine ⟨_, rfl, rfl, ?_⟩
  decide +kernel

end ExecTrace
