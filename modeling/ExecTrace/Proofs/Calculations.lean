import ExecTrace.Proofs.Recording
import ExecTrace.Proofs.Splicing.Parts

/-
  What operators compute, as a trace tells it. An action that
  tells the result of an operator is a calculation with its
  operands. A calculation with scalars holds if the operator
  gives the result, where all that is no number is one value. A
  teller tells calculations that hold, as long as expressions of
  primitive types have values of their types.

  Main declarations:
    * `Calculation` and `Calculation.holds`
    * `Action.isTruthful`
    * `Observer.Typing`
    * `Splice.fair_truthful`
    * `isTruthful_of_captured`
-/

namespace ExecTrace

open Run

------------------------------------------------------------
-- Calculations
------------------------------------------------------------

/- An operator with its operands and what comes of them. -/
inductive Calculation (α : Type) where
  | unary (operator : String) (operand result : α)
  | binary
      (operator : String) (lhs : α) (rhs : Option α) (result : α)
  | compound (operator : String) (old rhs new : α)
  | step (operator : String) (old new result : α)

/- The calculation that an action tells of, its place aside. -/
def Action.calculation?
    {κ α : Type} : Action κ α → Option (Calculation α)
  | .operation (.unary operator operand result) =>
    some (.unary operator operand result)
  | .operation (.compoundAssign _ operator old rhs new) =>
    some (.compound operator old rhs new)
  | .operation (.incDec _ operator old new result) =>
    some (.step operator old new result)
  | .binary operator lhs rhs result =>
    some (.binary operator lhs rhs result)
  | _ => none

/- Whether two scalars have the same bits or are no numbers. -/
def Scalar.same (a b : Scalar) : Bool :=
  a.canonical == b.canonical

/- A scalar is the same as itself. -/
@[simp]
theorem Scalar.same_self (s : Scalar) : s.same s = true := by
  simp [same]

/- Whether the result of an operator is a scalar. -/
def Calculation.gives
    (result : Except OperatorError Val)
    (s : Scalar) : Bool :=
  match result with
  | .ok (.scalar t) => t.same s
  | _ => false

/- Whether the result of an operator is a scalar of a type. -/
def Calculation.givesAs
    (ty : Ty)
    (result : Except OperatorError Val)
    (s : Scalar) : Bool :=
  match result with
  | .ok (.scalar t) => (t.convert ty).same s
  | _ => false

/- Whether an operator is arithmetic, bitwise or a shift. -/
def BinaryOp.combines (op : BinaryOp) : Bool :=
  !op.isComparison && !op.isShortCircuit

/- The operator of a compound assignment. -/
def BinaryOp.ofCompound? (s : String) : Option BinaryOp :=
  all.find? fun op => op.symbol ++ "=" == s

namespace StepOp

/- Every operator, in order. -/
def all : List StepOp :=
  [.preInc, .preDec, .postInc, .postDec]

/- The operator with a symbol and a place. -/
def ofText? (s : String) : Option StepOp :=
  all.find? fun op => op.describe == s

/- The operator that gives the next value. -/
def binary (op : StepOp) : BinaryOp :=
  if op.isIncrement then .add else .sub

end StepOp

section Symbols

/- The symbol of an operator tells which one it is. -/
theorem UnaryOp.ofSymbol?_symbol (op : UnaryOp) :
    ofSymbol? op.symbol = some op := by
  cases op <;> decide

/- The symbol of an operator tells which one it is. -/
theorem BinaryOp.ofSymbol?_symbol (op : BinaryOp) :
    ofSymbol? op.symbol = some op := by
  cases op <;> decide

/- The symbol of a compound assignment tells the operator. -/
theorem BinaryOp.ofCompound?_symbol (op : BinaryOp) :
    ofCompound? (op.symbol ++ "=") = some op := by
  cases op <;> decide

/- The text of a step tells which one it is. -/
theorem StepOp.ofText?_describe (op : StepOp) :
    ofText? op.describe = some op := by
  cases op <;> decide

end Symbols

namespace Calculation

/- Whether the result of a calculation is what comes of it. -/
def holds : Calculation Scalar → Bool
  | .unary operator operand result =>
    match UnaryOp.ofSymbol? operator with
    | some op => gives (Val.unary op (.scalar operand)) result
    | none => false
  | .binary operator lhs rhs result =>
    match BinaryOp.ofSymbol? operator with
    | some op =>
      if op.isShortCircuit then
        match rhs with
        | none =>
          Teller.decided op (.scalar lhs) && result.same lhs
        | some rhs =>
          !Teller.decided op (.scalar lhs) && result.same rhs
      else
        match rhs with
        | none => false
        | some rhs =>
          gives (Val.binary op (.scalar lhs) (.scalar rhs)) result
    | none => false
  | .compound operator old rhs new =>
    match BinaryOp.ofCompound? operator with
    | some op =>
      !op.combines ||
        givesAs (Heap.scalarTy old)
          (Val.binary op (.scalar old) (.scalar rhs)) new
    | none => false
  | .step operator old new result =>
    match StepOp.ofText? operator with
    | some op =>
      givesAs (Heap.scalarTy old)
          (Val.binary op.binary (.scalar old) (.int 1)) new
        && result.same (if op.isPrefix then new else old)
    | none => false

variable {α β : Type}

/- A calculation with scalars, if all its values are scalars. -/
def scalars?
    (f : α → Option Scalar) : Calculation α → Option (Calculation Scalar)
  | .unary operator operand result => do
    pure (.unary operator (← f operand) (← f result))
  | .binary operator lhs none result => do
    pure (.binary operator (← f lhs) none (← f result))
  | .binary operator lhs (some rhs) result => do
    pure (.binary operator (← f lhs) (some (← f rhs)) (← f result))
  | .compound operator old rhs new => do
    pure (.compound operator (← f old) (← f rhs) (← f new))
  | .step operator old new result => do
    pure (.step operator (← f old) (← f new) (← f result))

/- Two calculations with one operator and related values. -/
inductive Related
    (R : α → β → Prop) : Calculation α → Calculation β → Prop where
  | unary
      {operator : String}
      {a : α} {b : β} {r : α} {t : β}
      (hOperand : R a b)
      (hResult : R r t) :
      Related R (.unary operator a r) (.unary operator b t)
  | skipped
      {operator : String}
      {a : α} {b : β} {r : α} {t : β}
      (hLeft : R a b)
      (hResult : R r t) :
      Related R (.binary operator a none r)
        (.binary operator b none t)
  | binary
      {operator : String}
      {a : α} {b : β} {c : α} {d : β} {r : α} {t : β}
      (hLeft : R a b)
      (hRight : R c d)
      (hResult : R r t) :
      Related R (.binary operator a (some c) r)
        (.binary operator b (some d) t)
  | compound
      {operator : String}
      {a : α} {b : β} {c : α} {d : β} {r : α} {t : β}
      (hOld : R a b)
      (hRhs : R c d)
      (hNew : R r t) :
      Related R (.compound operator a c r) (.compound operator b d t)
  | step
      {operator : String}
      {a : α} {b : β} {c : α} {d : β} {r : α} {t : β}
      (hOld : R a b)
      (hNew : R c d)
      (hResult : R r t) :
      Related R (.step operator a c r) (.step operator b d t)

/- Values may be related in a weaker way. -/
theorem Related.mono
    {R T : α → β → Prop}
    {c : Calculation α}
    {d : Calculation β}
    (h : Related R c d)
    (hRT : ∀ a b, R a b → T a b) : Related T c d := by
  cases h with
  | unary ha hr => exact .unary (hRT _ _ ha) (hRT _ _ hr)
  | skipped ha hr => exact .skipped (hRT _ _ ha) (hRT _ _ hr)
  | binary ha hb hr =>
    exact .binary (hRT _ _ ha) (hRT _ _ hb) (hRT _ _ hr)
  | compound ha hb hr =>
    exact .compound (hRT _ _ ha) (hRT _ _ hb) (hRT _ _ hr)
  | step ha hb hr =>
    exact .step (hRT _ _ ha) (hRT _ _ hb) (hRT _ _ hr)

/- The scalars of a calculation are those of its values. -/
theorem related_of_scalars
    {f : α → Option Scalar}
    {c : Calculation α}
    {d : Calculation Scalar}
    (h : c.scalars? f = some d) :
    Related (fun a s => f a = some s) c d := by
  cases c with
  | unary operator operand result =>
    simp only [scalars?, Option.bind_eq_bind,
      Option.bind_eq_some_iff, Option.pure_def,
      Option.some.injEq] at h
    rcases h with ⟨a, ha, r, hr, rfl⟩
    exact .unary ha hr
  | binary operator lhs rhs result =>
    cases rhs with
    | none =>
      simp only [scalars?, Option.bind_eq_bind,
        Option.bind_eq_some_iff, Option.pure_def,
        Option.some.injEq] at h
      rcases h with ⟨a, ha, r, hr, rfl⟩
      exact .skipped ha hr
    | some rhs =>
      simp only [scalars?, Option.bind_eq_bind,
        Option.bind_eq_some_iff, Option.pure_def,
        Option.some.injEq] at h
      rcases h with ⟨a, ha, b, hb, r, hr, rfl⟩
      exact .binary ha hb hr
  | compound operator old rhs new =>
    simp only [scalars?, Option.bind_eq_bind,
      Option.bind_eq_some_iff, Option.pure_def,
      Option.some.injEq] at h
    rcases h with ⟨a, ha, b, hb, r, hr, rfl⟩
    exact .compound ha hb hr
  | step operator old new result =>
    simp only [scalars?, Option.bind_eq_bind,
      Option.bind_eq_some_iff, Option.pure_def,
      Option.some.injEq] at h
    rcases h with ⟨a, ha, b, hb, r, hr, rfl⟩
    exact .step ha hb hr

/- Calculations with the same scalars. -/
theorem scalars?_eq
    {f : α → Option Scalar}
    {g : β → Option Scalar}
    {c : Calculation α}
    {d : Calculation β}
    (h : Related (fun a b => g b = f a) c d) :
    d.scalars? g = c.scalars? f := by
  cases h with
  | unary ha hr => simp only [scalars?, ha, hr]
  | skipped ha hr => simp only [scalars?, ha, hr]
  | binary ha hb hr => simp only [scalars?, ha, hb, hr]
  | compound ha hb hr => simp only [scalars?, ha, hb, hr]
  | step ha hb hr => simp only [scalars?, ha, hb, hr]

end Calculation

/-
  Whether an action tells no calculation with scalars, or one
  that holds.
-/
def Action.isTruthful
    {κ α : Type}
    (f : α → Option Scalar)
    (a : Action κ α) : Bool :=
  match a.calculation?.bind (Calculation.scalars? f) with
  | some c => c.holds
  | none => true

/- An action is truthful if the calculation it tells holds. -/
theorem Action.isTruthful_of
    {κ α : Type}
    {f : α → Option Scalar}
    {a : Action κ α}
    {c : Calculation α}
    (hCalculation : a.calculation? = some c)
    (h : ∀ d, c.scalars? f = some d → d.holds = true) :
    a.isTruthful f = true := by
  unfold isTruthful
  rw [hCalculation, Option.bind_some]
  cases hScalars : c.scalars? f with
  | none => rfl
  | some d => exact h d hScalars

/- An action that tells no calculation is truthful. -/
theorem Action.isTruthful_of_none
    {κ α : Type}
    {f : α → Option Scalar}
    {a : Action κ α}
    (h : a.calculation? = none) : a.isTruthful f = true := by
  simp [isTruthful, h]

------------------------------------------------------------
-- Scalars That Are Told
------------------------------------------------------------

/- The scalar that a snapshot is. -/
def Snapshot.scalar? : Snapshot → Option Scalar
  | .scalar s => some s
  | _ => none

/- The scalar of which the snapshot of a value will be one. -/
def Shown.scalar? (s : Shown) : Option Scalar :=
  match s.kind.scalarTy?, s.value with
  | some ty, .scalar t => some (t.convert ty)
  | _, _ => none

section Scalars

variable {ty : Ty}
variable {v : Val}
variable {s : Scalar}

/- The kinds of scalars are those of primitive types. -/
theorem scalarTy?_kind
    (ty : Ty) :
    (ty.kind?.getD .reference).scalarTy?
      = if ty.isPrimitive then some ty else none := by
  cases ty <;> rfl

/- A scalar that is told is one of a primitive type. -/
theorem scalar_of_shown
    (h : (shown ty v).scalar? = some s) :
    ty.isPrimitive = true ∧
      ∃ t : Scalar, v = .scalar t ∧ s = t.convert ty := by
  unfold Shown.scalar? shown at h
  simp only [scalarTy?_kind] at h
  by_cases hTy : ty.isPrimitive = true
  · rw [if_pos hTy] at h
    cases v with
    | scalar t => exact ⟨hTy, t, rfl, (Option.some.inj h).symm⟩
    | _ => cases h
  · rw [if_neg hTy] at h
    cases h

/- A value that was converted is told as it is. -/
theorem scalar_of_held
    (hHeld : v.HeldAs ty)
    (h : (shown ty v).scalar? = some s) : v = .scalar s := by
  rcases scalar_of_shown h with ⟨_, t, rfl, rfl⟩
  rcases hHeld with ⟨u, hu⟩
  have hTwice := Val.convert_convert u ty
  rw [← hu] at hTwice
  exact hTwice.symm

/- A value of its type is told as it is. -/
theorem scalar_of_fits
    (hFits : ty.isPrimitive = true → Val.fits ty v = true)
    (h : (shown ty (v.convert ty)).scalar? = some s) :
    v = .scalar s ∧ Val.fits ty v = true := by
  have hHeld := scalar_of_held ⟨v, rfl⟩ h
  have hv := hFits (scalar_of_shown h).1
  rw [Val.convert_of_fits ty v hv] at hHeld
  exact ⟨hHeld, hv⟩

/- A scalar of a primitive type has the type. -/
theorem scalarTy_of_fits
    (hTy : ty.isPrimitive = true)
    (h : Val.fits ty (.scalar s) = true) :
    Heap.scalarTy s = ty := by
  cases ty <;>
    simp [Ty.isPrimitive, Ty.isNumeric, Ty.isIntegral] at hTy <;>
    cases s <;> first | rfl | cases h

/- A conversion between scalars of one type changes nothing. -/
theorem convert_of_scalarTy
    {t : Scalar}
    (h : Heap.scalarTy (t.convert ty) = Heap.scalarTy t)
    (hFits : Val.fits (Heap.scalarTy t) (.scalar t) = true) :
    t.convert ty = t := by
  by_cases hTy : ty.isPrimitive = true
  · unfold Scalar.convert at h ⊢
    cases hNumber : t.number? with
    | none => rfl
    | some n =>
      by_cases hBool : ty = .bool
      · rw [hBool]
        rfl
      · simp only [hNumber] at h ⊢
        have hSame := scalarTy_of_fits hTy
          (n.fits_convert ty t hTy hBool)
        rw [hSame] at h
        rw [← h] at hFits
        have hFixed := t.convert_of_fits ty hTy hFits
        unfold Scalar.convert at hFixed
        simpa only [hNumber] using hFixed
  · exact t.convert_of_not_primitive ty (by simpa using hTy)

/- A number that is converted twice keeps its first type. -/
theorem convert_of_converted
    {ty' : Ty}
    {r : Scalar}
    (hTy : ty.isPrimitive = true)
    (h : Val.fits ty (.scalar ((r.convert ty).convert ty')) = true) :
    (r.convert ty).convert ty' = r.convert ty := by
  have hSame := scalarTy_of_fits hTy h
  cases hNumber : r.number? with
  | none => simp [Scalar.convert, hNumber]
  | some n =>
    by_cases hBool : ty = .bool
    · -- A number is no truth value, however it is converted.
      subst hBool
      have hKept : r.convert .bool = r := by
        simp [Scalar.convert, hNumber, Number.convert]
      rw [hKept] at hSame ⊢
      by_cases hTy' : ty'.isPrimitive = true ∧ ty' ≠ .bool
      · have hConvert : r.convert ty' = n.convert ty' r := by
          simp [Scalar.convert, hNumber]
        rw [hConvert, scalarTy_of_fits hTy'.1
          (n.fits_convert ty' r hTy'.1 hTy'.2)] at hSame
        exact absurd hSame hTy'.2
      · by_cases hBool' : ty' = .bool
        · rw [hBool', hKept]
        · refine r.convert_of_not_primitive ty' ?_
          simpa [hBool'] using hTy'
    · have hConvert : r.convert ty = n.convert ty r := by
        simp [Scalar.convert, hNumber]
      have hFits := n.fits_convert ty r hTy hBool
      rw [← hConvert] at hFits
      have hFirst := scalarTy_of_fits hTy hFits
      refine convert_of_scalarTy (hSame.trans hFirst.symm) ?_
      rw [hFirst]
      exact hFits

end Scalars

------------------------------------------------------------
-- Fair Comparisons
------------------------------------------------------------

/-
  An observer that admits no value of a primitive type but one
  of that type.
-/
def Observer.Typing (w : Observer) : Prop :=
  ∀ e v, w.Admits e v → e.ty.isPrimitive = true →
    Val.fits e.ty v = true

namespace Calculation

/- An operator gives the scalar that it gives. -/
theorem gives_ok
    {result : Except OperatorError Val}
    {s : Scalar}
    (h : result = .ok (.scalar s)) : gives result s = true := by
  simp [gives, h]

/- An operator gives the scalar that is converted. -/
theorem givesAs_ok
    {result : Except OperatorError Val}
    {ty : Ty}
    {s t : Scalar}
    (h : result = .ok (.scalar t))
    (hs : s = t.convert ty) : givesAs ty result s = true := by
  simp [givesAs, h, hs]

end Calculation

section Fair

variable {X : Splice}
variable {w : Observer}

/- A prefix or a postfix operator puts the next value. -/
theorem stepped_of_scalars
    {op : StepOp}
    {ty : Ty}
    {old new u : Val}
    {x y : Scalar}
    (hStepped : Stepped op ty old new)
    (hSettled : new.Settled u)
    (hTy : ty.isPrimitive = true)
    (hOld : old = .scalar x)
    (hNew : u = .scalar y)
    (hFits : Val.fits ty u = true) :
    new = .scalar y ∧ ∃ r : Scalar, y = r.convert ty ∧
      Val.binary op.binary (.scalar x) (.int 1)
        = .ok (.scalar r) := by
  subst hOld hNew
  rcases hStepped with ⟨v, rfl, hCombined⟩
  cases v with
  | scalar r =>
    rcases hCombined with hBinary | ⟨text, hText⟩
    · have hSame : y = r.convert ty := by
        rcases hSettled with hSame | ⟨ty', hSame⟩
        · exact Val.scalar.inj hSame
        · have hy : y = (r.convert ty).convert ty' :=
            Val.scalar.inj hSame
          rw [hy] at hFits
          rw [hy, convert_of_converted hTy hFits]
      exact ⟨by rw [hSame]; rfl, r, hSame, hBinary⟩
    · cases hText
  | _ =>
    -- What is no scalar is not made one by a conversion.
    rcases hSettled with hSame | ⟨ty', hSame⟩ <;> cases hSame

/-
  It is fair to call an action sound if it is truthful, under an
  observer that sees to the types.
-/
theorem Splice.fair_truthful
    (hSound : ∀ a, X.sound a = a.isTruthful Shown.scalar?)
    (hTyping : w.Typing) : X.Fair w where
  plain := fun a ha => by
    rw [hSound]
    refine Action.isTruthful_of_none ?_
    cases a with
    | operation o => cases o <;> first | rfl | cases ha
    | binary => cases ha
    | _ => rfl
  unary := fun op ty a v e hHeld hUnary hAdmits => by
    rw [hSound]
    refine Action.isTruthful_of rfl fun d hd => ?_
    cases Calculation.related_of_scalars hd with
    | unary hOperand hResult =>
      have hFits := hTyping e v hAdmits
      rw [scalar_of_held hHeld hOperand,
        (scalar_of_fits hFits hResult).1] at hUnary
      simp only [Calculation.holds, UnaryOp.ofSymbol?_symbol]
      exact Calculation.gives_ok hUnary
  strict := fun op ty ty' l r v e hOp hl hr hCombined hAdmits => by
    rw [hSound]
    refine Action.isTruthful_of rfl fun d hd => ?_
    cases Calculation.related_of_scalars hd with
    | binary hLeft hRight hResult =>
      have hFits := hTyping e v hAdmits
      have hv := (scalar_of_fits hFits hResult).1
      rw [scalar_of_held hl hLeft, scalar_of_held hr hRight, hv]
        at hCombined
      simp only [Calculation.holds, BinaryOp.ofSymbol?_symbol, hOp]
      rcases hCombined with hBinary | ⟨text, hText⟩
      · exact Calculation.gives_ok hBinary
      · cases hText
  shortCircuit := fun op ty b v e hOp hDecided hAdmits => by
    rw [hSound]
    refine Action.isTruthful_of rfl fun d hd => ?_
    have hFits := hTyping e v hAdmits
    have hBool : (Val.bool b).HeldAs ty :=
      ⟨.bool b, (Val.convert_bool b ty).symm⟩
    cases hSkips : Teller.decided op (.bool b) with
    | true =>
      rw [hSkips, if_pos rfl] at hd
      cases Calculation.related_of_scalars hd with
      | skipped hLeft hResult =>
        have hl := Val.scalar.inj (scalar_of_held hBool hLeft)
        have hv := (scalar_of_fits hFits hResult).1
        rw [hDecided hSkips] at hv
        have hr := Val.scalar.inj hv
        simp only [Calculation.holds, BinaryOp.ofSymbol?_symbol,
          hOp, if_true, ← hl, ← hr]
        rw [show Val.scalar (.bool b) = Val.bool b from rfl, hSkips,
          Scalar.same_self]
        rfl
    | false =>
      rw [hSkips, if_neg (by decide)] at hd
      cases Calculation.related_of_scalars hd with
      | binary hLeft hRight hResult =>
        have hl := Val.scalar.inj (scalar_of_held hBool hLeft)
        have hSame := Option.some.inj (hRight.symm.trans hResult)
        simp only [Calculation.holds, BinaryOp.ofSymbol?_symbol,
          hOp, if_true, ← hl, hSame]
        rw [show Val.scalar (.bool b) = Val.bool b from rfl, hSkips,
          Scalar.same_self]
        rfl
  compound := fun op place ty old r new e hHeld hAssembled hAdmits => by
    rw [hSound]
    refine Action.isTruthful_of rfl fun d hd => ?_
    cases Calculation.related_of_scalars hd with
    | @compound _ _ x _ y _ z hOld hRhs hNew =>
      simp only [Calculation.holds, BinaryOp.ofCompound?_symbol]
      cases hStrict : op.combines with
      | false => rfl
      | true =>
        have hOp : op.isShortCircuit = false := by
          simp only [BinaryOp.combines, Bool.and_eq_true,
            Bool.not_eq_true'] at hStrict
          exact hStrict.2
        have hTy := (scalar_of_shown hOld).1
        have hx := scalar_of_fits (hTyping e old hAdmits) hOld
        have hFixed := Val.convert_of_fits e.ty old hx.2
        rcases hAssembled hOp with ⟨v, hCombined, hSame⟩
        rw [hFixed, hx.1, scalar_of_held hHeld hRhs] at hCombined
        have hz := scalar_of_held ⟨new, rfl⟩ hNew
        rw [hSame hTy] at hz
        have hScalarTy := scalarTy_of_fits hTy (hx.1 ▸ hx.2)
        rw [hScalarTy]
        cases v with
        | scalar t =>
          rcases hCombined with hBinary | ⟨text, hText⟩
          · exact Calculation.givesAs_ok hBinary
              (Val.scalar.inj hz).symm
          · cases hText
        | _ => cases hz
  step := fun op place old new u e e' hStepped hOld hSettled hNew
      hResult => by
    rw [hSound]
    refine Action.isTruthful_of rfl fun d hd => ?_
    cases Calculation.related_of_scalars hd with
    | @step _ _ x _ y _ z hx hy hz =>
      have hTy := (scalar_of_shown hx).1
      have hx := scalar_of_fits (hTyping e old hOld) hx
      have hy := scalar_of_fits (hTyping e u hNew) hy
      have hz := (scalar_of_fits (hTyping e' _ hResult) hz).1
      rcases stepped_of_scalars hStepped hSettled hTy hx.1 hy.1 hy.2
        with ⟨hPut, r, hConvert, hBinary⟩
      have hScalarTy := scalarTy_of_fits hTy (hx.1 ▸ hx.2)
      have hLast : z = if op.isPrefix then y else x := by
        rw [hPut, hx.1] at hz
        cases hPrefix : op.isPrefix <;>
          simpa [hPrefix] using hz.symm
      simp only [Calculation.holds, StepOp.ofText?_describe,
        hScalarTy, Calculation.givesAs_ok hBinary hConvert, hLast,
        Scalar.same_self, Bool.and_self]

end Fair

------------------------------------------------------------
-- Captured Calculations
------------------------------------------------------------

section Captured

variable {w : Observer}
variable {p : Program}
variable {i : Invoker}
variable {n : Nat}
variable {m k : Machine}

/- The snapshot of a reference is no scalar. -/
theorem scalar_of_reference
    {v : Val}
    {t : Snapshot}
    (h : referenceSnapshot p i v m = (.ok t, k)) :
    t.scalar? = none := by
  unfold referenceSnapshot at h
  rw [get_bind_apply] at h
  rcases bind_returned h with ⟨text, _, _, h⟩
  cases h
  rfl

/- A value of a wrong kind has no snapshot. -/
theorem wrongKind_apply
    {kind : Kind}
    {v : Val}
    {t : Snapshot} : wrongKind kind v m ≠ (.ok t, k) := by
  intro h
  cases h

/- A snapshot is the scalar that is told. -/
theorem scalar_of_snapshot
    {kind : Kind}
    {v : Val}
    {t : Snapshot}
    (h : snapshot w p i n kind v m = (.ok t, k)) :
    t.scalar? = (Shown.mk kind v).scalar? := by
  cases n with
  | zero => cases h
  | succ n =>
    unfold snapshot at h
    rcases bind_returned h with ⟨_, m₁, _, h⟩
    unfold Shown.scalar?
    cases hKind : kind.scalarTy? with
    | some ty =>
      rw [hKind] at h
      cases v with
      | scalar s =>
        cases h
        rfl
      | _ => exact absurd h wrongKind_apply
    | none =>
      rw [hKind] at h
      have hBoxed : ∀ cls, (do
          let id ← freshId
          pure (Snapshot.ref id cls ((← get).heap.text v))
            : Run Snapshot) m₁ = (.ok t, k) → t.scalar? = none := by
        intro cls h
        cases h
        rfl
      cases v with
      | null =>
        cases h
        rfl
      | str s => exact scalar_of_reference h
      | obj a => exact scalar_of_reference h
      | arr a =>
        simp only at h
        split at h
        · rw [get_bind_apply] at h
          rcases bind_returned h with ⟨items, _, _, h⟩
          cases h
          rfl
        · exact scalar_of_reference h
      | void => exact absurd h wrongKind_apply
      | scalar s => cases s <;> exact hBoxed _ h

/- A captured value is the scalar that is told. -/
theorem scalar_of_captureValue
    {s : Shown}
    {t : Snapshot}
    (h : captureValue w p i n s.kind s.value m = (.ok t, k)) :
    t.scalar? = s.scalar? := by
  unfold captureValue at h
  rw [get_bind_apply] at h
  exact scalar_of_snapshot h

end Captured

/- The values of a calculation are mapped one by one. -/
theorem Action.related_of_mapM
    {α β : Type}
    {f : α → Run β}
    {a : Action Unit α}
    {b : Action Unit β}
    {m k : Machine}
    (h : a.mapM f m = (.ok b, k)) :
    Option.Rel
      (Calculation.Related fun x y => ∃ m k, f x m = (.ok y, k))
      a.calculation? b.calculation? := by
  cases a with
  | statement s =>
    rcases bind_returned h with ⟨_, _, _, h⟩
    cases h
    exact .none
  | castAttempt v _ _ =>
    rcases bind_returned h with ⟨_, _, _, h⟩
    cases h
    exact .none
  | typeTest v _ _ =>
    rcases bind_returned h with ⟨_, _, _, h⟩
    cases h
    exact .none
  | call _ receiver args =>
    rcases bind_returned h with ⟨_, _, _, h⟩
    rcases bind_returned h with ⟨_, _, _, h⟩
    cases h
    exact .none
  | enter callee enclosing =>
    cases h
    exact .none
  | exit _ _ how =>
    rcases bind_returned h with ⟨_, _, _, h⟩
    cases h
    exact .none
  | resume _ _ _ how =>
    rcases bind_returned h with ⟨_, _, _, h⟩
    cases h
    exact .none
  | binary operator lhs rhs result =>
    rcases bind_returned h with ⟨_, _, hLeft, h⟩
    rcases bind_returned h with ⟨rhs', _, hRight, h⟩
    rcases bind_returned h with ⟨_, _, hResult, h⟩
    cases h
    cases rhs with
    | none =>
      cases hRight
      exact .some (.skipped ⟨_, _, hLeft⟩ ⟨_, _, hResult⟩)
    | some rhs =>
      rcases bind_returned hRight with ⟨_, _, hRight, hSome⟩
      cases hSome
      exact .some (.binary ⟨_, _, hLeft⟩ ⟨_, _, hRight⟩
        ⟨_, _, hResult⟩)
  | operation o =>
    rcases bind_returned h with ⟨_, _, hMap, h⟩
    cases h
    cases o with
    | unary operator operand result =>
      rcases bind_returned hMap with ⟨_, _, hOperand, hMap⟩
      rcases bind_returned hMap with ⟨_, _, hResult, hMap⟩
      cases hMap
      exact .some (.unary ⟨_, _, hOperand⟩ ⟨_, _, hResult⟩)
    | compoundAssign place operator old rhs new =>
      rcases bind_returned hMap with ⟨_, _, _, hMap⟩
      rcases bind_returned hMap with ⟨_, _, hOld, hMap⟩
      rcases bind_returned hMap with ⟨_, _, hRhs, hMap⟩
      rcases bind_returned hMap with ⟨_, _, hNew, hMap⟩
      cases hMap
      exact .some (.compound ⟨_, _, hOld⟩ ⟨_, _, hRhs⟩
        ⟨_, _, hNew⟩)
    | incDec place operator old new result =>
      rcases bind_returned hMap with ⟨_, _, _, hMap⟩
      rcases bind_returned hMap with ⟨_, _, hOld, hMap⟩
      rcases bind_returned hMap with ⟨_, _, hNew, hMap⟩
      rcases bind_returned hMap with ⟨_, _, hResult, hMap⟩
      cases hMap
      exact .some (.step ⟨_, _, hOld⟩ ⟨_, _, hNew⟩
        ⟨_, _, hResult⟩)
    | loopEnter loop =>
      cases hMap
      exact .none
    | loopExit loop =>
      cases hMap
      exact .none
    | assign place v =>
      rcases bind_returned hMap with ⟨_, _, _, hMap⟩
      rcases bind_returned hMap with ⟨_, _, _, hMap⟩
      cases hMap
      exact .none
    | read place v =>
      rcases bind_returned hMap with ⟨_, _, _, hMap⟩
      rcases bind_returned hMap with ⟨_, _, _, hMap⟩
      cases hMap
      exact .none
    | _ =>
      rcases bind_returned hMap with ⟨_, _, _, hMap⟩
      cases hMap
      exact .none

/- What is captured of a truthful action is truthful. -/
theorem isTruthful_of_captured
    {w : Observer}
    {p : Program}
    {i : Invoker}
    {n : Nat}
    {a : Action Unit Shown}
    {b : Action Unit Snapshot}
    {m k : Machine}
    (h : a.mapM (fun s => captureValue w p i n s.kind s.value) m
      = (.ok b, k)) :
    b.isTruthful Snapshot.scalar? = a.isTruthful Shown.scalar? := by
  have hRelated := Action.related_of_mapM h
  unfold Action.isTruthful
  generalize a.calculation? = c at hRelated
  generalize b.calculation? = d at hRelated
  cases hRelated with
  | none => rfl
  | some hValues =>
    have hScalars := hValues.mono
      (T := fun x y => y.scalar? = x.scalar?) (by
        rintro x y ⟨_, _, hCapture⟩
        exact scalar_of_captureValue hCapture)
    rw [Option.bind_some, Option.bind_some,
      Calculation.scalars?_eq hScalars]

end ExecTrace
