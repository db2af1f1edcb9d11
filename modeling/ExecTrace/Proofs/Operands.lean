import ExecTrace.Proofs.Conversion

/-
  Operators on operands of types that they take: an operator has
  a result of its static type for all values of those types,
  unless it divides by zero.

  Main declarations:
    * `UnaryOp.takes`, `BinaryOp.takes` and `Ty.suits`
    * `Val.isOf` and `Val.isOf_convert`
    * `Val.unary_of_isOf`
    * `Val.binary_of_isOf`
-/

namespace ExecTrace

------------------------------------------------------------
-- Types of Operands
------------------------------------------------------------

/- Whether an operator takes an operand of a type. -/
def UnaryOp.takes
    (op : UnaryOp)
    (ty : Ty) : Bool :=
  match op with
  | .neg => ty.isNumeric
  | .not => ty == .bool
  | .bitNot => ty.isIntegral

/-
  Whether an operator takes operands of two types. Anything can
  be compared for equality, and anything be joined to a string.
-/
def BinaryOp.takes
    (op : BinaryOp)
    (lhs rhs : Ty) : Bool :=
  match op with
  | .and | .or => lhs == .bool && rhs == .bool
  | .eq | .ne => true
  | .add =>
    lhs == .str || rhs == .str || (lhs.isNumeric && rhs.isNumeric)
  | .shl | .shr | .ushr => lhs.isIntegral && rhs.isIntegral
  | .bitAnd | .bitOr | .bitXor =>
    (lhs == .bool && rhs == .bool)
      || (lhs.isIntegral && rhs.isIntegral)
  | _ => lhs.isNumeric && rhs.isNumeric

/-
  Whether values of a type may stand where another type is asked
  for: numbers for numbers and references for references.
-/
def Ty.suits (given asked : Ty) : Bool :=
  given == asked || (given.isNumeric && asked.isNumeric)
    || (given.isReference && asked.isReference)

------------------------------------------------------------
-- Values of Operands
------------------------------------------------------------

/-
  Whether a value is one of a type and no object or array: a
  scalar of a primitive type, and null or a string of a type of
  references.
-/
def Val.isOf (ty : Ty) : Val → Bool
  | .scalar s => ty.isPrimitive && Val.fits ty (.scalar s)
  | .null => ty.isReference
  | .str _ => ty.isReference
  | _ => false

/- The type of a promoted number. -/
def Number.ty : Number → Ty
  | .int _ => .int
  | .long _ => .long
  | .float _ => .float
  | .double _ => .double

section Values

variable {a b ty : Ty}
variable {v : Val}
variable {op : BinaryOp}

/- Such a value is a value of the type. -/
theorem Val.fits_of_isOf
    (h : v.isOf ty = true) : Val.fits ty v = true := by
  cases v with
  | scalar s => exact (Bool.and_eq_true_iff.mp h).2
  | null => cases ty <;> first | rfl | cases h
  | str => cases ty <;> first | rfl | cases h
  | _ => cases h

/- No type is both primitive and a type of references. -/
theorem Ty.isReference_of_isPrimitive
    (h : ty.isPrimitive = true) : ty.isReference = false := by
  cases ty <;> first | rfl | cases h

/- Such a value of a primitive type is a scalar. -/
theorem Val.scalar_of_isOf
    (hTy : ty.isPrimitive = true)
    (h : v.isOf ty = true) :
    ∃ s, v = .scalar s ∧ Val.fits ty (.scalar s) = true := by
  have hReference := Ty.isReference_of_isPrimitive hTy
  cases v with
  | scalar s => exact ⟨s, rfl, (Bool.and_eq_true_iff.mp h).2⟩
  | null => exact absurd (hReference.symm.trans h) (by decide)
  | str => exact absurd (hReference.symm.trans h) (by decide)
  | _ => cases h

/- Such a value of the boolean type is a truth value. -/
theorem Val.bool_of_isOf
    (h : v.isOf .bool = true) : ∃ b, v = .bool b := by
  rcases Val.scalar_of_isOf rfl h with ⟨s, rfl, hFits⟩
  cases s with
  | bool b => exact ⟨b, rfl⟩
  | _ => cases hFits

/- Such a value of a numeric type is a number, promoted. -/
theorem Val.number_of_isOf
    (hTy : ty.isNumeric = true)
    (h : v.isOf ty = true) :
    v.asBool? = none ∧
      ∃ n, v.number? = some n ∧ n.ty = ty.promoteUnary := by
  have hPrimitive : ty.isPrimitive = true := by
    simp [Ty.isPrimitive, hTy]
  rcases Val.scalar_of_isOf hPrimitive h with ⟨s, rfl, hFits⟩
  cases ty <;> cases s <;>
    first
    | exact ⟨rfl, _, rfl, rfl⟩
    | (cases hTy; done)
    | cases hFits

/- A promoted number is such a value of its type. -/
theorem Val.isOf_number
    (n : Number) : Val.isOf n.ty (.scalar n.scalar) = true := by
  cases n <;> rfl

/- What stands for another type is converted to it. -/
theorem Val.isOf_convert
    (hSuits : a.suits b = true)
    (h : v.isOf a = true) : (v.convert b).isOf b = true := by
  unfold Ty.suits at hSuits
  simp only [Bool.or_eq_true, beq_iff_eq, Bool.and_eq_true] at hSuits
  rcases hSuits with (rfl | ⟨ha, hb⟩) | ⟨ha, hb⟩
  · rw [Val.convert_of_fits a v (Val.fits_of_isOf h)]
    exact h
  · have hPrimitive : b.isPrimitive = true := by
      simp [Ty.isPrimitive, hb]
    have hBool : b ≠ .bool := by
      rintro rfl
      cases hb
    rcases Val.number_of_isOf ha h with ⟨_, n, hn, _⟩
    cases v with
    | scalar s =>
      have hConvert : s.convert b = n.convert b s := by
        have hn : s.number? = some n := hn
        simp [Scalar.convert, hn]
      simp [Val.convert, Val.isOf, hConvert, hPrimitive,
        n.fits_convert b s hPrimitive hBool]
    | _ => cases hn
  · cases v with
    | scalar s =>
      have hPrimitive : a.isPrimitive = false := by
        cases a <;> first | rfl | cases ha
      simp [Val.isOf, hPrimitive] at h
    | null => exact hb
    | str => exact hb
    | _ => cases h

------------------------------------------------------------
-- Operators
------------------------------------------------------------

/- An operator has a result for an operand that it takes. -/
theorem Val.unary_of_isOf
    {op : UnaryOp}
    (hTakes : op.takes ty = true)
    (h : v.isOf ty = true) :
    ∃ u, v.unary op = .ok u ∧ u.isOf (op.resultTy ty) = true := by
  cases op with
  | not =>
    cases beq_iff_eq.mp hTakes
    rcases Val.bool_of_isOf h with ⟨b, rfl⟩
    exact ⟨_, rfl, rfl⟩
  | neg =>
    rcases Val.number_of_isOf hTakes h with ⟨hBool, n, hn, hTy⟩
    refine ⟨.scalar n.negate.scalar, ?_, ?_⟩
    · simp [Val.unary, hBool, hn]
    · have hSame : n.negate.ty = ty.promoteUnary := by
        rw [← hTy]
        cases n <;> rfl
      have hResult : UnaryOp.neg.resultTy ty = ty.promoteUnary := rfl
      rw [hResult, ← hSame]
      exact Val.isOf_number n.negate
  | bitNot =>
    have hNumeric : ty.isNumeric = true := by
      cases ty <;> first | rfl | cases hTakes
    rcases Val.number_of_isOf hNumeric h with ⟨hBool, n, hn, hTy⟩
    have hWhole : ∃ c, n.complement = some c ∧ c.ty = n.ty := by
      cases n with
      | int => exact ⟨_, rfl, rfl⟩
      | long => exact ⟨_, rfl, rfl⟩
      | _ => cases ty <;> first | (cases hTy; done) | cases hTakes
    rcases hWhole with ⟨c, hc, hSame⟩
    refine ⟨.scalar c.scalar, ?_, ?_⟩
    · simp [Val.unary, hBool, hn, hc]
    · have hResult : UnaryOp.bitNot.resultTy ty = ty.promoteUnary :=
        rfl
      rw [hResult, ← hTy, ← hSame]
      exact Val.isOf_number c

/- Numbers are combined in the type that they are promoted to. -/
theorem Ty.promote_promoteUnary
    (ha : a.isNumeric = true)
    (hb : b.isNumeric = true) :
    Ty.promote a.promoteUnary b.promoteUnary = Ty.promote a b := by
  cases a <;> first | (cases ha; done) | skip
  all_goals cases b <;> first | (cases hb; done) | rfl

/- Whether an operator combines whole numbers. -/
def BinaryOp.combinesWhole : BinaryOp → Bool
  | .add | .sub | .mul | .div | .rem | .bitAnd | .bitOr | .bitXor =>
    true
  | _ => false

/- Whether an operator combines numbers of any kind. -/
def BinaryOp.combinesAny : BinaryOp → Bool
  | .add | .sub | .mul | .div | .rem => true
  | _ => false

/- Whole numbers of 32 bits are combined, unless by zero. -/
theorem Number.combine32_ok
    (hOp : op.combinesWhole = true)
    (x y : Int32) :
    (∃ z, Number.combine32 op x y = .ok z) ∨
      Number.combine32 op x y = .error .divideByZero := by
  by_cases hZero : y = 0 <;> cases op <;>
    first
    | (cases hOp; done)
    | simp [Number.combine32, hZero]

/- Whole numbers of 64 bits are combined, unless by zero. -/
theorem Number.combine64_ok
    (hOp : op.combinesWhole = true)
    (x y : Int64) :
    (∃ z, Number.combine64 op x y = .ok z) ∨
      Number.combine64 op x y = .error .divideByZero := by
  by_cases hZero : y = 0 <;> cases op <;>
    first
    | (cases hOp; done)
    | simp [Number.combine64, hZero]

/- Floats are combined. -/
theorem Number.combineWords_ok
    (hOp : op.combinesAny = true)
    (x y : UInt64) : ∃ z, Number.combineWords op x y = .ok z := by
  cases op <;> first | (cases hOp; done) | exact ⟨_, rfl⟩

/- A combination of words is one of numbers of their type. -/
theorem Number.map_ok
    {α : Type}
    {r : Except NumberError α}
    {f : α → Number}
    (hf : ∀ z, (f z).ty = ty)
    (h : (∃ z, r = .ok z) ∨ r = .error .divideByZero) :
    (∃ n, r.map f = .ok n ∧ n.ty = ty) ∨
      r.map f = .error .divideByZero := by
  rcases h with ⟨z, rfl⟩ | rfl
  · exact .inl ⟨f z, rfl, hf z⟩
  · exact .inr rfl

/- Numbers are combined to one of the promoted type. -/
theorem Number.combine_ok
    (x y : Number)
    (hWhole : op.combinesWhole = true)
    (hAny : 1 < max x.rank y.rank → op.combinesAny = true) :
    (∃ n, Number.combine op x y = .ok n ∧
        n.ty = Ty.promote x.ty y.ty) ∨
      Number.combine op x y = .error .divideByZero := by
  cases x <;> cases y <;>
    first
    | exact Number.map_ok (fun _ => rfl)
        (Number.combine32_ok hWhole _ _)
    | exact Number.map_ok (fun _ => rfl)
        (Number.combine64_ok hWhole _ _)
    | exact Number.map_ok (fun _ => rfl)
        (.inl (Number.combineWords_ok
          (hAny (by simp [Number.rank])) _ _))

/- A number of a type of integers is no float. -/
theorem Number.rank_of_isIntegral
    {n : Number}
    (hTy : ty.isIntegral = true)
    (h : n.ty = ty.promoteUnary) : n.rank ≤ 1 := by
  cases n with
  | int => exact Nat.zero_le 1
  | long => exact Nat.le_refl 1
  | _ => cases ty <;> first | (cases hTy; done) | cases h

/- What is no float is shifted to a number of its type. -/
theorem Number.shift_ok
    (op : BinaryOp)
    (x y : Number)
    (hRank : x.rank ≤ 1) :
    ∃ n, Number.shift op x y = .ok n ∧ n.ty = x.ty := by
  cases x with
  | int => exact ⟨_, rfl, rfl⟩
  | long => exact ⟨_, rfl, rfl⟩
  | float => exact absurd hRank (by simp [Number.rank])
  | double => exact absurd hRank (by simp [Number.rank])

/- The scalar of a number is a value of the type of the number. -/
theorem Number.isOf_map
    {r : Except NumberError Number}
    (h : (∃ n, r = .ok n ∧ n.ty = ty) ∨ r = .error .divideByZero) :
    (∃ s, r.map Number.scalar = .ok s ∧
        Val.isOf ty (.scalar s) = true) ∨
      r.map Number.scalar = .error .divideByZero := by
  rcases h with ⟨n, rfl, rfl⟩ | rfl
  · exact .inl ⟨n.scalar, rfl, Val.isOf_number n⟩
  · exact .inr rfl

/-
  An operator on numbers of types that it takes has a result of
  its type, unless it divides by zero.
-/
theorem Number.binary_of_takes
    {x y : Number}
    (ha : a.isNumeric = true)
    (hb : b.isNumeric = true)
    (hStrict : op.isShortCircuit = false)
    (hTakes : op.takes a b = true)
    (hx : x.ty = a.promoteUnary)
    (hy : y.ty = b.promoteUnary) :
    (∃ s, Number.binary op x y = .ok s ∧
        Val.isOf (op.resultTy a b) (.scalar s) = true) ∨
      Number.binary op x y = .error .divideByZero := by
  have hText : ¬(op = .add ∧ (a = .str ∨ b = .str)) := by
    rintro ⟨_, rfl | rfl⟩
    · cases ha
    · cases hb
  have hBools : ¬(a = .bool ∧ b = .bool) := by
    rintro ⟨rfl, _⟩
    cases ha
  have hWhole : op.isShift = true ∨ op.combinesAny = false →
      op.isComparison = false →
        a.isIntegral = true ∧ b.isIntegral = true := by
    intro hOp hOther
    have hBoth : ¬(a == .bool && b == .bool) = true := by
      simpa using hBools
    unfold BinaryOp.takes at hTakes
    cases op <;>
      first
      | exact Bool.and_eq_true_iff.mp hTakes
      | exact Bool.and_eq_true_iff.mp
          ((Bool.or_eq_true_iff.mp hTakes).resolve_left hBoth)
      | simp_all [BinaryOp.isShift, BinaryOp.combinesAny,
          BinaryOp.isComparison, BinaryOp.isShortCircuit]
  unfold Number.binary BinaryOp.resultTy
  rw [hStrict, Bool.or_false, if_neg hText, if_neg hBools]
  cases hComparison : op.isComparison with
  | true =>
    have hShift : op.isShift = false := by
      cases op <;> first | rfl | cases hComparison
    rw [hShift]
    exact .inl ⟨_, rfl, rfl⟩
  | false =>
    cases hShift : op.isShift with
    | true =>
      have hIntegral := (hWhole (.inl hShift) hComparison).1
      have hRank := Number.rank_of_isIntegral hIntegral hx
      rcases Number.shift_ok op x y hRank with ⟨n, hn, hTy⟩
      exact Number.isOf_map (.inl ⟨n, hn, hTy.trans hx⟩)
    | false =>
      have hCombines : op.combinesWhole = true := by
        cases op <;>
          first
          | rfl
          | (cases hComparison; done)
          | (cases hShift; done)
          | cases hStrict
      have hAny : 1 < max x.rank y.rank → op.combinesAny = true := by
        intro hFloat
        cases hAny : op.combinesAny with
        | true => rfl
        | false =>
          have hIntegral := hWhole (.inr hAny) hComparison
          have hLeft := Number.rank_of_isIntegral hIntegral.1 hx
          have hRight := Number.rank_of_isIntegral hIntegral.2 hy
          omega
      have hCombined := Number.combine_ok x y hCombines hAny
      rw [hx, hy, Ty.promote_promoteUnary ha hb] at hCombined
      exact Number.isOf_map hCombined

/- Any two values can be compared for equality. -/
theorem Val.binary_of_equality
    (hOp : op = .eq ∨ op = .ne)
    (l r : Val) : ∃ c, Val.binary op l r = .ok (.bool c) := by
  unfold Val.binary
  rcases hOp with rfl | rfl
  all_goals
    split
    · exact ⟨_, rfl⟩
    · split
      · exact ⟨_, rfl⟩
      · exact ⟨_, rfl⟩

/- Integers are numbers. -/
theorem Ty.isNumeric_of_isIntegral
    (h : ty.isIntegral = true) : ty.isNumeric = true := by
  cases ty <;> first | rfl | cases h

/-
  An operator that neither joins strings nor compares for
  equality takes two truth values or two numbers.
-/
theorem BinaryOp.operands_of_takes
    (hStrict : op.isShortCircuit = false)
    (hTakes : op.takes a b = true)
    (hEquality : ¬(op = .eq ∨ op = .ne))
    (hText : ¬(op = .add ∧ op.resultTy a b = .str)) :
    (op = .bitAnd ∨ op = .bitOr ∨ op = .bitXor)
        ∧ a = .bool ∧ b = .bool ∨
      a.isNumeric = true ∧ b.isNumeric = true := by
  have hNumeric : a.isIntegral = true ∧ b.isIntegral = true →
      a.isNumeric = true ∧ b.isNumeric = true :=
    fun h => ⟨Ty.isNumeric_of_isIntegral h.1,
      Ty.isNumeric_of_isIntegral h.2⟩
  unfold BinaryOp.takes at hTakes
  cases op with
  | and => cases hStrict
  | or => cases hStrict
  | eq => exact absurd (.inl rfl) hEquality
  | ne => exact absurd (.inr rfl) hEquality
  | add =>
    simp only [Bool.or_eq_true, beq_iff_eq,
      Bool.and_eq_true] at hTakes
    rcases hTakes with hString | hNumbers
    · have hJoined : BinaryOp.add.resultTy a b = .str := by
        simp [BinaryOp.resultTy, BinaryOp.isComparison,
          BinaryOp.isShortCircuit, hString]
      exact absurd ⟨rfl, hJoined⟩ hText
    · exact .inr hNumbers
  | shl => exact .inr (hNumeric (Bool.and_eq_true_iff.mp hTakes))
  | shr => exact .inr (hNumeric (Bool.and_eq_true_iff.mp hTakes))
  | ushr => exact .inr (hNumeric (Bool.and_eq_true_iff.mp hTakes))
  | bitAnd =>
    simp only [Bool.or_eq_true, beq_iff_eq,
      Bool.and_eq_true] at hTakes
    exact hTakes.imp (fun h => ⟨.inl rfl, h⟩) hNumeric
  | bitOr =>
    simp only [Bool.or_eq_true, beq_iff_eq,
      Bool.and_eq_true] at hTakes
    exact hTakes.imp (fun h => ⟨.inr (.inl rfl), h⟩) hNumeric
  | bitXor =>
    simp only [Bool.or_eq_true, beq_iff_eq,
      Bool.and_eq_true] at hTakes
    exact hTakes.imp (fun h => ⟨.inr (.inr rfl), h⟩) hNumeric
  | _ => exact .inr (Bool.and_eq_true_iff.mp hTakes)

/-
  An operator that joins no strings has a result of its type for
  operands that it takes, unless it divides by zero.
-/
theorem Val.binary_of_isOf
    {l r : Val}
    (hStrict : op.isShortCircuit = false)
    (hTakes : op.takes a b = true)
    (hText : ¬(op = .add ∧ op.resultTy a b = .str))
    (hl : l.isOf a = true)
    (hr : r.isOf b = true) :
    (∃ u, Val.binary op l r = .ok u ∧
        u.isOf (op.resultTy a b) = true) ∨
      Val.binary op l r = .error (.number .divideByZero) := by
  by_cases hEquality : op = .eq ∨ op = .ne
  · rcases Val.binary_of_equality hEquality l r with ⟨c, hc⟩
    refine .inl ⟨_, hc, ?_⟩
    rcases hEquality with rfl | rfl <;> rfl
  · rcases BinaryOp.operands_of_takes hStrict hTakes hEquality hText
      with ⟨hOp, rfl, rfl⟩ | ⟨ha, hb⟩
    · rcases Val.bool_of_isOf hl with ⟨x, rfl⟩
      rcases Val.bool_of_isOf hr with ⟨y, rfl⟩
      rcases hOp with rfl | rfl | rfl
      all_goals exact .inl ⟨_, rfl, rfl⟩
    · rcases Val.number_of_isOf ha hl with ⟨hlBool, x, hx, hxTy⟩
      rcases Val.number_of_isOf hb hr with ⟨hrBool, y, hy, hyTy⟩
      unfold Val.binary
      rw [hlBool, hx, hy]
      dsimp only
      rcases Number.binary_of_takes ha hb hStrict hTakes hxTy hyTy
        with ⟨s, hs, hOf⟩ | hs
      · rw [hs]
        exact .inl ⟨_, rfl, hOf⟩
      · rw [hs]
        exact .inr rfl

end Values

end ExecTrace
