import Mathlib.Data.Int.Bitwise
import Mathlib.Data.Int.Order.Basic
import ExecTrace.Proofs.Operands

/-
  Arithmetic on integers and characters. An operator on values
  of integral types computes with machine words after promotion.
  The result is the exact result for the integers that the
  values stand for, reduced to the signed range of the static
  type of the operation.

  Main declarations:
    * `Val.integer?`, `BinaryOp.exact` and `Ty.reduce`
    * `BinaryOp.combineWord_eq` and `BinaryOp.shiftWord_eq`
    * `Number.binary_exact`
    * `Val.operators_exact`
-/

namespace ExecTrace

------------------------------------------------------------
-- Exact Results
------------------------------------------------------------

/- The integral type of a scalar and the integer it stands for. -/
def Scalar.integer? : Scalar → Option (Ty × Int)
  | .byte v => some (.byte, v.toInt)
  | .short v => some (.short, v.toInt)
  | .int v => some (.int, v.toInt)
  | .long v => some (.long, v.toInt)
  | .char c => some (.char, c.toNat)
  | _ => none

/- The integral type of a value and the integer it stands for. -/
def Val.integer? : Val → Option (Ty × Int)
  | .scalar s => s.integer?
  | _ => none

/- The number of bits in which an operator of a type works. -/
def Ty.width : Ty → Nat
  | .long => 64
  | _ => 32

/- An integer reduced to the signed range of a type. -/
def Ty.reduce
    (ty : Ty)
    (x : Int) : Int :=
  x.bmod (2 ^ ty.width)

/- Whether an operator would divide by zero. -/
def BinaryOp.dividesByZero
    (op : BinaryOp)
    (y : Int) : Prop :=
  (op = .div ∨ op = .rem) ∧ y = 0

/- Whether two integers compare as an operator asks for. -/
def BinaryOp.relates
    (op : BinaryOp)
    (x y : Int) : Bool :=
  match op with
  | .eq => x = y
  | .ne => x ≠ y
  | .lt => x < y
  | .le => x ≤ y
  | .gt => y < x
  | .ge => y ≤ x
  | _ => false

/-
  The exact result for two integers. Division goes towards zero
  and the remainder has the sign of the dividend. The bits of an
  integer are those of its two's complement. A shift takes its
  count modulo the width; the unsigned one starts from the word
  of that width.
-/
def BinaryOp.exact
    (op : BinaryOp)
    (width : Nat)
    (x y : Int) : Int :=
  let count := (y % width).toNat
  match op with
  | .add => x + y
  | .sub => x - y
  | .mul => x * y
  | .div => x.tdiv y
  | .rem => x.tmod y
  | .bitAnd => x.land y
  | .bitOr => x.lor y
  | .bitXor => x.xor y
  | .shl => x * 2 ^ count
  | .shr => x / 2 ^ count
  | .ushr => x % 2 ^ width / 2 ^ count
  | _ => 0

/- The exact result for one integer. -/
def UnaryOp.exact
    (op : UnaryOp)
    (x : Int) : Int :=
  match op with
  | .neg => -x
  | .bitNot => x.lnot
  | .not => 0

------------------------------------------------------------
-- Words
------------------------------------------------------------

section Words

variable {w : Nat}

/- The bits of a word are the lowest bits of the integer. -/
theorem getLsbD_ofInt
    (x : Int)
    (i : Nat) :
    (BitVec.ofInt w x).getLsbD i
      = (decide (i < w) && x.testBit i) := by
  cases x with
  | ofNat n =>
    rw [Int.ofNat_eq_natCast, BitVec.ofInt_natCast,
      BitVec.getLsbD_ofNat]
    rfl
  | negSucc n =>
    rw [BitVec.ofInt_negSucc_eq_not_ofNat, BitVec.getLsbD_not,
      BitVec.getLsbD_ofNat, Int.testBit]
    by_cases hLow : i < w <;> simp [hLow]

/- A word without its sign is the integer modulo its range. -/
theorem toInt_emod (x : BitVec w) : x.toInt % 2 ^ w = x.toNat := by
  have hRange : ((2 ^ w : Nat) : Int) = 2 ^ w := by norm_cast
  rw [BitVec.toInt_eq_toNat_bmod, ← hRange, Int.bmod_emod,
    ← Int.natCast_emod, Nat.mod_eq_of_lt x.isLt]

/- Combine two words. -/
def BinaryOp.onWord
    (op : BinaryOp)
    (x y : BitVec w) : BitVec w :=
  match op with
  | .add => x + y
  | .sub => x - y
  | .mul => x * y
  | .div => x.sdiv y
  | .rem => x.srem y
  | .bitAnd => x &&& y
  | .bitOr => x ||| y
  | .bitXor => x ^^^ y
  | _ => 0

/- Shift a word. -/
def BinaryOp.shiftWord
    (op : BinaryOp)
    (x : BitVec w)
    (count : Nat) : BitVec w :=
  match op with
  | .shl => x <<< count
  | .shr => x.sshiftRight count
  | _ => x >>> count

/- Combined words are the word of the exact result. -/
theorem BinaryOp.onWord_eq
    {op : BinaryOp}
    (hOp : op.combinesWhole = true)
    (x y : BitVec w) :
    op.onWord x y = BitVec.ofInt w (op.exact w x.toInt y.toInt) := by
  have hBits : ∀ (f : Int → Int → Int) (g : Bool → Bool → Bool)
      (z : BitVec w),
      (∀ x y i, (f x y).testBit i = g (x.testBit i) (y.testBit i)) →
      (∀ i, i < w → z.getLsbD i = g (x.getLsbD i) (y.getLsbD i)) →
        z = BitVec.ofInt w (f x.toInt y.toInt) := by
    intro f g z hf hz
    refine BitVec.eq_of_getLsbD_eq fun i hi => ?_
    have hx := getLsbD_ofInt (w := w) x.toInt i
    have hy := getLsbD_ofInt (w := w) y.toInt i
    rw [BitVec.ofInt_toInt] at hx hy
    rw [hz i hi, getLsbD_ofInt, hf, hx, hy]
    simp [hi]
  cases op with
  | add =>
    rw [exact, BitVec.ofInt_add, BitVec.ofInt_toInt,
      BitVec.ofInt_toInt]
    rfl
  | sub =>
    refine BitVec.eq_of_toInt_eq ?_
    rw [BitVec.toInt_ofInt]
    exact BitVec.toInt_sub
  | mul =>
    rw [exact, BitVec.ofInt_mul, BitVec.ofInt_toInt,
      BitVec.ofInt_toInt]
    rfl
  | div =>
    refine BitVec.eq_of_toInt_eq ?_
    rw [BitVec.toInt_ofInt]
    exact BitVec.toInt_sdiv x y
  | rem =>
    rw [exact, ← BitVec.toInt_srem, BitVec.ofInt_toInt]
    rfl
  | bitAnd =>
    exact hBits Int.land _ _ Int.testBit_land
      fun i _ => BitVec.getLsbD_and
  | bitOr =>
    exact hBits Int.lor _ _ Int.testBit_lor
      fun i _ => BitVec.getLsbD_or
  | bitXor =>
    exact hBits Int.xor _ _ Int.testBit_lxor
      fun i _ => BitVec.getLsbD_xor
  | _ => cases hOp

/- Combine two words, unless this divides by zero. -/
def BinaryOp.combineWord
    (op : BinaryOp)
    (x y : BitVec w) : Except NumberError (BitVec w) :=
  if (op = .div ∨ op = .rem) ∧ y = 0 then .error .divideByZero
  else .ok (op.onWord x y)

/- A word divides by zero if its integer does. -/
theorem BinaryOp.combineWord_of_dividesByZero
    {op : BinaryOp}
    (x : BitVec w)
    {y : BitVec w}
    (h : op.dividesByZero y.toInt) :
    op.combineWord x y = .error .divideByZero := by
  have hZero : y = 0 :=
    BitVec.eq_of_toInt_eq (h.2.trans BitVec.toInt_zero.symm)
  exact if_pos ⟨h.1, hZero⟩

/- Otherwise the words combine to the word of the exact result. -/
theorem BinaryOp.combineWord_eq
    {op : BinaryOp}
    (hOp : op.combinesWhole = true)
    (x : BitVec w)
    {y : BitVec w}
    (h : ¬ op.dividesByZero y.toInt) :
    op.combineWord x y
      = .ok (BitVec.ofInt w (op.exact w x.toInt y.toInt)) := by
  have hDefined : ¬((op = .div ∨ op = .rem) ∧ y = 0) := by
    rintro ⟨hDivides, rfl⟩
    exact h ⟨hDivides, BitVec.toInt_zero⟩
  rw [combineWord, if_neg hDefined, onWord_eq hOp]

/- A shifted word is the word of the exact result. -/
theorem BinaryOp.shiftWord_eq
    {op : BinaryOp}
    (hOp : op.isShift = true)
    (x : BitVec w)
    (c : Int) :
    op.shiftWord x (c % w).toNat
      = BitVec.ofInt w (op.exact w x.toInt c) := by
  simp only [exact]
  generalize (c % w).toNat = n
  have hPower : ((2 ^ n : Nat) : Int) = 2 ^ n := by norm_cast
  cases op with
  | shl =>
    have hWord : BitVec.twoPow w n = BitVec.ofInt w (2 ^ n) := by
      refine BitVec.eq_of_toNat_eq ?_
      rw [← hPower, BitVec.ofInt_natCast, BitVec.toNat_twoPow,
        BitVec.toNat_ofNat]
    rw [BitVec.ofInt_mul, BitVec.ofInt_toInt, ← hWord]
    exact BitVec.shiftLeft_eq_mul_twoPow x n
  | shr =>
    rw [← hPower, ← Int.shiftRight_eq_div_pow,
      ← BitVec.toInt_sshiftRight, BitVec.ofInt_toInt]
    rfl
  | ushr =>
    have hSmall : x.toNat / 2 ^ n < 2 ^ w :=
      (Nat.div_le_self _ _).trans_lt x.isLt
    refine BitVec.eq_of_toNat_eq ?_
    rw [toInt_emod, ← hPower, ← Int.natCast_ediv,
      BitVec.ofInt_natCast, BitVec.toNat_ofNat,
      Nat.mod_eq_of_lt hSmall, ← Nat.shiftRight_eq_div_pow]
    rfl
  | _ => cases hOp

/- A count below a width without sign bit is its own remainder. -/
theorem shift_of_lt
    (x : BitVec w)
    {n m : BitVec w}
    (hm : m.msb = false)
    (hn : n.toNat < m.toNat) :
    x <<< n.smod m = x <<< n.toNat ∧
      x.sshiftRight' (n.smod m) = x.sshiftRight n.toNat ∧
      x >>> (n % m) = x >>> n.toNat := by
  have hSign : n.msb = false := by
    rw [BitVec.msb_eq_false_iff_two_mul_lt] at hm ⊢
    omega
  have hRem : (n % m).toNat = n.toNat := by
    rw [BitVec.toNat_umod, Nat.mod_eq_of_lt hn]
  have hSmod : (n.smod m).toNat = n.toNat := by
    rw [BitVec.toNat_smod, hSign, hm]
    exact hRem
  rw [BitVec.shiftLeft_eq', BitVec.sshiftRight_eq',
    BitVec.ushiftRight_eq', hRem, hSmod]
  exact ⟨rfl, rfl, rfl⟩

end Words

------------------------------------------------------------
-- Machine Integers
------------------------------------------------------------

namespace Number

variable {op : BinaryOp}

/- Integers of 32 bits are combined as words. -/
theorem combine32_eq
    (hOp : op.combinesWhole = true)
    (x y : Int32) :
    combine32 op x y
      = (op.combineWord x.toBitVec y.toBitVec).map
          Int32.ofBitVec := by
  have hZero : y.toBitVec = 0 ↔ y = 0 := Int32.toBitVec_inj (b := 0)
  cases op with
  | div | rem =>
    by_cases h : y = 0
    · simp [combine32, BinaryOp.combineWord, h, Except.map]
    · simp only [combine32, BinaryOp.combineWord, hZero, h]
      rfl
  | _ => first | rfl | cases hOp

/- Integers of 64 bits are combined as words. -/
theorem combine64_eq
    (hOp : op.combinesWhole = true)
    (x y : Int64) :
    combine64 op x y
      = (op.combineWord x.toBitVec y.toBitVec).map
          Int64.ofBitVec := by
  have hZero : y.toBitVec = 0 ↔ y = 0 := Int64.toBitVec_inj (b := 0)
  cases op with
  | div | rem =>
    by_cases h : y = 0
    · simp [combine64, BinaryOp.combineWord, h, Except.map]
    · simp only [combine64, BinaryOp.combineWord, hZero, h]
      rfl
  | _ => first | rfl | cases hOp

/- The lowest bits of a word are the integer modulo a power. -/
theorem toNat_and
    (c : Int64)
    {k : Nat}
    (hk : k ≤ 64) :
    c.toBitVec.toNat &&& 2 ^ k - 1
      = (c.toInt % (2 ^ k : Nat)).toNat := by
  have hDvd : ((2 ^ k : Nat) : Int) ∣ 2 ^ 64 := by
    exact_mod_cast Nat.pow_dvd_pow 2 hk
  have hWord := toInt_emod c.toBitVec
  rw [Int64.toInt_toBitVec] at hWord
  rw [Nat.and_two_pow_sub_one_eq_mod, ← Int.emod_emod_of_dvd _ hDvd,
    hWord]
  norm_cast

/- An integer of 32 bits is shifted as a word. -/
theorem shift32_exact
    (hOp : op.isShift = true)
    (v : Int32)
    (c : Int64) :
    (shift32 op v c).toInt
      = (op.exact 32 v.toInt c.toInt).bmod (2 ^ 32) := by
  have hMask : (c &&& 31).toBitVec.toNat
      = (c.toInt % (32 : Nat)).toNat := by
    rw [Int64.toBitVec_and, BitVec.toNat_and]
    exact toNat_and c (k := 5) (by omega)
  have hCount : (c &&& 31).toInt32.toBitVec.toNat
      = (c.toInt % (32 : Nat)).toNat := by
    rw [Int64.toBitVec_toInt32,
      BitVec.signExtend_eq_setWidth_of_le _ (by omega),
      BitVec.toNat_setWidth, hMask]
    omega
  have hSmall : (c &&& 31).toInt32.toBitVec.toNat < 32 := by omega
  have hWord : (shift32 op v c).toBitVec
      = op.shiftWord v.toBitVec (c.toInt % (32 : Nat)).toNat := by
    rcases shift_of_lt v.toBitVec (m := 32) (by decide) hSmall with
      ⟨hLeft, hRight, hUnsigned⟩
    rw [← hCount]
    cases op with
    | shl => exact (Int32.toBitVec_shiftLeft _ _).trans hLeft
    | shr => exact (Int32.toBitVec_shiftRight _ _).trans hRight
    | ushr => exact hUnsigned
    | _ => cases hOp
  rw [← Int32.toInt_toBitVec, hWord, BinaryOp.shiftWord_eq hOp,
    BitVec.toInt_ofInt]
  rfl

/- An integer of 64 bits is shifted as a word. -/
theorem shift64_exact
    (hOp : op.isShift = true)
    (v c : Int64) :
    (shift64 op v c).toInt
      = (op.exact 64 v.toInt c.toInt).bmod (2 ^ 64) := by
  have hCount : (c &&& 63).toBitVec.toNat
      = (c.toInt % (64 : Nat)).toNat := by
    rw [Int64.toBitVec_and, BitVec.toNat_and]
    exact toNat_and c (k := 6) (by omega)
  have hSmall : (c &&& 63).toBitVec.toNat < 64 := by omega
  have hWord : (shift64 op v c).toBitVec
      = op.shiftWord v.toBitVec (c.toInt % (64 : Nat)).toNat := by
    rcases shift_of_lt v.toBitVec (m := 64) (by decide) hSmall with
      ⟨hLeft, hRight, hUnsigned⟩
    rw [← hCount]
    cases op with
    | shl => exact (Int64.toBitVec_shiftLeft _ _).trans hLeft
    | shr => exact (Int64.toBitVec_shiftRight _ _).trans hRight
    | ushr => exact hUnsigned
    | _ => cases hOp
  rw [← Int64.toInt_toBitVec, hWord, BinaryOp.shiftWord_eq hOp,
    BitVec.toInt_ofInt]
  rfl

------------------------------------------------------------
-- Numbers
------------------------------------------------------------

/- The type of a promoted integer and the integer. -/
def integer? : Number → Option (Ty × Int)
  | .int v => some (.int, v.toInt)
  | .long v => some (.long, v.toInt)
  | _ => none

variable {a b : Number}
variable {s t : Ty}
variable {x y : Int}

/- The order of two promoted integers is that of the integers. -/
theorem order_exact
    (ha : a.integer? = some (s, x))
    (hb : b.integer? = some (t, y)) :
    order a b = some (compare x y) := by
  have h32 : ∀ v u : Int32, compare v u = compare v.toInt u.toInt := by
    intro v u
    simp only [compare, compareOfLessAndEq, Int32.lt_iff_toInt_lt,
      ← Int32.toInt_inj]
  have h64 : ∀ v u : Int64, compare v u = compare v.toInt u.toInt := by
    intro v u
    simp only [compare, compareOfLessAndEq, Int64.lt_iff_toInt_lt,
      ← Int64.toInt_inj]
  cases a with
  | int v =>
    cases ha
    cases b with
    | int u =>
      cases hb
      exact congrArg some (h32 v u)
    | long u =>
      cases hb
      have hOrder := h64 v.toInt64 u
      rw [Int32.toInt_toInt64] at hOrder
      exact congrArg some hOrder
    | _ => cases hb
  | long v =>
    cases ha
    cases b with
    | int u =>
      cases hb
      have hOrder := h64 v u.toInt64
      rw [Int32.toInt_toInt64] at hOrder
      exact congrArg some hOrder
    | long u =>
      cases hb
      exact congrArg some (h64 v u)
    | _ => cases hb
  | _ => cases ha

/- What a comparison asks for is a relation of the integers. -/
theorem holds_compare
    (hOp : op.isComparison = true)
    (x y : Int) : holds op (some (compare x y)) = op.relates x y := by
  rcases lt_trichotomy x y with hLess | rfl | hGreater
  · have hOrder : compare x y = .lt := compare_lt_iff_lt.mpr hLess
    rw [hOrder]
    cases op <;>
      first
      | (cases hOp; done)
      | simp [holds, BinaryOp.relates, hLess, hLess.ne, hLess.le,
          hLess.not_gt, hLess.not_ge]
  · have hOrder : compare x x = .eq := compare_eq_iff_eq.mpr rfl
    rw [hOrder]
    cases op <;>
      first
      | (cases hOp; done)
      | simp [holds, BinaryOp.relates]
  · have hOrder : compare x y = .gt := compare_gt_iff_gt.mpr hGreater
    rw [hOrder]
    cases op <;>
      first
      | (cases hOp; done)
      | simp [holds, BinaryOp.relates, hGreater, hGreater.ne',
          hGreater.le, hGreater.not_gt, hGreater.not_ge]

/- A promoted integer is an integer of 32 or of 64 bits. -/
theorem integer_cases
    (h : a.integer? = some (s, x)) :
    (∃ v, a = .int v ∧ s = .int ∧ v.toInt = x) ∨
      ∃ v, a = .long v ∧ s = .long ∧ v.toInt = x := by
  cases a with
  | int v =>
    cases h
    exact .inl ⟨v, rfl, rfl, rfl⟩
  | long v =>
    cases h
    exact .inr ⟨v, rfl, rfl, rfl⟩
  | _ => cases h

/- Widening a promoted integer to 64 bits keeps it. -/
theorem toInt64_exact
    (h : a.integer? = some (s, x)) : a.toInt64.toInt = x := by
  rcases integer_cases h with ⟨v, rfl, _, rfl⟩ | ⟨v, rfl, _, rfl⟩
  · exact Int32.toInt_toInt64 v
  · rfl

/-
  What an operator makes of two integers that do not compare: an
  error if it divides by zero, otherwise the reduced exact
  result in a type.
-/
def Yields
    (r : Except NumberError Number)
    (op : BinaryOp)
    (ty : Ty)
    (x y : Int) : Prop :=
  (op.dividesByZero y → r = .error .divideByZero) ∧
    (¬ op.dividesByZero y →
      ∃ n, r = .ok n ∧
        n.integer? = some (ty, ty.reduce (op.exact ty.width x y)))

/- Combined words yield the exact result as a number. -/
theorem yields_combineWord
    {α : Type}
    {ofWord : BitVec s.width → α}
    {ofInteger : α → Number}
    (hOp : op.combinesWhole = true)
    (hWord : ∀ z,
      (ofInteger (ofWord z)).integer? = some (s, z.toInt))
    (x y : BitVec s.width) :
    Yields (((op.combineWord x y).map ofWord).map ofInteger)
      op s x.toInt y.toInt := by
  constructor
  · intro hZero
    rw [BinaryOp.combineWord_of_dividesByZero x hZero]
    rfl
  · intro hDefined
    rw [BinaryOp.combineWord_eq hOp x hDefined]
    refine ⟨_, rfl, ?_⟩
    rw [hWord, BitVec.toInt_ofInt, Ty.reduce]

/- Integers are combined in the wider of their types. -/
theorem combine_exact
    (hOp : op.combinesWhole = true)
    (ha : a.integer? = some (s, x))
    (hb : b.integer? = some (t, y)) :
    Yields (combine op a b) op (Ty.promote s t) x y := by
  have h32 : ∀ v u : Int32, Yields ((combine32 op v u).map .int)
      op .int v.toInt u.toInt := by
    intro v u
    rw [combine32_eq hOp]
    exact yields_combineWord (s := .int) hOp (fun _ => rfl) _ _
  have h64 : ∀ v u : Int64, Yields ((combine64 op v u).map .long)
      op .long v.toInt u.toInt := by
    intro v u
    rw [combine64_eq hOp]
    exact yields_combineWord (s := .long) hOp (fun _ => rfl) _ _
  have hLong := h64 a.toInt64 b.toInt64
  rw [toInt64_exact ha, toInt64_exact hb] at hLong
  rcases integer_cases ha with ⟨v, rfl, rfl, rfl⟩ | ⟨v, rfl, rfl, _⟩
  · rcases integer_cases hb with
      ⟨u, rfl, rfl, rfl⟩ | ⟨u, rfl, rfl, _⟩
    · exact h32 v u
    · exact hLong
  · rcases integer_cases hb with ⟨u, rfl, rfl, _⟩ | ⟨u, rfl, rfl, _⟩
    · exact hLong
    · exact hLong

/- An integer is shifted in its own type, whatever the count. -/
theorem shift_exact
    (hOp : op.isShift = true)
    (ha : a.integer? = some (s, x))
    (hb : b.integer? = some (t, y)) :
    Yields (shift op a b) op s x y := by
  have hCount := toInt64_exact hb
  constructor
  · rintro ⟨rfl | rfl, _⟩
    · cases hOp
    · cases hOp
  · intro _
    rcases integer_cases ha with
      ⟨v, rfl, rfl, rfl⟩ | ⟨v, rfl, rfl, rfl⟩
    · have hExact := shift32_exact hOp v b.toInt64
      rw [hCount] at hExact
      exact ⟨_, rfl, congrArg (fun i => some (Ty.int, i)) hExact⟩
    · have hExact := shift64_exact hOp v b.toInt64
      rw [hCount] at hExact
      exact ⟨_, rfl, congrArg (fun i => some (Ty.long, i)) hExact⟩

/-
  An operator on promoted integers compares them, or it is exact
  in the type of a shifted integer or of both integers.
-/
theorem binary_exact
    (hStrict : op.isShortCircuit = false)
    (ha : a.integer? = some (s, x))
    (hb : b.integer? = some (t, y)) :
    if op.isComparison then
      binary op a b = .ok (.bool (op.relates x y))
    else
      ∃ r, binary op a b = r.map scalar ∧
        Yields r op (if op.isShift then s else Ty.promote s t) x y := by
  unfold binary
  cases hComparison : op.isComparison with
  | true =>
    have hShift : op.isShift = false := by
      cases op <;> first | rfl | cases hComparison
    simp only [hShift, Bool.false_eq_true, if_false, if_true]
    rw [order_exact ha hb, holds_compare hComparison]
  | false =>
    simp only [Bool.false_eq_true, if_false]
    cases hShift : op.isShift with
    | true => exact ⟨_, rfl, shift_exact hShift ha hb⟩
    | false =>
      have hWhole : op.combinesWhole = true := by
        cases op <;>
          first
          | rfl
          | (cases hComparison; done)
          | (cases hShift; done)
          | cases hStrict
      exact ⟨_, rfl, combine_exact hWhole ha hb⟩

/- The opposite of an integer and its complement are exact. -/
theorem unary_exact
    (ha : a.integer? = some (s, x)) :
    a.negate.integer? = some (s, s.reduce (UnaryOp.neg.exact x)) ∧
      ∃ n, a.complement = some n ∧
        n.integer? = some (s, s.reduce (UnaryOp.bitNot.exact x)) := by
  have hNot : ∀ {w : Nat} (v : BitVec w),
      (~~~v).toInt = (v.toInt.lnot).bmod (2 ^ w) := by
    intro w v
    have hWord : ~~~v = BitVec.ofInt w v.toInt.lnot := by
      refine BitVec.eq_of_getLsbD_eq fun i hi => ?_
      have hBit := getLsbD_ofInt (w := w) v.toInt i
      rw [BitVec.ofInt_toInt] at hBit
      rw [BitVec.getLsbD_not, getLsbD_ofInt, Int.testBit_lnot, hBit]
      simp [hi]
    rw [hWord, BitVec.toInt_ofInt]
  rcases integer_cases ha with
    ⟨v, rfl, rfl, rfl⟩ | ⟨v, rfl, rfl, rfl⟩
  · exact ⟨congrArg (fun i => some (Ty.int, i)) (Int32.toInt_neg v),
      _, rfl, congrArg (fun i => some (Ty.int, i)) (hNot v.toBitVec)⟩
  · exact ⟨congrArg (fun i => some (Ty.long, i)) (Int64.toInt_neg v),
      _, rfl, congrArg (fun i => some (Ty.long, i)) (hNot v.toBitVec)⟩

end Number

------------------------------------------------------------
-- Values
------------------------------------------------------------

section Values

variable {a b : Val}
variable {s t : Ty}
variable {x y : Int}

/- Promotion keeps the integer that a value stands for. -/
theorem Val.number_of_integer
    (h : a.integer? = some (s, x)) :
    a.asBool? = none ∧ s.isIntegral = true ∧
      ∃ n, a.number? = some n ∧
        n.integer? = some (s.promoteUnary, x) := by
  have hChar : ∀ c : Char, (Int32.ofNat c.toNat).toInt = c.toNat := by
    intro c
    have hBound : c.toNat < 2 ^ 31 := by
      unfold Char.toNat
      rcases c.valid with hLow | ⟨_, hHigh⟩ <;> omega
    exact Int32.toInt_ofNat_of_lt hBound
  cases a with
  | scalar v =>
    cases v with
    | byte v =>
      cases h
      exact ⟨rfl, rfl, _, rfl, congrArg (fun i => some (Ty.int, i))
        (Int8.toInt_toInt32 v)⟩
    | short v =>
      cases h
      exact ⟨rfl, rfl, _, rfl, congrArg (fun i => some (Ty.int, i))
        (Int16.toInt_toInt32 v)⟩
    | int v =>
      cases h
      exact ⟨rfl, rfl, _, rfl, rfl⟩
    | long v =>
      cases h
      exact ⟨rfl, rfl, _, rfl, rfl⟩
    | char c =>
      cases h
      exact ⟨rfl, rfl, _, rfl,
        congrArg (fun i => some (Ty.int, i)) (hChar c)⟩
    | _ => cases h
  | _ => cases h

/- Values that stand for numbers are combined as numbers. -/
theorem Val.binary_of_number
    {m n : Number}
    (haBool : a.asBool? = none)
    (hbBool : b.asBool? = none)
    (hm : a.number? = some m)
    (hn : b.number? = some n)
    (op : BinaryOp) :
    Val.binary op a b
      = ((Number.binary op m n).map Val.scalar).mapError .number := by
  cases hResult : Number.binary op m n with
  | ok s =>
    simp [Val.binary, haBool, hbBool, hm, hn, hResult, Except.map,
      Except.mapError]
  | error e =>
    simp [Val.binary, haBool, hbBool, hm, hn, hResult, Except.map,
      Except.mapError]

/- The static type of an operation on integers. -/
theorem BinaryOp.resultTy_of_isIntegral
    {op : BinaryOp}
    (hStrict : op.isShortCircuit = false)
    (hOther : op.isComparison = false)
    (hs : s.isIntegral = true)
    (ht : t.isIntegral = true) :
    op.resultTy s t
      = if op.isShift then s.promoteUnary
        else Ty.promote s.promoteUnary t.promoteUnary := by
  have hText : ¬(op = .add ∧ (s = .str ∨ t = .str)) := by
    rintro ⟨_, rfl | rfl⟩
    · cases hs
    · cases ht
  have hBools : ¬(s = .bool ∧ t = .bool) := by
    rintro ⟨rfl, _⟩
    cases hs
  unfold resultTy
  rw [hOther, hStrict, Bool.or_self, if_neg (by decide),
    if_neg hText, if_neg hBools, Ty.promote_promoteUnary
      (Ty.isNumeric_of_isIntegral hs) (Ty.isNumeric_of_isIntegral ht)]

/- A number stands for the same integer as a scalar. -/
theorem Number.integer_scalar (n : Number) :
    (Val.scalar n.scalar).integer? = n.integer? := by
  cases n <;> rfl

/-
  An operator on values that stand for integers compares them,
  or it is exact in its static type.
-/
theorem Val.binary_exact
    {op : BinaryOp}
    (hStrict : op.isShortCircuit = false)
    (ha : a.integer? = some (s, x))
    (hb : b.integer? = some (t, y)) :
    if op.isComparison then
      Val.binary op a b = .ok (.bool (op.relates x y))
    else
      let ty := op.resultTy s t
      (op.dividesByZero y →
        Val.binary op a b = .error (.number .divideByZero)) ∧
      (¬ op.dividesByZero y →
        ∃ v, Val.binary op a b = .ok v ∧
          v.integer?
            = some (ty, ty.reduce (op.exact ty.width x y))) := by
  rcases number_of_integer ha with ⟨haBool, hs, m, hm, hmx⟩
  rcases number_of_integer hb with ⟨hbBool, ht, n, hn, hny⟩
  have hBinary := binary_of_number haBool hbBool hm hn op
  have hExact := Number.binary_exact hStrict hmx hny
  cases hComparison : op.isComparison with
  | true =>
    rw [hComparison, if_pos rfl] at hExact
    rw [if_pos rfl, hBinary, hExact]
    rfl
  | false =>
    rw [hComparison, if_neg (by decide)] at hExact
    rcases hExact with ⟨r, hr, hZero, hOk⟩
    rw [← BinaryOp.resultTy_of_isIntegral hStrict hComparison hs ht]
      at hOk
    rw [if_neg (by decide), hBinary, hr]
    constructor
    · intro hDivides
      rw [hZero hDivides]
      rfl
    · intro hDefined
      rcases hOk hDefined with ⟨k, rfl, hk⟩
      exact ⟨_, rfl, k.integer_scalar.trans hk⟩

/- The opposite and the complement are exact. -/
theorem Val.unary_exact
    {op : UnaryOp}
    (hNot : op ≠ .not)
    (ha : a.integer? = some (s, x)) :
    ∃ v, Val.unary op a = .ok v ∧
      v.integer?
        = some
            (op.resultTy s, (op.resultTy s).reduce (op.exact x)) := by
  rcases number_of_integer ha with ⟨haBool, _, m, hm, hmx⟩
  rcases Number.unary_exact hmx with ⟨hNegate, k, hk, hComplement⟩
  cases op with
  | neg =>
    refine ⟨.scalar m.negate.scalar, ?_, ?_⟩
    · simp [Val.unary, haBool, hm]
    · exact m.negate.integer_scalar.trans hNegate
  | bitNot =>
    refine ⟨.scalar k.scalar, ?_, ?_⟩
    · simp [Val.unary, haBool, hm, hk]
    · exact k.integer_scalar.trans hComplement
  | not => exact absurd rfl hNot

/-
  Operators on integers and characters are exact. Division by
  zero is the only error; a comparison holds as it does for the
  integers; every other operator gives the exact result, reduced
  to the range of the static type of the operation, as a value
  of this type.
-/
theorem Val.operators_exact
    (ha : a.integer? = some (s, x))
    (hb : b.integer? = some (t, y)) :
    (∀ op : BinaryOp, op.isShortCircuit = false →
      (Val.binary op a b = .error (.number .divideByZero)
        ↔ (op = .div ∨ op = .rem) ∧ y = 0) ∧
      (op.isComparison = true →
        Val.binary op a b = .ok (.bool (op.relates x y))) ∧
      (op.isComparison = false →
        ¬((op = .div ∨ op = .rem) ∧ y = 0) →
          let ty := op.resultTy s t
          ∃ v, Val.binary op a b = .ok v ∧
            v.integer?
              = some (ty, ty.reduce (op.exact ty.width x y)))) ∧
    ∀ op : UnaryOp, op ≠ .not →
      ∃ v, Val.unary op a = .ok v ∧
        v.integer?
          = some
              (op.resultTy s, (op.resultTy s).reduce (op.exact x)) := by
  refine ⟨fun op hStrict => ?_, fun op hNot => unary_exact hNot ha⟩
  have hExact := binary_exact hStrict ha hb
  cases hComparison : op.isComparison with
  | true =>
    have hOther : ¬(op = .div ∨ op = .rem) := by
      rintro (rfl | rfl) <;> cases hComparison
    rw [hComparison, if_pos rfl] at hExact
    rw [hExact]
    exact ⟨⟨nofun, fun h => absurd h.1 hOther⟩, fun _ => rfl, nofun⟩
  | false =>
    rw [hComparison, if_neg (by decide)] at hExact
    rcases hExact with ⟨hZero, hOk⟩
    refine ⟨⟨fun hError => ?_, hZero⟩, nofun, fun _ => hOk⟩
    by_contra hDefined
    rcases hOk hDefined with ⟨v, hv, _⟩
    rw [hv] at hError
    cases hError

/- The least integer of 32 bits, divided by a byte that is -1. -/
theorem Val.operators_exact_least :
    (Val.integer? (.int Int32.minValue)
        = some (.int, -2147483648) ∧
      Val.integer? (.scalar (.byte (-1))) = some (.byte, -1)) ∧
    ∃ v, Val.binary .div (.int Int32.minValue)
        (.scalar (.byte (-1))) = .ok v ∧
      v.integer? = some (.int, -2147483648) := by
  have hLeast : Val.integer? (.int Int32.minValue)
      = some (.int, -2147483648) := by decide
  have hByte : Val.integer? (.scalar (.byte (-1)))
      = some (.byte, -1) := by decide
  refine ⟨⟨hLeast, hByte⟩, ?_⟩
  exact ((Val.operators_exact hLeast hByte).1 .div rfl).2.2 rfl
    (by decide)

end Values

end ExecTrace
