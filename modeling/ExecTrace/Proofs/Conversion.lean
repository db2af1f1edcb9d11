import ExecTrace.Machine.Val

/-
  Conversions to static types: a value that already is a value
  of a type is not changed by the conversion to it, and what a
  conversion gives is not changed by the same conversion again.

  Main declarations:
    * `Val.fits`
    * `Val.convert_of_fits`
    * `Val.convert_convert`
-/

namespace ExecTrace

------------------------------------------------------------
-- Code Units
------------------------------------------------------------

/- A surrogate is replaced, and every other unit is kept. -/
theorem toNat_charOfUnit
    (u : UInt16) :
    (charOfUnit u).toNat =
      if 0xD800 ≤ u.toNat ∧ u.toNat ≤ 0xDFFF then 0xFFFD
      else u.toNat := by
  unfold charOfUnit
  split
  · rfl
  · rename_i hUnit
    have hBound := u.toNat_lt
    have hValid : u.toNat.isValidChar := by
      unfold Nat.isValidChar
      omega
    rw [Char.ofNat, dif_pos hValid]
    rfl

/- A character of the basic plane is the one of its unit. -/
theorem charOfUnit_ofNat
    (c : Char)
    (hSmall : c.toNat ≤ 0xFFFF) :
    charOfUnit (UInt16.ofNat c.toNat) = c := by
  have hUnit : (UInt16.ofNat c.toNat).toNat = c.toNat := by
    rw [UInt16.toNat_ofNat']
    omega
  have hValid : c.toNat.isValidChar := c.valid
  apply Char.toNat_inj.mp
  rw [toNat_charOfUnit, hUnit]
  unfold Nat.isValidChar at hValid
  split
  · omega
  · rfl

/- The character of a unit lies in the basic plane. -/
theorem toNat_charOfUnit_le
    (u : UInt16) :
    (charOfUnit u).toNat ≤ 0xFFFF := by
  have hBound := u.toNat_lt
  rw [toNat_charOfUnit]
  split <;> omega

------------------------------------------------------------
-- Values of a Type
------------------------------------------------------------

/-
  Whether a value is a value of a type: the matching scalar for
  a primitive type, and anything but `void` for a reference
  type. Nothing is asked of what has no type.
-/
def Val.fits : Ty → Val → Bool
  | .void, _ => true
  | .bool, .scalar (.bool _) => true
  | .byte, .scalar (.byte _) => true
  | .short, .scalar (.short _) => true
  | .int, .scalar (.int _) => true
  | .long, .scalar (.long _) => true
  | .float, .scalar (.float _) => true
  | .double, .scalar (.double _) => true
  | .char, .scalar (.char c) => decide (c.toNat ≤ 0xFFFF)
  | .str, v => v != .void
  | .null, v => v != .void
  | .cls _, v => v != .void
  | .array _, v => v != .void
  | _, _ => false

/- A conversion to a type without scalars changes no scalar. -/
theorem Scalar.convert_of_not_primitive
    (s : Scalar)
    (ty : Ty)
    (hTy : ty.isPrimitive = false) :
    s.convert ty = s := by
  unfold Scalar.convert
  cases s.number? with
  | none => rfl
  | some n =>
    cases ty <;>
      first
      | rfl
      | simp [Ty.isPrimitive, Ty.isNumeric, Ty.isIntegral] at hTy

/- Only scalars are changed by a conversion. -/
theorem Val.convert_of_not_primitive
    (v : Val)
    (ty : Ty)
    (hTy : ty.isPrimitive = false) :
    v.convert ty = v := by
  cases v with
  | scalar s =>
    simp only [Val.convert, s.convert_of_not_primitive ty hTy]
  | _ => rfl

/- A scalar of a type is not changed by the conversion to it. -/
theorem Scalar.convert_of_fits
    (ty : Ty)
    (s : Scalar)
    (hTy : ty.isPrimitive = true)
    (hFits : Val.fits ty (.scalar s) = true) :
    s.convert ty = s := by
  cases ty <;> cases s <;>
    simp_all [Val.fits, Ty.isPrimitive, Ty.isNumeric,
      Ty.isIntegral] <;>
    simp_all [Scalar.convert, Scalar.number?, Number.convert,
      Number.toInt64, Number.toInt32, Number.toSingle,
      Number.toDouble, charOfUnit_ofNat]

/- A value of a type is not changed by the conversion to it. -/
theorem Val.convert_of_fits
    (ty : Ty)
    (v : Val)
    (hFits : Val.fits ty v = true) :
    v.convert ty = v := by
  by_cases hTy : ty.isPrimitive = true
  · cases v with
    | scalar s =>
      simp only [Val.convert, s.convert_of_fits ty hTy hFits]
    | _ => rfl
  · exact v.convert_of_not_primitive ty (by simpa using hTy)

------------------------------------------------------------
-- Repeated Conversions
------------------------------------------------------------

/- What a number is converted to is a value of the type. -/
theorem Number.fits_convert
    (n : Number)
    (ty : Ty)
    (s : Scalar)
    (hTy : ty.isPrimitive = true)
    (hBool : ty ≠ .bool) :
    Val.fits ty (.scalar (n.convert ty s)) = true := by
  cases ty <;>
    simp_all [Number.convert, Val.fits, Ty.isPrimitive,
      Ty.isNumeric, Ty.isIntegral, toNat_charOfUnit_le]

/- Converting again to the same type changes nothing. -/
theorem Scalar.convert_convert
    (s : Scalar)
    (ty : Ty) :
    (s.convert ty).convert ty = s.convert ty := by
  by_cases hTy : ty.isPrimitive = true
  · cases hNumber : s.number? with
    | none => simp [Scalar.convert, hNumber]
    | some n =>
      by_cases hBool : ty = .bool
      · subst hBool
        simp [Scalar.convert, hNumber, Number.convert]
      · have hConvert : s.convert ty = n.convert ty s := by
          simp [Scalar.convert, hNumber]
        have hFits := n.fits_convert ty s hTy hBool
        have hFixed := Val.convert_of_fits ty _ hFits
        rw [hConvert]
        simpa [Val.convert] using hFixed
  · have hOther := Bool.eq_false_iff.mpr hTy
    rw [s.convert_of_not_primitive ty hOther]
    exact s.convert_of_not_primitive ty hOther

/- Converting again to the same type changes nothing. -/
@[simp] theorem Val.convert_convert
    (v : Val)
    (ty : Ty) :
    (v.convert ty).convert ty = v.convert ty := by
  cases v with
  | scalar s => simp only [Val.convert, s.convert_convert]
  | _ => rfl

/- A value that was converted to a type. -/
def Val.HeldAs
    (ty : Ty)
    (v : Val) : Prop :=
  ∃ u : Val, v = u.convert ty

/- A value as it is found in a place where it was put. -/
def Val.Settled (v u : Val) : Prop :=
  u = v ∨ ∃ ty : Ty, u = v.convert ty

/- A conversion neither makes nor removes truth values. -/
@[simp] theorem Val.convert_bool
    (b : Bool)
    (ty : Ty) :
    (Val.bool b).convert ty = .bool b := by
  cases ty <;> rfl

end ExecTrace
