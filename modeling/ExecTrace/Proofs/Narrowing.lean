import ExecTrace.Proofs.Conversion
import ExecTrace.Proofs.Integers

/-
  Conversions of integers to types of integers. Such a conversion
  keeps the lowest bits of the integer, read as a signed word, so
  a value may be converted to a type that is at least as wide on
  its way, or to the same type before, without a difference.

  Main declarations:
    * `Ty.wholeBits?`
    * `Number.integer_convert` and `Val.integer_convert`
    * `Val.convert_eq_iff`
    * `Val.conversions_compose`
-/

namespace ExecTrace

/- The number of bits of a type of integers. -/
def Ty.wholeBits? : Ty → Option Nat
  | .byte => some 8
  | .short => some 16
  | .int => some 32
  | .long => some 64
  | _ => none

section Narrowing

variable {s t ty : Ty}
variable {x y : Int}
variable {bits : Nat}

/-
  A promoted integer that is converted to a type of integers is
  reduced to the signed range of the type.
-/
theorem Number.integer_convert
    {n : Number}
    (hn : n.integer? = some (s, x))
    (hTy : ty.wholeBits? = some bits)
    (kept : Scalar) :
    (n.convert ty kept).integer?
      = some (ty, x.bmod (2 ^ bits)) := by
  have hLong : n.toInt64.toInt = x := toInt64_exact hn
  cases ty with
  | byte =>
    cases hTy
    rw [← hLong, ← Int64.toInt_toInt8]
    rfl
  | short =>
    cases hTy
    rw [← hLong, ← Int64.toInt_toInt16]
    rfl
  | int =>
    cases hTy
    rcases integer_cases hn with
      ⟨v, rfl, _, rfl⟩ | ⟨v, rfl, _, rfl⟩
    · have hRange : v.toInt.bmod (2 ^ 32) = v.toInt :=
        v.toInt_bmod_size
      rw [hRange]
      rfl
    · rw [← Int64.toInt_toInt32]
      rfl
  | long =>
    cases hTy
    have hRange : n.toInt64.toInt.bmod (2 ^ 64) = n.toInt64.toInt :=
      n.toInt64.toInt_bmod_size
    rw [← hLong, hRange]
    rfl
  | _ => cases hTy

/- The same for a value that stands for an integer. -/
theorem Val.integer_convert
    {v : Val}
    (hv : v.integer? = some (s, x))
    (hTy : ty.wholeBits? = some bits) :
    (v.convert ty).integer? = some (ty, x.bmod (2 ^ bits)) := by
  cases v with
  | scalar a =>
    rcases number_of_integer hv with ⟨_, _, n, hNumber, hn⟩
    have hConvert : a.convert ty = n.convert ty a := by
      unfold Scalar.convert
      rw [show a.number? = some n from hNumber]
    rw [convert, hConvert]
    exact Number.integer_convert hn hTy a
  | _ => cases hv

/- A value is told by its type and the integer it stands for. -/
theorem Val.integer_inj
    {v u : Val}
    (hv : v.integer? = some (s, x))
    (hu : u.integer? = some (s, x)) : v = u := by
  cases v with
  | scalar a =>
    cases u with
    | scalar b =>
      cases a <;> cases hv <;> cases b <;>
        simp_all [Val.integer?, Scalar.integer?, Int8.toInt_inj,
          Int16.toInt_inj, Int32.toInt_inj, Int64.toInt_inj,
          Char.toNat_inj]
    | _ => cases hu
  | _ => cases hv

/-
  Two values are converted to one if and only if the integers
  that they stand for have the same lowest bits.
-/
theorem Val.convert_eq_iff
    {v u : Val}
    (hv : v.integer? = some (s, x))
    (hu : u.integer? = some (t, y))
    (hTy : ty.wholeBits? = some bits) :
    v.convert ty = u.convert ty
      ↔ x.bmod (2 ^ bits) = y.bmod (2 ^ bits) := by
  have hLeft := integer_convert hv hTy
  have hRight := integer_convert hu hTy
  constructor
  · intro hSame
    have hBoth := hLeft.symm.trans ((congrArg _ hSame).trans hRight)
    exact (Prod.mk.inj (Option.some.inj hBoth)).2
  · intro hBits
    rw [hBits] at hLeft
    exact integer_inj hLeft hRight

/-
  A repeated conversion is harmless. To convert a value again to
  the type that it was converted to changes nothing, whatever the
  value and the type are. To convert an integer or a character to
  a type of integers first does not change what it is converted
  to after that, if that type is not wider.
-/
theorem Val.conversions_compose
    (v : Val) :
    (∀ ty, (v.convert ty).convert ty = v.convert ty) ∧
    ∀ wide narrow a b, v.integer?.isSome = true →
      wide.wholeBits? = some a → narrow.wholeBits? = some b →
        b ≤ a → (v.convert wide).convert narrow
          = v.convert narrow := by
  refine ⟨fun ty => v.convert_convert ty, ?_⟩
  intro wide narrow a b hv hWide hNarrow hWidth
  rcases Option.isSome_iff_exists.mp hv with ⟨⟨s, x⟩, hx⟩
  have hFirst := integer_convert hx hWide
  have hDivides : 2 ^ b ∣ 2 ^ a := Nat.pow_dvd_pow 2 hWidth
  exact (convert_eq_iff hFirst hx hNarrow).mpr
    (Int.bmod_bmod_of_dvd hDivides)

/- A long integer beyond 32 bits, as an `int` and as a byte. -/
theorem Val.conversions_compose_long :
    ((Val.scalar (.long 4294967551)).convert .int).convert .byte
      = .scalar (.byte (-1)) := by
  rw [(conversions_compose (.scalar (.long 4294967551))).2
    .int .byte 32 8 rfl rfl rfl (by decide)]
  rfl

/- A conversion to a narrower type on the way is a difference. -/
example :
    ((Val.int 300).convert .byte).convert .int
      ≠ (Val.int 300).convert .int := by
  decide

end Narrowing

end ExecTrace
