import ExecTrace.Proofs.Congruence
import ExecTrace.Proofs.Operands
import ExecTrace.Proofs.Simulation
import ExecTrace.Syntax.Build

/-
  Branches of conditionals. The static type of a conditional
  covers both branches if they have one type or numeric types,
  or if the type that is chosen is one of references. In all
  other cases a branch has a value that does not fit. Capturing
  the value then breaks an invariant, unless both branches are
  primitive.

  Main declarations:
    * `Val.isA` and `Ty.joins`
    * `Val.isA_conditionalTy`
    * `portrait?` and `snapshot_silent`
    * `Expr.conditional_covers_iff`
-/

namespace ExecTrace

open Run

------------------------------------------------------------
-- Values of a Static Type
------------------------------------------------------------

/-
  Whether a value is one of a type: the matching scalar for a
  primitive type, and anything that a reference may be, boxed
  scalars included, for a type of references.
-/
def Val.isA (ty : Ty) : Val → Bool
  | .void => false
  | .scalar s => Heap.scalarTy s == ty || ty.isReference
  | _ => ty.isReference

/-
  Whether a conditional with branches of two types has a type
  that covers both of them.
-/
def Ty.joins (onTrue onFalse : Ty) : Bool :=
  onTrue == onFalse
    || (onTrue.isNumeric && onFalse.isNumeric)
    || (onTrue.isReference
      && (onTrue != .null || onFalse.isReference))

section Types

variable {ty a b : Ty}
variable {v : Val}

/- A type that has values is primitive or one of references. -/
theorem Ty.isReference_or_isPrimitive
    (h : ty ≠ .void) :
    ty.isReference = true ∨ ty.isPrimitive = true := by
  cases ty <;>
    first
    | exact .inl rfl
    | exact .inr rfl
    | exact absurd rfl h

/- A primitive type is numeric or that of truth values. -/
theorem Ty.isNumeric_or_bool
    (h : ty.isPrimitive = true) :
    ty.isNumeric = true ∨ ty = .bool := by
  unfold isPrimitive at h
  rwa [Bool.or_eq_true, beq_iff_eq] at h

/- Anything that has a value may be a reference. -/
theorem Val.isA_of_isReference
    (h : ty.isReference = true) : v.isA ty = (v != .void) := by
  cases v <;> simp [isA, h]

/- Nothing without a value is of a type. -/
theorem Val.ne_void_of_isA (h : v.isA ty = true) : v ≠ .void := by
  rintro rfl
  cases h

/- A value of a primitive type is a scalar of this type. -/
theorem Val.scalar_of_isA
    (hTy : ty.isPrimitive = true)
    (h : v.isA ty = true) :
    ∃ s, v = .scalar s ∧ Heap.scalarTy s = ty := by
  have hOther := Ty.isReference_of_isPrimitive hTy
  cases v with
  | void => cases h
  | scalar s =>
    refine ⟨s, rfl, ?_⟩
    simpa [isA, hOther] using h
  | _ => cases hOther.symm.trans h

/- The default of a type is a value of it. -/
theorem Val.isA_defaultOf
    (h : ty ≠ .void) : (Val.defaultOf ty).isA ty = true := by
  cases ty <;>
    first
    | rfl
    | exact absurd rfl h

/- A conversion keeps what has no value. -/
theorem Val.convert_ne_void
    (h : v ≠ .void) : v.convert ty ≠ .void := by
  cases v with
  | void => exact absurd rfl h
  | scalar s => nofun
  | _ => exact h

/- A number that is converted to a numeric type is of the type. -/
theorem Number.scalarTy_convert
    (n : Number)
    (s : Scalar)
    (h : ty.isNumeric = true) :
    Heap.scalarTy (n.convert ty s) = ty := by
  cases ty <;> first | rfl | cases h

/- Scalars of numeric types are numbers. -/
theorem Scalar.number_of_isNumeric
    {s : Scalar}
    (h : (Heap.scalarTy s).isNumeric = true) :
    ∃ n, s.number? = some n := by
  cases s <;> first | exact ⟨_, rfl⟩ | cases h

/- Numbers may be converted to each other. -/
theorem Val.isA_convert_of_isNumeric
    (ha : a.isNumeric = true)
    (hTy : ty.isNumeric = true)
    (h : v.isA a = true) : (v.convert ty).isA ty = true := by
  have hPrimitive : a.isPrimitive = true := by
    simp [Ty.isPrimitive, ha]
  rcases scalar_of_isA hPrimitive h with ⟨s, rfl, rfl⟩
  rcases Scalar.number_of_isNumeric ha with ⟨n, hn⟩
  have hConvert : s.convert ty = n.convert ty s := by
    simp [Scalar.convert, hn]
  simp [convert, isA, hConvert, n.scalarTy_convert s hTy]

/- A conversion to the type of a value gives a value of the type. -/
theorem Val.isA_convert_self
    (h : v.isA ty = true) : (v.convert ty).isA ty = true := by
  have hTy : ty ≠ .void := by
    rintro rfl
    cases v with
    | scalar s => cases s <;> cases h
    | _ => cases h
  rcases Ty.isReference_or_isPrimitive hTy with hReference | hPrimitive
  · rw [isA_of_isReference hReference, bne_iff_ne]
    exact convert_ne_void (ne_void_of_isA h)
  · rcases Ty.isNumeric_or_bool hPrimitive with hNumeric | rfl
    · exact isA_convert_of_isNumeric hNumeric hNumeric h
    · rcases scalar_of_isA rfl h with ⟨s, rfl, hs⟩
      cases s with
      | bool b => rfl
      | _ => cases hs

------------------------------------------------------------
-- Types of Conditionals
------------------------------------------------------------

/- Two numbers have a numeric type in common. -/
theorem Ty.isNumeric_promote (a b : Ty) :
    (Ty.promote a b).isNumeric = true := by
  unfold promote
  repeat' split
  all_goals rfl

/-
  A conditional with a branch of references that are not null,
  or with two branches of references, is one of references.
-/
theorem Ty.isReference_conditionalTy
    (ha : a.isReference = true)
    (h : a ≠ .null ∨ b.isReference = true) :
    (Expr.conditionalTy a b).isReference = true := by
  have hNumber : ¬ (a.isNumeric && b.isNumeric) = true := by
    cases a <;> first | (cases ha; done) | nofun
  unfold Expr.conditionalTy
  rw [if_neg hNumber]
  split
  · exact ha
  · split
    next hNull => exact h.resolve_left fun hOther => hOther hNull
    next => exact ha

/- What a branch gives is of a type that covers both. -/
theorem Val.isA_conditionalTy
    (hJoins : a.joins b = true)
    {flag : Bool}
    (h : v.isA (if flag then a else b) = true) :
    (v.convert (Expr.conditionalTy a b)).isA
      (Expr.conditionalTy a b) = true := by
  by_cases hSame : a = b
  · subst hSame
    rw [ite_self] at h
    rw [Expr.conditionalTy, if_pos rfl]
    exact isA_convert_self h
  unfold Ty.joins at hJoins
  rw [beq_eq_false_iff_ne.mpr hSame, Bool.false_or, Bool.or_eq_true,
    Bool.and_eq_true, Bool.and_eq_true, Bool.or_eq_true,
    bne_iff_ne] at hJoins
  rcases hJoins with ⟨ha, hb⟩ | ⟨ha, hOther⟩
  · have hTy : Expr.conditionalTy a b = Ty.promote a b := by
      simp [Expr.conditionalTy, hSame, ha, hb]
    have hBranch : (if flag then a else b).isNumeric = true := by
      cases flag <;> assumption
    rw [hTy]
    exact isA_convert_of_isNumeric hBranch (Ty.isNumeric_promote a b) h
  · have hReference := Ty.isReference_conditionalTy ha hOther
    rw [isA_of_isReference hReference, bne_iff_ne]
    exact convert_ne_void (ne_void_of_isA h)

/- Between truth values and numbers nothing is converted. -/
theorem Scalar.convert_of_bool
    {s : Scalar}
    (h : ty = .bool ∨ Heap.scalarTy s = .bool) :
    s.convert ty = s := by
  unfold convert
  cases hn : s.number? with
  | none => rfl
  | some n =>
    rcases h with rfl | hBool
    · rfl
    · cases s <;> first | (cases hn; done) | cases hBool

/-
  If the type covers only one of the branches, then the default
  of the other branch is not of this type, which is primitive.
  It is null unless one branch is a truth value and the other
  one a number.
-/
theorem Val.not_isA_conditionalTy
    (ha : a ≠ .void)
    (hb : b ≠ .void)
    (hJoins : a.joins b = false) :
    (Expr.conditionalTy a b).isPrimitive = true ∧
      ∃ (flag : Bool) (u : Val),
        u.isA (if flag then a else b) = true ∧
        u.convert (Expr.conditionalTy a b) = u ∧
        u.isA (Expr.conditionalTy a b) = false ∧
        ((a.isPrimitive && b.isPrimitive) = false → u = .null) := by
  unfold Ty.joins at hJoins
  simp only [Bool.or_eq_false_iff, beq_eq_false_iff_ne,
    Bool.and_eq_false_iff, bne_eq_false_iff_eq] at hJoins
  rcases hJoins with ⟨⟨hSame, hNumbers⟩, hReferences⟩
  have hNumber : ¬ (a.isNumeric && b.isNumeric) = true := by
    rw [Bool.and_eq_true]
    rintro ⟨hLeft, hRight⟩
    rcases hNumbers with hNone | hNone
    · exact absurd (hNone.symm.trans hLeft) (by decide)
    · exact absurd (hNone.symm.trans hRight) (by decide)
  rcases Ty.isReference_or_isPrimitive ha with hReference | hPrimitive
  · rcases hReferences with hNone | ⟨rfl, hOther⟩
    · exact absurd (hNone.symm.trans hReference) (by decide)
    · have hTy : Expr.conditionalTy .null b = b := by
        rw [Expr.conditionalTy, if_neg hSame, if_neg hNumber,
          if_pos rfl]
      rw [hTy]
      refine ⟨?_, true, .null, rfl, rfl, hOther, fun _ => rfl⟩
      exact (Ty.isReference_or_isPrimitive hb).resolve_left
        fun h => absurd (hOther.symm.trans h) (by decide)
  · have hOther := Ty.isReference_of_isPrimitive hPrimitive
    have hTy : Expr.conditionalTy a b = a := by
      have hNull : a ≠ .null := by
        rintro rfl
        cases hPrimitive
      rw [Expr.conditionalTy, if_neg hSame, if_neg hNumber,
        if_neg hNull]
    rw [hTy]
    refine ⟨hPrimitive, false, ?_⟩
    rcases Ty.isReference_or_isPrimitive hb with hNull | hScalar
    · refine ⟨.null, ?_, rfl, hOther, fun _ => rfl⟩
      exact hNull
    · rcases scalar_of_isA hScalar (isA_defaultOf hb) with
        ⟨s, hs, hsTy⟩
      have hBool : a = .bool ∨ Heap.scalarTy s = .bool := by
        rw [hsTy]
        rcases Ty.isNumeric_or_bool hPrimitive with hLeft | hLeft
        · rcases Ty.isNumeric_or_bool hScalar with hRight | hRight
          · simp [hLeft, hRight] at hNumber
          · exact .inr hRight
        · exact .inl hLeft
      refine ⟨.scalar s, ?_, ?_, ?_, ?_⟩
      · rw [← hs]
        exact isA_defaultOf hb
      · rw [convert, Scalar.convert_of_bool hBool]
      · simp [isA, hsTy, hOther, Ne.symm hSame]
      · intro hNone
        rw [hPrimitive, hScalar] at hNone
        cases hNone

end Types

------------------------------------------------------------
-- Captures
------------------------------------------------------------

/-
  How a value is captured as a kind, if the kind admits it. The
  items of an array are captured by `inner`.
-/
def portrait?
    (p : Program)
    (invoke : Invoker)
    (inner : Kind → Val → Run Snapshot)
    (kind : Kind)
    (v : Val) : Option (Run Snapshot) :=
  match kind.scalarTy?, v with
  | some ty, .scalar s => some (pure (.scalar (s.convert ty)))
  | some _, _ => none
  | none, .void => none
  | none, .null => some (pure Snapshot.null)
  | none, .scalar s =>
    (Val.scalar s).boxedClass?.map fun cls => do
      let id ← freshId
      pure (.ref id cls ((← get).heap.text (.scalar s)))
  | none, .arr a =>
    some (if kind = .array then do
        let h := (← get).heap
        let items ← (h.itemsOf a).toList.mapM
          (inner ((h.elementOf a).kind?.getD .reference))
        pure (Snapshot.array items)
      else referenceSnapshot p invoke (.arr a))
  | none, v => some (referenceSnapshot p invoke v)

section Captures

variable {p : Program}
variable {invoke : Invoker}
variable {inner : Kind → Val → Run Snapshot}
variable {kind : Kind}
variable {ty a b : Ty}
variable {v : Val}

/- What a kind does not admit breaks an invariant. -/
theorem snapshot_silent
    (p : Program)
    (invoke : Invoker)
    (depth : Nat)
    (kind : Kind)
    (v : Val) :
    snapshot .silent p invoke (depth + 1) kind v
      = (portrait? p invoke (snapshot .silent p invoke depth) kind
          v).getD (wrongKind kind v) := by
  simp only [snapshot, watch_silent, pure_bind]
  unfold portrait?
  cases kind.scalarTy? with
  | some ty => cases v <;> rfl
  | none =>
    cases v with
    | scalar s => cases s <;> rfl
    | _ => rfl

/- A kind of scalars admits scalars, another one all values. -/
theorem isSome_portrait_iff
    (hKind : ty.kind? = some kind) :
    (portrait? p invoke inner kind v).isSome = true
      ↔ (ty.isReference = true ∧ v ≠ .void) ∨
        (ty.isPrimitive = true ∧ ∃ s, v = .scalar s) := by
  have hBoxed : ∀ s, ∃ cls,
      (Val.scalar s).boxedClass? = some cls := by
    intro s
    cases s <;> exact ⟨_, rfl⟩
  have hOther : ty.isPrimitive = true → ty.isReference = false :=
    Ty.isReference_of_isPrimitive
  unfold portrait?
  cases hScalar : kind.scalarTy? with
  | some t =>
    have hPrimitive : ty.isPrimitive = true := by
      cases ty <;> cases hKind <;> first | rfl | cases hScalar
    cases v <;> simp [hPrimitive, hOther hPrimitive]
  | none =>
    have hReference : ty.isReference = true := by
      cases ty <;> cases hKind <;> first | rfl | cases hScalar
    cases v with
    | scalar s =>
      rcases hBoxed s with ⟨cls, hcls⟩
      simp [hReference, hcls]
    | _ => simp [hReference]

/-
  The value of each branch can be captured as the kind of the
  conditional if its type covers both branches, or if both are
  primitive; otherwise null breaks the invariant.
-/
theorem captures_conditionalTy_iff
    (ha : a ≠ .void)
    (hb : b ≠ .void)
    (hKind : (Expr.conditionalTy a b).kind? = some kind) :
    (∀ (flag : Bool) (u : Val),
      u.isA (if flag then a else b) = true →
        (portrait? p invoke inner kind
          (u.convert (Expr.conditionalTy a b))).isSome = true)
      ↔ a.joins b = true
        ∨ (a.isPrimitive && b.isPrimitive) = true := by
  constructor
  · intro hAll
    cases hJoins : a.joins b with
    | true => exact .inl rfl
    | false =>
      cases hBoth : a.isPrimitive && b.isPrimitive with
      | true => exact .inr rfl
      | false =>
        rcases Val.not_isA_conditionalTy ha hb hJoins with
          ⟨hPrimitive, flag, u, hu, hSame, _, hNull⟩
        have hCaptured := hAll flag u hu
        rw [hSame, isSome_portrait_iff hKind, hNull hBoth,
          Ty.isReference_of_isPrimitive hPrimitive] at hCaptured
        rcases hCaptured with ⟨hReference, _⟩ | ⟨_, s, hs⟩
        · cases hReference
        · cases hs
  · intro hCases flag u hu
    rw [isSome_portrait_iff hKind]
    cases hJoins : a.joins b with
    | true =>
      have hOf := Val.isA_conditionalTy hJoins hu
      have hTy : Expr.conditionalTy a b ≠ .void := by
        intro hVoid
        rw [hVoid] at hKind
        cases hKind
      rcases Ty.isReference_or_isPrimitive hTy with hReference | hScalar
      · exact .inl ⟨hReference, Val.ne_void_of_isA hOf⟩
      · rcases Val.scalar_of_isA hScalar hOf with ⟨s, hs, _⟩
        exact .inr ⟨hScalar, s, hs⟩
    | false =>
      rw [hJoins] at hCases
      have hBoth := hCases.resolve_left nofun
      rw [Bool.and_eq_true] at hBoth
      have hBranch : (if flag then a else b).isPrimitive = true := by
        cases flag
        · exact hBoth.2
        · exact hBoth.1
      rcases Val.scalar_of_isA hBranch hu with ⟨s, rfl, _⟩
      have hScalar := (Val.not_isA_conditionalTy ha hb hJoins).1
      exact .inr ⟨hScalar, _, rfl⟩

end Captures

------------------------------------------------------------
-- Conditionals
------------------------------------------------------------

section Conditionals

/- A conditional gives the converted value of the branch taken. -/
theorem eval_conditional_iff
    (p : Program)
    (c a b : Expr)
    (k : Nat)
    (m m' : Machine)
    (v : Val) :
    eval .silent p (k + 1) (.conditional c a b) m = (.ok v, m')
      ↔ ∃ flag m₁ u,
        truth (eval .silent p k) c m = (.ok flag, m₁) ∧
        eval .silent p k (if flag then a else b) m₁ = (.ok u, m') ∧
        v = u.convert (Expr.conditional c a b).ty := by
  have hEval : eval .silent p (k + 1) (.conditional c a b)
      = (do
        let flag ← truth (eval .silent p k) c
        let u ← eval .silent p k (if flag then a else b)
        pure (u.convert (Expr.conditional c a b).ty)) := by
    simp only [eval, watch_silent, pure_bind, bind_pure]
    unfold Runner.evalForm
    refine bind_congr fun flag => ?_
    cases flag <;> rfl
  rw [hEval]
  constructor
  · intro h
    rcases bind_returned h with ⟨flag, m₁, hFlag, h⟩
    rcases bind_returned h with ⟨u, m₂, hu, h⟩
    cases h
    exact ⟨flag, m₁, u, hFlag, hu, rfl⟩
  · rintro ⟨flag, m₁, u, hFlag, hu, rfl⟩
    rw [bind_ok hFlag, bind_ok hu]
    rfl

/-
  A conditional gives what the branch that is taken gives,
  converted to its static type. All values of both branches fit
  this type if and only if the type joins those of the branches.
  They all can be captured as the kind of this type if it does,
  or if both branches are primitive; whatever cannot be captured
  breaks the invariant.
-/
theorem Expr.conditional_covers_iff
    (p : Program)
    (c : Expr)
    {a b : Expr}
    (ha : a.ty ≠ .void)
    (hb : b.ty ≠ .void) :
    (∀ k m m' v,
      eval .silent p (k + 1) (.conditional c a b) m = (.ok v, m')
        ↔ ∃ flag m₁ u,
          truth (eval .silent p k) c m = (.ok flag, m₁) ∧
          eval .silent p k (if flag then a else b) m₁
            = (.ok u, m') ∧
          v = u.convert (Expr.conditional c a b).ty) ∧
    ((∀ (flag : Bool) (u : Val),
      u.isA (if flag then a.ty else b.ty) = true →
        (u.convert (Expr.conditional c a b).ty).isA
          (Expr.conditional c a b).ty = true)
      ↔ a.ty.joins b.ty = true) ∧
    ∀ kind, (Expr.conditional c a b).ty.kind? = some kind →
      ∀ invoke depth,
      ((∀ (flag : Bool) (u : Val),
        u.isA (if flag then a.ty else b.ty) = true →
          (portrait? p invoke (snapshot .silent p invoke depth) kind
            (u.convert (Expr.conditional c a b).ty)).isSome = true)
        ↔ a.ty.joins b.ty = true
          ∨ (a.ty.isPrimitive && b.ty.isPrimitive) = true) ∧
      ∀ v m, snapshot .silent p invoke (depth + 1) kind v m
        = match portrait? p invoke
            (snapshot .silent p invoke depth) kind v with
          | some capture => capture m
          | none =>
            (.error (.panic (brokenInvariant
              (kind.text ++ " operand evaluated to "
                ++ m.heap.className v))), m) := by
  refine ⟨eval_conditional_iff p c a b, ⟨fun hAll => ?_, ?_⟩, ?_⟩
  · cases hJoins : a.ty.joins b.ty with
    | true => rfl
    | false =>
      rcases Val.not_isA_conditionalTy ha hb hJoins with
        ⟨_, flag, u, hu, hSame, hOther, _⟩
      have hOf := hAll flag u hu
      have hTy : (Expr.conditional c a b).ty
          = Expr.conditionalTy a.ty b.ty := rfl
      rw [hTy, hSame, hOther] at hOf
      cases hOf
  · intro hJoins flag u hu
    exact Val.isA_conditionalTy hJoins hu
  · intro kind hKind invoke depth
    refine ⟨captures_conditionalTy_iff ha hb hKind, fun v m => ?_⟩
    rw [snapshot_silent]
    cases portrait? p invoke (snapshot .silent p invoke depth)
      kind v with
    | some capture => rfl
    | none => rfl

/- An integer and a long integer are joined. -/
theorem Expr.conditional_covers_iff_numbers :
    (Expr.int 1).ty ≠ .void ∧ (Expr.literal (.long 2)).ty ≠ .void ∧
      ∀ (flag : Bool) (u : Val),
        u.isA (if flag then Ty.int else Ty.long) = true →
          (u.convert .long).isA .long = true := by
  have hInt : (Expr.int 1).ty ≠ .void := by decide
  have hLong : (Expr.literal (.long 2)).ty ≠ .void := by decide
  have hCovers := (Expr.conditional_covers_iff ⟨[]⟩ (Expr.bool true)
    hInt hLong).2.1
  exact ⟨hInt, hLong, hCovers.mpr rfl⟩

/-
  The conditional with the branches `1` and `"a"` has the type
  of the first one. It gives the text, which is a value of the
  other branch, and capturing it as an integer breaks the
  invariant.
-/
theorem Expr.conditional_covers_iff_text :
    let branches := Expr.conditional (Expr.bool false) (Expr.int 1)
      (Expr.literal (.str "a"))
    branches.ty = .int ∧ branches.ty.kind? = some .int ∧
      eval .silent ⟨[]⟩ 2 branches {} = (.ok (.str "a"), {}) ∧
      Val.isA .str (.str "a") = true ∧
      Val.isA .int (.str "a") = false ∧
      (∀ invoke depth,
        snapshot .silent ⟨[]⟩ invoke (depth + 1) .int (.str "a") {}
          = (.error (.panic ("retrace internal invariant violated: "
              ++ "int operand evaluated to String")), {})) :=
  ⟨rfl, rfl, rfl, rfl, rfl, fun _ _ => rfl⟩

end Conditionals

end ExecTrace
