import ExecTrace.Proofs.Settling
import ExecTrace.Proofs.Simulation
import Mathlib.Data.List.Forall2

/-
  What is known of local variables and goes on to hold. An
  expression leaves every scope with the names that it has and
  with the values of the fixed variables. A statement may also
  declare names in the innermost scope, and gives what is known
  behind it.

  Main declarations:
    * `Locals.Kept` and `Locals.Grown`
    * `Known.Binds` and `Known.Holds`
    * `Locals.kept_set` and `Locals.grown_declare`
    * `kept_of_left`
    * `Known.Holds.grown` and `Known.Holds.declare`
-/

namespace ExecTrace

------------------------------------------------------------
-- Scopes
------------------------------------------------------------

/- A scope with the same names and the same fixed variables. -/
structure ScopeKept (b b' : Bindings String) : Prop where
  names : ∀ x, (b'.get? x).isSome = (b.get? x).isSome
  fixed : ∀ x, isFixed x = true → b'.get? x = b.get? x

/- A scope that has all the names of another one. -/
def ScopeGrown (b b' : Bindings String) : Prop :=
  ∀ x, (b.get? x).isSome = true → (b'.get? x).isSome = true

/- Scopes that are kept one by one. -/
abbrev ScopesKept :=
  List.Forall₂ ScopeKept

/- Scopes of which the innermost may have got more names. -/
inductive ScopesGrown :
    List (Bindings String) → List (Bindings String) → Prop where
  | none : ScopesGrown [] []
  | some
      {b b' : Bindings String}
      {rest rest' : List (Bindings String)}
      (first : ScopeGrown b b')
      (outer : ScopesKept rest rest') :
      ScopesGrown (b :: rest) (b' :: rest')

namespace ScopeKept

variable {a b c : Bindings String}

/- A scope is kept as it is. -/
theorem refl : ScopeKept b b :=
  ⟨fun _ => rfl, fun _ _ => rfl⟩

/- A scope is kept step by step. -/
theorem trans
    (h : ScopeKept a b)
    (h' : ScopeKept b c) : ScopeKept a c :=
  ⟨fun x => (h'.names x).trans (h.names x),
    fun x hx => (h'.fixed x hx).trans (h.fixed x hx)⟩

/- A scope that is kept has all its names. -/
theorem grown (h : ScopeKept a b) : ScopeGrown a b :=
  fun x hx => (h.names x).trans hx

end ScopeKept

section Scopes

variable {x : String}
variable {k l l' : List (Bindings String)}

/- Scopes are kept as they are. -/
theorem ScopesKept.refl : ScopesKept l l :=
  List.forall₂_same.mpr fun _ _ => ScopeKept.refl

/- Scopes are kept step by step. -/
theorem ScopesKept.trans
    (h : ScopesKept k l)
    (h' : ScopesKept l l') : ScopesKept k l' := by
  induction h generalizing l' with
  | nil => exact h'
  | cons hFirst _ ih =>
    cases h' with
    | cons hFirst' hRest' =>
      exact .cons (hFirst.trans hFirst') (ih hRest')

/- Scopes that are kept have the same names. -/
theorem ScopesKept.lookup_isSome
    (h : ScopesKept l l') :
    (lookup x l').isSome = (lookup x l).isSome := by
  induction h with
  | nil => rfl
  | cons hFirst _ ih =>
    rw [lookup_cons, lookup_cons, Option.isSome_or,
      Option.isSome_or, hFirst.names x, ih]

/- Scopes that are kept have the same fixed variables. -/
theorem ScopesKept.lookup_fixed
    (h : ScopesKept l l')
    (hx : isFixed x = true) : lookup x l' = lookup x l := by
  induction h with
  | nil => rfl
  | cons hFirst _ ih =>
    rw [lookup_cons, lookup_cons, hFirst.fixed x hx, ih]

/- Scopes that are kept have grown by nothing. -/
theorem ScopesKept.grown
    (h : ScopesKept l l') : ScopesGrown l l' := by
  cases h with
  | nil => exact .none
  | cons hFirst hRest => exact .some hFirst.grown hRest

/- Scopes grow step by step. -/
theorem ScopesGrown.trans
    (h : ScopesGrown k l)
    (h' : ScopesGrown l l') : ScopesGrown k l' := by
  cases h with
  | none => exact h'
  | some hFirst hOuter =>
    cases h' with
    | some hFirst' hOuter' =>
      exact .some (fun x hx => hFirst' x (hFirst x hx))
        (hOuter.trans hOuter')

/- Scopes that have grown have the names that they had. -/
theorem ScopesGrown.lookup_isSome
    (h : ScopesGrown l l')
    (hx : (lookup x l).isSome = true) :
    (lookup x l').isSome = true := by
  cases h with
  | none => exact hx
  | some hFirst hOuter =>
    rw [lookup_cons, Option.isSome_or, Bool.or_eq_true] at hx ⊢
    rcases hx with hx | hx
    · exact .inl (hFirst x hx)
    · exact .inr (hOuter.lookup_isSome.trans hx)

/- A variable that is set is no fixed one. -/
theorem scopesKept_setIn
    {v : Val}
    (hx : isFixed x = false)
    (h : Locals.setIn? x v l = some l') : ScopesKept l l' := by
  induction l generalizing l' with
  | nil => cases h
  | cons b rest ih =>
    unfold Locals.setIn? at h
    split at h
    · rename_i hSome
      cases h
      refine .cons ⟨fun y => ?_, fun y hy => ?_⟩ ScopesKept.refl
      · rw [Bindings.get?_put]
        split
        · rename_i hSame
          rw [← hSame, hSome]
          rfl
        · rfl
      · rw [Bindings.get?_put, if_neg]
        rintro rfl
        rw [hx] at hy
        cases hy
    · rcases Option.map_eq_some_iff.mp h with ⟨rest', hRest, rfl⟩
      exact .cons ScopeKept.refl (ih hRest)

end Scopes

------------------------------------------------------------
-- Local Variables
------------------------------------------------------------

namespace Locals

variable {k l l' : Locals}
variable {x : String}
variable {v : Val}

/- Local variables that are kept scope by scope. -/
def Kept (l l' : Locals) : Prop :=
  ScopesKept l.scopes l'.scopes

/- Local variables with perhaps more in the innermost scope. -/
def Grown (l l' : Locals) : Prop :=
  ScopesGrown l.scopes l'.scopes

/- Local variables are kept as they are. -/
theorem Kept.refl : l.Kept l :=
  ScopesKept.refl

/- A variable that is set is no fixed one. -/
theorem kept_set
    (hx : isFixed x = false)
    (h : l.set? x v = some l') : l.Kept l' := by
  rcases Option.map_eq_some_iff.mp h with ⟨scopes, hSet, rfl⟩
  exact scopesKept_setIn hx hSet

/- A variable that is declared is one more. -/
theorem grown_declare : l.Grown (l.declare x v) := by
  rcases l with ⟨scopes, self, cls, ret⟩
  cases scopes with
  | nil => exact .none
  | cons b rest =>
    refine .some (fun y hy => ?_) ScopesKept.refl
    rw [Bindings.get?_put]
    split
    · rfl
    · exact hy

/- The value of a variable after one is declared. -/
theorem get?_declare
    {y : String}
    (h : l.scopes ≠ []) :
    (l.declare x v).get? y = if x = y then some v else l.get? y := by
  rcases l with ⟨scopes, self, cls, ret⟩
  cases scopes with
  | nil => exact absurd rfl h
  | cons b rest =>
    change lookup y (b.put x v :: rest) = if x = y then some v else
      lookup y (b :: rest)
    rw [lookup_cons, lookup_cons, Bindings.get?_put]
    split
    · rfl
    · rfl

end Locals

/- A scope that has grown is gone when it is left. -/
theorem kept_of_left
    {l l' : List (Bindings String)}
    (h : ScopesGrown ([] :: l) l') :
    ScopesKept l (l'.drop (l'.length - l.length)) := by
  cases h with
  | @some _ b _ rest' hFirst hOuter =>
    have hLength := hOuter.length_eq
    simp [← hLength, hOuter]

------------------------------------------------------------
-- What is Known
------------------------------------------------------------

/- A variable whose value is a truth value. -/
def Locals.Truth
    (l : Locals)
    (x : String) : Prop :=
  ∃ v b, l.get? x = some v ∧ v.asBool? = some b

/- A fixed variable that is a truth stays one. -/
theorem Locals.Truth.kept
    {l l' : Locals}
    {x : String}
    (hFixed : isFixed x = true)
    (hTruth : l.Truth x)
    (h : l.Kept l') : l'.Truth x := by
  rcases hTruth with ⟨v, b, hv, hb⟩
  exact ⟨v, b, (h.lookup_fixed hFixed).trans hv, hb⟩

namespace Known

/- The variables that are known to be bound are. -/
def Binds
    (Γ : Known)
    (l : Locals) : Prop :=
  ∀ x ∈ Γ.bound, (l.get? x).isSome = true

/-
  What is known of the local variables, among which there is a
  scope to declare others in.
-/
structure Holds
    (Γ : Known)
    (l : Locals) : Prop where
  scope : l.scopes ≠ []
  binds : Γ.Binds l
  truths : ∀ x ∈ Γ.truths, l.Truth x

variable {Γ : Known}
variable {l l' : Locals}

/- Variables stay bound when they are kept. -/
theorem Binds.kept
    (h : Γ.Binds l)
    (hKept : l.Kept l') : Γ.Binds l' :=
  fun x hx => hKept.lookup_isSome.trans (h x hx)

/- Variables are bound in a new scope too. -/
theorem Binds.enter
    (h : Γ.Binds l) :
    Γ.forget.Holds { l with scopes := [] :: l.scopes } where
  scope hNil := by cases hNil
  binds := h
  truths := List.forall_mem_nil _

/- Variables stay bound when there are more of them. -/
theorem Holds.grown
    (h : Γ.Holds l)
    (hGrown : l.Grown l') : Γ.forget.Holds l' where
  scope hNil := by
    unfold Locals.Grown at hGrown
    rw [hNil] at hGrown
    generalize hScopes : l.scopes = scopes at hGrown
    cases hGrown
    exact h.scope hScopes
  binds x hx := hGrown.lookup_isSome (h.binds x hx)
  truths := List.forall_mem_nil _

/- Variables that are kept stay bound. -/
theorem Holds.kept
    (h : Γ.Holds l)
    (hKept : l.Kept l') : Γ.forget.Holds l' :=
  h.grown hKept.grown

/-
  What is known behind a declaration: the names that are truths
  are that of the new variable, and truths already.
-/
theorem Holds.declare
    {xs : List String}
    {x : String}
    {v : Val}
    (h : Γ.Holds l)
    (hTruths : ∀ y ∈ xs,
      (∃ b, v.asBool? = some b) ∧ (y = x ∨ l.Truth y)) :
    Holds ⟨x :: Γ.bound, xs⟩ (l.declare x v) where
  scope := (h.grown Locals.grown_declare).scope
  binds y hy := by
    rcases List.mem_cons.mp hy with rfl | hy
    · rw [Locals.get?_declare h.scope, if_pos rfl]
      rfl
    · exact (h.grown Locals.grown_declare).binds y hy
  truths y hy := by
    rcases hTruths y hy with ⟨⟨b, hb⟩, hKnown⟩
    by_cases hSame : x = y
    · exact ⟨v, b, by
        rw [Locals.get?_declare h.scope, if_pos hSame], hb⟩
    · rcases hKnown with hEq | ⟨u, c, hu, hc⟩
      · exact absurd hEq.symm hSame
      · exact ⟨u, c, by
          rw [Locals.get?_declare h.scope, if_neg hSame, hu], hc⟩

/- A variable that is declared is bound. -/
theorem Holds.plus
    (h : Γ.Holds l)
    (x : String)
    (v : Val) : (Γ.plus x).Holds (l.declare x v) :=
  h.declare (List.forall_mem_nil _)

end Known

/- A truth value is one as a value of any type. -/
theorem Val.asBool?_convert
    {v : Val}
    {b : Bool}
    (ty : Ty)
    (h : v.asBool? = some b) : (v.convert ty).asBool? = some b := by
  rcases v with _ | s | _ | _ | _ | _
  case scalar =>
    cases s with
    | bool c => exact h
    | _ => cases h
  all_goals cases h

end ExecTrace
