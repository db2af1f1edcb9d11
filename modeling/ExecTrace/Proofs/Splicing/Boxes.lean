import ExecTrace.Proofs.Splicing.Calls

/-
  Statements in scopes of their own. A statement that becomes
  several ones is put into a block where only one may stand, so
  it has one scope more in the second run. A variable that the
  first run declares last in its scope is never seen.

  Main declarations:
    * `Keeps.ofMirrors`
    * `Boxes.inScope` and `Boxes.behind`
    * `agrees_scopedDeclaration`
-/

namespace ExecTrace

open Run

/- Nothing is told if there is no method. -/
@[simp] theorem Flow.told_none :
    Flow.told none = fun _ => none := by
  funext flow
  cases flow <;> rfl

section Level

variable {S : Slack}
variable {R : Ty → Prop}
variable {x y : Run Flow}

/- The frames and the recorder of level machines are the same. -/
theorem Bond.level_after
    (g : (Bond.level R).Ghost)
    (told : Option String) :
    (Bond.level R).after g told = Joint.level := by
  cases told <;> rfl

/- Code that is compared in every shape keeps the link. -/
theorem Keeps.ofMirrors
    (h : ∀ s : Shape, R s.ret → s.outer = [] →
      Mirrors S s (SameEnd s) x y) :
    Keeps S (Bond.level R) none (Flow.told none) x y := by
  intro g s hs ho
  refine Sim.ofExists fun top => ?_
  refine (h { s with top := top } hs ho).weaken (fun _ _ hm => hm)
    (fun a b m m' hm => ?_) fun c m m' hm => ?_
  · rw [Bond.level_after]
    exact hm
  · cases c with
    | throw v => exact hm
    | fault c => exact hm
    | _ => trivial

/- What keeps the link is compared in a layer of one scope. -/
theorem Mirrors.ofKeeps
    {s : Shape}
    (h : Keeps S (Bond.level R) none (Flow.told none) x y)
    (hs : R s.ret)
    (ho : s.outer = []) : Mirrors S s (SameEnd s) x y := by
  refine (h () s hs ho).weaken (fun _ _ hm => hm.loose)
    (fun a b m m' hm => ?_) fun c m m' hm => ?_
  · have hEnd : (Bond.level R).after () (Flow.told none a)
        = Joint.level := Bond.level_after _ _
    rw [hEnd] at hm
    exact hm
  · cases c with
    | throw v => exact hm
    | fault c => exact hm
    | _ => trivial

/- What agrees in scopes keeps the link. -/
theorem Keeps.ofAgrees
    (h : Agrees S (Bond.level R) x y) :
    Keeps S (Bond.level R) none (Flow.told none) x y :=
  Keeps.ofSteers (Steers.ofYields h fun _ _ => by simp)

/- What keeps the link agrees in scopes of its own. -/
theorem Keeps.boxed
    (h : Keeps S (Bond.level R) none (Flow.told none) x y) :
    Agrees S (Bond.level R) (ExecTrace.inScope x)
      (ExecTrace.inScope y) := by
  rw [Flow.told_none] at h
  exact (Keeps.inScope h).agrees

/- What agrees steers level machines. -/
theorem Steers.ofAgrees
    (h : Agrees S (Bond.level R) x y) :
    Steers S (Bond.level R) none (Flow.told none) x y :=
  Steers.ofYields h fun _ _ => by simp

/- What steers level machines agrees. -/
theorem Steers.agreed
    (h : Steers S (Bond.level R) none (Flow.told none) x y) :
    Agrees S (Bond.level R) x y := by
  rw [Flow.told_none] at h
  exact h.agrees

end Level

------------------------------------------------------------
-- Variables Declared Last
------------------------------------------------------------

section Boxes

variable {S : Slack}
variable {B : Bond}
variable {x y z : Run Flow}

/- A scope is the same if what runs in it ends in the same way. -/
theorem inScope_congr
    {α : Type}
    {x y : Run α}
    {m : Machine}
    (h : x m.enterScope = y m.enterScope) :
    inScope x m = inScope y m := by
  have hInner : m.enterScope =
      { m with
        locals :=
          { m.locals with scopes := [] :: m.locals.scopes } } :=
    rfl
  unfold inScope
  simp only
  rw [← hInner, h]

/- A declaration changes the innermost scope only. -/
theorem leaveScope_declare
    {m : Machine}
    {l : Bindings String}
    {ls : List (Bindings String)}
    (h : m.locals.scopes = l :: ls)
    (name : String)
    (v : Val) :
    Machine.leaveScope
        { m with locals := m.locals.declare name v }
      = m.leaveScope := by
  simp [Machine.leaveScope, Locals.declare, h]

namespace DeclaresLast

variable {α β : Type}

/- Nothing is declared at the end. -/
theorem refl (x : Run α) : DeclaresLast x x :=
  fun _ => .inl rfl

/- A variable is declared at the end. -/
theorem declare
    (name : String)
    (v : Val)
    (a : α) :
    DeclaresLast
      (do
        declareLocal name v
        Pure.pure a)
      (Pure.pure a) :=
  fun m => .inr ⟨a, m, name, v, rfl, rfl⟩

/- The end of a sequence is its end. -/
theorem bind
    (x : Run α)
    {f g : α → Run β}
    (h : ∀ a, DeclaresLast (f a) (g a)) :
    DeclaresLast (x >>= f) (x >>= g) := by
  intro m
  rw [bind_apply, bind_apply]
  rcases x m with ⟨_ | a, k⟩
  · exact .inl rfl
  · exact h a k

/- A variable that is declared last in a scope is not seen. -/
theorem inScope_eq
    {x y : Run α}
    {m k : Machine}
    {r : Except Interrupt α}
    (h : DeclaresLast x y)
    (hy : y m.enterScope = (r, k))
    (hLength : ∀ a, r = .ok a →
      k.locals.scopes.length = m.locals.scopes.length + 1) :
    inScope x m = inScope y m := by
  rcases h m.enterScope with hSame | ⟨a, k', name, v, hy', hx⟩
  · exact inScope_congr hSame
  · rw [hy] at hy'
    cases hy'
    have hScope := hLength a rfl
    rcases hScopes : k.locals.scopes with _ | ⟨l, ls⟩
    · rw [hScopes] at hScope
      simp at hScope
    · rw [inScope_apply hx, inScope_apply hy hScope,
        leaveScope_declare hScopes]
      rw [← hScope]
      simp [Locals.declare, hScopes]

end DeclaresLast

/- A variable that the first run declares last is not seen. -/
theorem agrees_declaredLast
    {R : Ty → Prop}
    (hx : DeclaresLast x z)
    (h : Keeps S (Bond.level R) none (Flow.told none) z y) :
    Agrees S (Bond.level R) (inScope x) (inScope y) := by
  intro g s hs m m' hm
  have hInner := h g s.inner hs rfl _ _ hm.enter.loose
  have hScope := h.boxed g s hs m m' hm
  rcases hz : z m.enterScope with ⟨r, k⟩
  rcases hy : y m'.enterScope with ⟨t, k'⟩
  rw [hz, hy] at hInner
  cases hInner with
  | ok hPost =>
    have hLengths := Loose.lengths hPost.2 hm
    rw [hx.inScope_eq hz fun _ _ => hLengths.1]
    exact hScope
  | second hSecond =>
    rcases inScope_error hy with ⟨_, hy'⟩
    rw [hy']
    exact .second hSecond
  | alike hAlike hCut =>
    rw [hx.inScope_eq hz nofun]
    exact hScope
  | first hFirst =>
    rw [hx.inScope_eq hz nofun]
    exact hScope

/- A variable that the second run declares last is not seen. -/
theorem agrees_scopedDeclaration
    {R : Ty → Prop}
    (hy : DeclaresLast y z)
    (h : ∀ s : Shape, R s.ret → Mirrors S s (SameEnd s) x z) :
    Agrees S (Bond.level R) x (inScope y) := by
  intro g s hs m m' hm
  have hInner := h s.opened hs m m'.enterScope hm.openRight
  have hScope := agrees_inScopeRight h g s hs m m' hm
  rcases hx : x m with ⟨r, k⟩
  rcases hz : z m'.enterScope with ⟨t, k'⟩
  rw [hx] at hScope
  rw [hx, hz] at hInner
  cases hInner with
  | ok hPost =>
    rcases hPost.2 with ⟨top, hLinked⟩
    have hOuter := hm.length_right
    have hScopes := hLinked.length_right
    rw [hy.inScope_eq hz fun _ _ => ?_]
    · exact hScope
    · simp only [Shape.height, Shape.layers, Shape.opened, List.flatten_cons,
        List.length_append, List.length_cons] at hOuter hScopes
      omega
  | first hFirst => exact .first hFirst
  | alike hAlike hCut =>
    rw [hy.inScope_eq hz fun _ h => by cases h]
    exact hScope
  | second hSecond =>
    rw [hy.inScope_eq hz fun _ h => by cases h]
    exact hScope

namespace Boxes

/- Statements that end alike agree in scopes of their own. -/
theorem inScope
    {R : Ty → Prop}
    (h : Boxes S (Bond.level R) x y) :
    Agrees S (Bond.level R) (ExecTrace.inScope x)
      (ExecTrace.inScope y) := by
  cases h with
  | keeps h => exact h.boxed
  | declares hx h => exact agrees_declaredLast hx h

/- Statements that keep the link come first. -/
theorem behind
    {R : Ty → Prop}
    {t t' : Run Flow}
    (ht : Keeps S (Bond.level R) none (Flow.told none) t t')
    (h : Boxes S (Bond.level R) x y) :
    Boxes S (Bond.level R)
      (do
        match ← t with
        | .normal => x
        | flow => pure flow)
      (do
        match ← t' with
        | .normal => y
        | flow => pure flow) := by
  cases h with
  | keeps h => exact .keeps (ht.followed h)
  | declares hx h =>
    refine .declares (.bind t fun flow => ?_) (ht.followed h)
    cases flow with
    | normal => exact hx
    | _ => exact .refl _

end Boxes

end Boxes

end ExecTrace
