import ExecTrace.Proofs.FlowAgreement
import ExecTrace.Proofs.Passes

/-
  Runs of spliced code. The second of two runs executes code
  that the first one does not have: scopes, hidden variables and
  reads of them. As long as nothing else is different the
  machines stay level, and every piece of such code has a rule
  that removes it from a comparison.

  Main declarations:
    * `Bond.level` and `Observer.Follows`
    * `Spare`, `Sim.evalRight` and `Gives`
    * `Mirrors`, for code inside of a scope of the second run
    * `Mirrors.declare`, `Mirrors.readFirst`, `Mirrors.guarded`
    * `Sim.scopeRight` and `agrees_letIn`
-/

namespace ExecTrace

open Run

------------------------------------------------------------
-- Level Machines
------------------------------------------------------------

/- The same frames and the same recorder. -/
def Joint.level : Joint :=
  fun a b => a = b

/-
  Frames and recorders are the same all the time, inside methods
  with some result types.
-/
def Bond.level (R : Ty → Prop) : Bond where
  Ghost := Unit
  rets := R
  holds := fun _ => Joint.level
  ended := fun _ _ => Joint.level
  done := fun _ => Joint.level
  lost := fun _ => Joint.level
  push := fun _ g => g
  doneOfHolds := fun _ _ _ h => h
  lostOfHolds := fun _ _ _ h => h
  lostOfEnded := fun _ _ _ _ h => h
  pushed := fun _ _ _ _ _ h => by
    cases h
    rfl
  popped := fun _ _ _ _ h => by
    cases h
    rfl
  poppedLost := fun _ _ _ _ h => by
    cases h
    rfl
  length := fun _ _ _ h => by
    cases h
    rfl

/-
  An observer that sees neither the old values of targets nor
  variables, and of methods no more than their headers.
-/
structure Observer.Coarse (w : Observer) : Prop where
  loaded : ∀ e v m, w (.loaded e v) m = none
  locals : ∀ x m l, w x { m with locals := l } = w x m
  ended : ∀ m m' k, SameHeader m m' →
    w (.ended m') k = w (.ended m) k

/- Whether an observer sees a value of an expression. -/
def Moment.ofValue : Moment → Bool
  | .value _ _ => true
  | .loaded _ _ => true
  | _ => false

/- An observer that does not stop for a value of an expression. -/
def Observer.Admits
    (w : Observer)
    (e : Expr)
    (v : Val) : Prop :=
  ∃ m, w (.value e v) m = none

/-
  An observer of a second run that sees what a coarse observer
  of the first run sees. It may also stop the run for the value
  of an expression, which excuses the comparison. It admits the
  values that the first one admits, which do not depend on more
  than the type of an expression.
-/
structure Observer.Follows
    (S : Slack)
    (u w : Observer) : Prop where
  coarse : u.Coarse
  misses : ∀ x m why, x.ofValue = true → w x m = some why →
    S.misses why = true
  others : ∀ x m, x.ofValue = false → w x m = u x m
  admits : ∀ (e e' : Expr) v m, e'.ty = e.ty → w.Admits e' v →
    u (.value e v) m = none
  void : ∀ (e : Expr) v m, e.ty = .void →
    u (.value e v) m = none

/- Level machines differ in their variables only. -/
theorem World.eq_of_level
    {since : Heap}
    {m n : Machine}
    (h : World Joint.level since m n) :
    n = { m with locals := n.locals } := by
  rcases h with ⟨hHeap, hStatics, hId, hOutput, hDepth, hJoint, _⟩
  rcases m with ⟨heap, statics, frames, locals, nextId, output,
    recorder, maxDepth⟩
  rcases n with ⟨heap', statics', frames', locals', nextId',
    output', recorder', maxDepth'⟩
  cases hJoint
  simp_all

/- What the second observer admits the first one admits. -/
theorem Observer.Follows.watch_admitted
    {S : Slack}
    {u w : Observer}
    (hw : u.Follows S w)
    {e e' : Expr}
    {v : Val}
    (hTy : e'.ty = e.ty)
    (hAdmits : w.Admits e' v) :
    watch u (.value e v) = pure () := by
  funext m
  simp only [watch, hw.admits e e' v m hTy hAdmits]
  rfl

/- No value of an expression without a value is watched. -/
theorem Observer.Follows.watch_void
    {S : Slack}
    {u w : Observer}
    (hw : u.Follows S w)
    {e : Expr}
    (hTy : e.ty = .void)
    (v : Val) : watch u (.value e v) = pure () := by
  funext m
  simp only [watch, hw.void e v m hTy]
  rfl

/- Level machines are judged alike. -/
theorem Observer.Follows.watches
    {S : Slack}
    {u w : Observer}
    (hw : u.Follows S w)
    (hHalts : S.halts = true)
    {x x' : Moment}
    (hOther : x'.ofValue = false)
    (hx : ∀ m, u x' m = u x m) :
    Watches S Joint.level u w x x' := by
  intro since m n hmn
  have hSame : w x' n = u x m := by
    rw [hw.others x' n hOther, hmn.eq_of_level, hw.coarse.locals,
      hx]
  rw [hSame]
  cases hWhy : u x m with
  | none => exact .inl ⟨rfl, rfl⟩
  | some why => exact .inr (.inl ⟨why, rfl, rfl, hHalts⟩)

/- A value is admitted, or the second run is excused. -/
theorem Observer.Follows.watch_value
    {S : Slack}
    {u w : Observer}
    (hw : u.Follows S w)
    {x : Moment}
    (hx : x.ofValue = true)
    (m : Machine) :
    watch w x m = (.ok (), m) ∧ w x m = none ∨
      ∃ why, watch w x m = (.error (.stopped why), m) ∧
        S.second (.stopped why) = true := by
  unfold watch
  cases hWhy : w x m with
  | none => exact .inl ⟨rfl, rfl⟩
  | some why => exact .inr ⟨why, rfl, hw.misses x m why hx hWhy⟩

------------------------------------------------------------
-- Fuel of Spliced Code
------------------------------------------------------------

/-
  A supply of fuel with which the second run can take `j` more
  steps inwards before a part is run that the first run runs
  with `n` units.
-/
def Spare
    (S : Slack)
    (n j k : Nat) : Prop :=
  S.short = true ∧ 8 * n + j ≤ k ∨
    S.behind = true ∧ (k ≤ n ∨ j = 8 ∧ k ≤ n + 1)

section Fuel

variable {S : Slack}
variable {n j k : Nat}

/- What is enough for a step of the first run is to spare. -/
theorem Enough.spare
    (h : Enough S (n + 1) k) : Spare S n 8 k := by
  rcases h with ⟨hShort, hk⟩ | ⟨hBehind, hk⟩
  · exact .inl ⟨hShort, by omega⟩
  · exact .inr ⟨hBehind, .inr ⟨rfl, hk⟩⟩

/- A step inwards was taken. -/
theorem Spare.inwards
    (h : Spare S n (j + 1) (k + 1)) : Spare S n j k := by
  rcases h with ⟨hShort, hk⟩ | ⟨hBehind, hk⟩
  · exact .inl ⟨hShort, by omega⟩
  · exact .inr ⟨hBehind, .inl (by omega)⟩

/- What is spare is enough for the parts. -/
theorem Spare.enough
    (h : Spare S n j k)
    (hj : j < 8) : Enough S n k := by
  rcases h with ⟨hShort, hk⟩ | ⟨hBehind, hk⟩
  · exact .inl ⟨hShort, by omega⟩
  · exact .inr ⟨hBehind, by omega⟩

/- Less is to spare, too. -/
theorem Spare.less
    {i : Nat}
    (h : Spare S n j k)
    (hj : j < 8)
    (hi : i ≤ j) : Spare S n i k := by
  rcases h with ⟨hShort, hk⟩ | ⟨hBehind, hk⟩
  · exact .inl ⟨hShort, by omega⟩
  · exact .inr ⟨hBehind, .inl (by omega)⟩

/- Without fuel the second run is behind. -/
theorem Spare.behind
    (h : Spare S n (j + 1) 0) : S.behind = true := by
  rcases h with ⟨_, hk⟩ | ⟨hBehind, _⟩
  · omega
  · exact hBehind

end Fuel

/- A program run with some fuel. -/
def fueled
    (w : Observer)
    (q : Program)
    (k : Nat) : Runner :=
  ⟨eval w q k, exec w q k, invoke w q k⟩

/- The value of an expression is watched. -/
theorem eval_succ
    (w : Observer)
    (q : Program)
    (k : Nat)
    (e : Expr) :
    eval w q (k + 1) e
      = (do
        let v ← Runner.evalForm w q (fueled w q k) e
        watch w (.value e v)
        pure v) :=
  rfl

/- A value that an expression gave was admitted. -/
theorem admits_of_eval
    {w : Observer}
    {q : Program}
    {k : Nat}
    {e : Expr}
    {v : Val}
    {m m' : Machine}
    (h : eval w q k e m = (.ok v, m')) : w.Admits e v := by
  cases k with
  | zero => cases h
  | succ k =>
    rw [eval_succ, bind_apply] at h
    generalize Runner.evalForm w q (fueled w q k) e m = t at h
    rcases t with ⟨r, m₁⟩
    cases r with
    | error c => cases h
    | ok u =>
      simp only [bind_apply, watch] at h
      cases hWhy : w (.value e u) m₁ with
      | none =>
        simp only [hWhy] at h
        cases h
        exact ⟨_, hWhy⟩
      | some why =>
        simp only [hWhy] at h
        cases h

section Steps

variable {S : Slack}
variable {α β : Type}
variable {pre : Machine → Machine → Prop}
variable {post : α → β → Machine → Machine → Prop}
variable {cut : Cut}
variable {u w : Observer}
variable {q : Program}
variable {n j k : Nat}

/-
  The second run evaluates an expression, and its value is
  admitted.
-/
theorem Sim.evalAdmitted
    {Q : α → Val → Machine → Machine → Prop}
    {x : Run α}
    {e : Expr}
    (hw : u.Follows S w)
    (hk : Spare S n (j + 1) k)
    (h : ∀ k, Spare S n j k → Sim S pre Q cut x
      (Runner.evalForm w q (fueled w q k) e)) :
    Sim S pre (fun a v m n => Q a v m n ∧ w.Admits e v) cut x
      (eval w q k e) := by
  cases k with
  | zero => exact Sim.behind hk.behind
  | succ k =>
    rw [eval_succ, ← bind_pure x]
    refine (h k hk.inwards).bind fun a v m n hPost => ?_
    rcases hw.watch_value (x := .value e v) rfl n with
      ⟨hWatch, hNone⟩ | ⟨why, hWatch, hExcuse⟩
    · rw [bind_ok hWatch]
      exact .ok ⟨hPost, n, hNone⟩
    · rw [bind_error hWatch]
      exact .second hExcuse

/- The second run evaluates an expression. -/
theorem Sim.evalRight
    {post : α → Val → Machine → Machine → Prop}
    {x : Run α}
    {e : Expr}
    (hw : u.Follows S w)
    (hk : Spare S n (j + 1) k)
    (h : ∀ k, Spare S n j k → Sim S pre post cut x
      (Runner.evalForm w q (fueled w q k) e)) :
    Sim S pre post cut x (eval w q k e) :=
  (Sim.evalAdmitted hw hk h).weaken (fun _ _ hm => hm)
    (fun _ _ _ _ hm => hm.1) (fun _ _ _ hm => hm)

/- The second run alone is watched for a value. -/
theorem Sim.watchRight
    {x : Run α}
    {y : Run β}
    (hw : u.Follows S w)
    {moment : Moment}
    (hMoment : moment.ofValue = true)
    (h : Sim S pre post cut x y) :
    Sim S pre post cut x (watch w moment >>= fun _ => y) := by
  intro m n hm
  rcases hw.watch_value hMoment n with
    ⟨hWatch, _⟩ | ⟨why, hWatch, hExcuse⟩
  · rw [bind_ok hWatch]
    exact h m n hm
  · rw [bind_error hWatch]
    exact .second hExcuse

/- The second run executes a statement. -/
theorem Sim.execRight
    {post : α → Flow → Machine → Machine → Prop}
    {x : Run α}
    {s : Stmt}
    (hk : Spare S n (j + 1) k)
    (h : ∀ k, Spare S n j k → Sim S pre post cut x
      (Runner.execForm w q (fueled w q k) k s)) :
    Sim S pre post cut x (exec w q k s) := by
  cases k with
  | zero => exact Sim.behind hk.behind
  | succ k => exact h k hk.inwards

/- The second run executes a statement and goes on. -/
theorem Sim.execRight_bind
    {x : Run α}
    {s : Stmt}
    {g : Flow → Run β}
    (hk : Spare S n (j + 1) k)
    (h : ∀ k, Spare S n j k → Sim S pre post cut x
      (Runner.execForm w q (fueled w q k) k s >>= g)) :
    Sim S pre post cut x (exec w q k s >>= g) := by
  cases k with
  | zero =>
    exact fun _ n _ =>
      .second (d := .outOfFuel) (n := n) hk.behind
  | succ k => exact h k hk.inwards

end Steps

------------------------------------------------------------
-- Values of the Second Run
------------------------------------------------------------

/-
  A computation that leaves the machine as it is and gives one
  result, unless the second run is excused for how it ends.
-/
def Gives
    {α : Type}
    (S : Slack)
    (n : Machine)
    (x : Run α)
    (a : α) : Prop :=
  x n = (.ok a, n) ∨
    ∃ c n', x n = (.error c, n') ∧ S.second c = true

section Gives

variable {S : Slack}
variable {α β γ : Type}
variable {u w : Observer}
variable {q : Program}
variable {n j k : Nat}
variable {m : Machine}

/- A value is given. -/
theorem Gives.pure
    (a : α) : Gives S m (Pure.pure a) a :=
  .inl rfl

/- Values are given one after the other. -/
theorem Gives.bind
    {x : Run α}
    {f : α → Run β}
    {a : α}
    {b : β}
    (hx : Gives S m x a)
    (hf : Gives S m (f a) b) : Gives S m (x >>= f) b := by
  rcases hx with hx | ⟨c, m', hx, hExcuse⟩
  · unfold Gives
    rw [bind_ok hx]
    exact hf
  · exact .inr ⟨c, m', bind_error hx, hExcuse⟩

/- The second run gives a value without the first one. -/
theorem Sim.givesRight
    {pre : Machine → Machine → Prop}
    {post : α → β → Machine → Machine → Prop}
    {cut : Cut}
    {x : Run α}
    {y : Run γ}
    {b : γ}
    {g : γ → Run β}
    (hy : ∀ m m', pre m m' → Gives S m' y b)
    (h : Sim S pre post cut x (g b)) :
    Sim S pre post cut x (y >>= g) := by
  intro m m' hm
  rcases hy m m' hm with hy | ⟨c, m'', hy, hExcuse⟩
  · rw [bind_ok hy]
    exact h m m' hm
  · rw [bind_error hy]
    exact .second hExcuse

/- An expression is evaluated for its value. -/
theorem gives_eval
    {e : Expr}
    {v : Val}
    (hw : u.Follows S w)
    (hk : Spare S n (j + 1) k)
    (h : ∀ k, Spare S n j k → Gives S m
      (Runner.evalForm w q (fueled w q k) e) v) :
    Gives S m (eval w q k e) v := by
  cases k with
  | zero => exact .inr ⟨.outOfFuel, m, rfl, hk.behind⟩
  | succ k =>
    refine (h k hk.inwards).bind ?_
    rcases hw.watch_value (x := .value e v) rfl m with
      ⟨hWatch, _⟩ | ⟨why, hWatch, hExcuse⟩
    · exact .inl (bind_ok hWatch)
    · exact .inr ⟨.stopped why, m, bind_error hWatch, hExcuse⟩

/- A variable is read. -/
theorem gives_localVar
    {x : String}
    {ty : Ty}
    {span : Span}
    {v : Val}
    (hw : u.Follows S w)
    (hk : Spare S n (j + 1) k)
    (hx : m.locals.get? x = some v) :
    Gives S m (eval w q k ⟨.localVar x, ty, span⟩) v := by
  refine gives_eval hw hk fun k hk => .inl ?_
  change getLocal x m = _
  unfold getLocal
  rw [get_bind_apply, hx]
  rfl

end Gives

------------------------------------------------------------
-- Hidden Variables
------------------------------------------------------------

namespace Shape

variable {s : Shape}
variable {x y : String}
variable {v : Val}

/- A variable is found in the scope that it was hidden in. -/
@[simp] theorem find?_hide :
    (s.hide x v).find? x = some v := by
  simp [find?, layers, hide, lookup_cons, Bindings.get?_put]

/- Other variables are found where they were. -/
theorem find?_hide_of_ne
    (h : x ≠ y) : (s.hide x v).find? y = s.find? y := by
  simp [find?, layers, hide, lookup_cons, Bindings.get?_put, h]

/- A new scope hides no variable. -/
@[simp] theorem find?_opened :
    s.opened.find? x = s.find? x := by
  simp [find?, layers, opened, lookup_cons, Bindings.get?]

/- A new scope on both sides hides no variable. -/
@[simp] theorem find?_inner :
    s.inner.find? x = s.find? x := by
  simp [find?, layers, inner, lookup_cons, Bindings.get?]

end Shape

section Hidden

variable {J : Joint}
variable {s : Shape}
variable {m n : Machine}
variable {x : String}
variable {v : Val}

/- The second machine has the hidden variables of its shape. -/
theorem Linked.get_hidden
    (hl : Linked J s m n)
    (hx : hidden x = true)
    (hv : s.find? x = some v) : n.locals.get? x = some v :=
  hl.locals.scopes.get_hidden hx hv

/- A hidden variable is declared in the second machine. -/
theorem Linked.hide
    (hl : Linked J s m n)
    (hx : hidden x = true) :
    Linked J (s.hide x v) m
      { n with locals := n.locals.declare x v } := by
  rcases hl.locals.scopes.head with
    ⟨l, ls, r, layer, _, rs, hLeft, hRight, hLayer, hRest⟩
  refine ⟨hl.world.locals m.locals _, ?_⟩
  change Matched _ m.locals (n.locals.declare x v)
  unfold Locals.declare
  rw [hRight]
  refine ⟨hl.locals.self, hl.locals.cls, hl.locals.retLeft,
    hl.locals.retRight, ?_⟩
  rw [hLeft]
  have hHidden := hLayer.hide (v := v) hx
  have hPart : hiddenPart r = s.top := by
    have hShadow := hLayer.shadow
    rw [List.map_cons, List.cons.injEq] at hShadow
    exact hShadow.1
  rw [hPart] at hHidden
  exact hRest _ _ _ hHidden

/- The second machine enters a scope alone. -/
theorem Linked.openRight
    (hl : Linked J s m n) :
    Linked J s.opened m n.enterScope := by
  rcases hl.locals.scopes.head with
    ⟨l, ls, r, layer, _, rs, hLeft, hRight, hLayer, hRest⟩
  refine ⟨hl.world.locals m.locals _,
    ⟨hl.locals.self, hl.locals.cls, hl.locals.retLeft,
      hl.locals.retRight, ?_⟩⟩
  change Layered s.depth (([] :: s.top :: s.outer) :: s.rest)
    m.locals.scopes ([] :: n.locals.scopes)
  rw [hLeft, hRight]
  exact hRest _ _ _ hLayer.open

/- The second machine leaves a scope alone. -/
theorem Loose.closeRight
    (hl : Loose J s.opened m n) :
    Linked J s m n.leaveScope := by
  rcases hl with ⟨top, hl⟩
  rcases hl.locals.scopes.head with
    ⟨l, ls, r, layer, _, rs, hLeft, hRight, hLayer, hRest⟩
  refine ⟨hl.world.locals m.locals _,
    ⟨hl.locals.self, hl.locals.cls, hl.locals.retLeft,
      hl.locals.retRight, ?_⟩⟩
  change Layered s.depth ((s.top :: s.outer) :: s.rest)
    m.locals.scopes n.locals.scopes.tail
  rw [hLeft, hRight]
  have hMore : layer ≠ [] := by
    intro hNil
    have hShadow := hLayer.shadow
    simp [hNil, Shape.opened] at hShadow
  exact hRest _ _ _ (hLayer.close hMore)

/-
  A hidden variable is set in the second machine from a scope
  inside of the one that it was declared in.
-/
theorem Linked.setHidden
    (hl : Linked J s.opened m n)
    (hx : hidden x = true)
    (hFound : (Bindings.get? x s.top).isSome = true) :
    ∃ l, n.locals.set? x v = some l ∧
      Linked J (s.hide x v).opened m { n with locals := l } := by
  rcases hl.locals.scopes.head with
    ⟨l, ls, r, layer, _, rs, hLeft, hRight, hLayer, hRest⟩
  have hShadow := hLayer.shadow
  rw [List.map_cons, List.cons.injEq] at hShadow
  cases layer with
  | nil =>
    have hNil := hShadow.2
    simp [Shape.opened] at hNil
  | cons t layer =>
    have hTail : hiddenPart t :: layer.map hiddenPart
        = s.top :: s.outer := hShadow.2
    rw [List.cons.injEq] at hTail
    have hTop : Bindings.get? x t = Bindings.get? x s.top := by
      rw [← get?_hiddenPart t x hx, hTail.1]
    have hInner : Bindings.get? x r = none := by
      rw [← get?_hiddenPart r x hx, hShadow.1]
      rfl
    rw [← hTop] at hFound
    have hSet : Locals.setIn? x v n.locals.scopes
        = some (r :: t.put x v :: (layer ++ rs)) := by
      rw [hRight, List.cons_append, setIn?_cons, hInner,
        List.cons_append, setIn?_cons, if_pos hFound]
      rfl
    refine ⟨{ n.locals with
      scopes := r :: t.put x v :: (layer ++ rs) }, ?_, ?_⟩
    · unfold Locals.set?
      rw [hSet]
      rfl
    · refine ⟨hl.world.locals m.locals _,
        ⟨hl.locals.self, hl.locals.cls, hl.locals.retLeft,
          hl.locals.retRight, ?_⟩⟩
      rw [hLeft]
      have hCovert : Covert r :=
        hLayer.covert r (mem_dropLast_cons.mpr
          (.inl ⟨rfl, List.cons_ne_nil _ _⟩))
      have hHidden := ((hLayer.close (List.cons_ne_nil _ _)).hide
        (v := v) hx).cover hCovert
      rw [hShadow.1, hTail.1] at hHidden
      exact hRest _ _ _ hHidden

/- How many scopes the second machine has. -/
theorem Linked.length_right
    (hl : Linked J s m n) :
    n.locals.scopes.length = s.height :=
  hl.locals.scopes.length_right

end Hidden

------------------------------------------------------------
-- Code of the Second Run
------------------------------------------------------------

/- What is known after a cut inside of some scopes. -/
def levelCut (s : Shape) : Cut :=
  (Bond.level fun _ => True).cut () fun J => Loose J s

/-
  Level machines of a shape are taken to comparable ends, where
  the innermost hidden bindings may change.
-/
abbrev Mirrors
    {α β : Type}
    (S : Slack)
    (s : Shape)
    (post : α → β → Machine → Machine → Prop)
    (x : Run α)
    (y : Run β) : Prop :=
  Sim S (Linked Joint.level s) post (levelCut s) x y

/- One result, and machines that are linked but for a scope. -/
def SameEnd
    {α : Type}
    (s : Shape)
    (a b : α)
    (m n : Machine) : Prop :=
  a = b ∧ Loose Joint.level s m n

/- One result of which something holds, and linked machines. -/
def SameValue
    {α : Type}
    (P : α → Prop)
    (s : Shape)
    (a b : α)
    (m n : Machine) : Prop :=
  a = b ∧ P a ∧ Linked Joint.level s m n

/- Run statements, and then something else if they are through. -/
def andThen
    {α : Type}
    (execute : Stmt → Run Flow)
    (stmts : List Stmt)
    (next : Run α)
    (otherwise : Flow → Run α) : Run α := do
  match ← runAll execute stmts with
  | .normal => next
  | flow => otherwise flow

section AndThen

variable {α : Type}
variable {ex : Stmt → Run Flow}
variable {next : Run α}
variable {other : Flow → Run α}

/- After no statements the rest is run. -/
@[simp] theorem andThen_nil :
    andThen ex [] next other = next := by
  simp [andThen, runAll]

/- Statements are run one after the other. -/
theorem andThen_cons
    (s : Stmt)
    (ss : List Stmt) :
    andThen ex (s :: ss) next other = (do
      match ← ex s with
      | .normal => andThen ex ss next other
      | flow => other flow) := by
  simp only [andThen, runAll, bind_assoc]
  refine bind_congr fun flow => ?_
  cases flow <;> simp

/- Statements in two parts. -/
theorem runAll_append
    (ss ts : List Stmt) :
    runAll ex (ss ++ ts) = (do
      match ← runAll ex ss with
      | .normal => runAll ex ts
      | flow => pure flow) := by
  induction ss with
  | nil => simp [runAll]
  | cons s ss ih =>
    simp only [List.cons_append, runAll, bind_assoc]
    refine bind_congr fun flow => ?_
    cases flow <;> simp [ih]

/- Statements on their own. -/
theorem runAll_eq_andThen
    (ss : List Stmt) :
    runAll ex ss = andThen ex ss (pure .normal) pure := by
  unfold andThen
  refine Eq.trans (bind_pure _).symm (bind_congr fun flow => ?_)
  cases flow <;> rfl

end AndThen

/- What a block in front of an expression runs. -/
theorem evalForm_letIn
    (w : Observer)
    (q : Program)
    (r : Runner)
    (ss : List Stmt)
    (body : Expr) :
    Runner.evalForm w q r (Expr.letIn ss body)
      = inScope (andThen r.exec ss (r.eval body)
          (faultEscaped .escapedBlock)) :=
  rfl

namespace Mirrors

variable {S : Slack}
variable {R : Ty → Prop}
variable {s : Shape}
variable {α β γ : Type}
variable {post : α → β → Machine → Machine → Prop}
variable {u w : Observer}
variable {q : Program}
variable {n j k : Nat}
variable {x y : Run γ}
variable {next : Run β}
variable {other : Flow → Run β}

/- A cut of linked machines is a cut of loosely linked ones. -/
theorem levelCut_of_cut
    (c : Interrupt)
    (m n : Machine)
    (h : (Bond.level R).cut () (fun J => Linked J s) c m n) :
    levelCut s c m n := by
  cases c with
  | throw v => exact Linked.loose h
  | fault c => exact Linked.loose h
  | _ => trivial

/- A computation of both runs. -/
theorem ofYields
    {P : γ → Prop}
    (h : Yields S (Bond.level R) P x y)
    (hs : R s.ret) :
    Mirrors S s (SameValue P s) x y :=
  (h () s hs).weaken (fun _ _ hm => hm) (fun _ _ _ _ hm => hm)
    levelCut_of_cut

/- A computation of both runs at the end. -/
theorem ended
    {P : γ → Prop}
    (h : Yields S (Bond.level R) P x y)
    (hs : R s.ret) : Mirrors S s (SameEnd s) x y :=
  (ofYields h hs).weaken (fun _ _ hm => hm)
    (fun _ _ _ _ ⟨hab, _, hm⟩ => ⟨hab, hm.loose⟩)
    (fun _ _ _ hm => hm)

/- A computation of both runs, and what follows. -/
theorem agreed
    {P : γ → Prop}
    {f : γ → Run α}
    {g : γ → Run β}
    (h : Yields S (Bond.level R) P x y)
    (hs : R s.ret)
    (hf : ∀ a, P a → Mirrors S s post (f a) (g a)) :
    Mirrors S s post (x >>= f) (y >>= g) := by
  refine (ofYields h hs).bind ?_
  intro a b m n ⟨hab, ha, hm⟩
  subst hab
  exact hf a ha m n hm

/- The second run reads a hidden variable. -/
theorem readFirst
    {x : Run α}
    {g : Val → Run β}
    {name : String}
    {v : Val}
    {ty : Ty}
    {span : Span}
    (hw : u.Follows S w)
    (hk : Spare S n (j + 1) k)
    (hName : hidden name = true)
    (hFound : s.find? name = some v)
    (h : Mirrors S s post x (g v)) :
    Mirrors S s post x
      (eval w q k ⟨.localVar name, ty, span⟩ >>= g) :=
  Sim.givesRight (fun _ _ hm => gives_localVar hw hk
    (hm.get_hidden hName hFound)) h

/- The second run ends with the read of a hidden variable. -/
theorem readLast
    {name : String}
    {v : Val}
    {ty : Ty}
    {span : Span}
    {post : α → Val → Machine → Machine → Prop}
    {x : Run α}
    (hw : u.Follows S w)
    (hk : Spare S n (j + 1) k)
    (hName : hidden name = true)
    (hFound : s.find? name = some v)
    (h : Mirrors S s post x (pure v)) :
    Mirrors S s post x
      (eval w q k ⟨.localVar name, ty, span⟩) := by
  have hRead : Mirrors S s post x
      (eval w q k ⟨.localVar name, ty, span⟩ >>= pure) :=
    readFirst hw hk hName hFound h
  rwa [bind_pure] at hRead

/-
  The second run binds the value of what both runs do to a
  hidden variable. More may be known of the first machine.
-/
theorem declareAs
    {pre : Machine → Machine → Prop}
    {I : γ → Machine → Prop}
    {f : γ → Run α}
    {x : Run γ}
    {name : String}
    {ty : Ty}
    {e : Expr}
    {span : Span}
    {ss : List Stmt}
    (val : γ → Val)
    (hk : Spare S n (j + 1) k)
    (hName : hidden name = true)
    (hInit : ∀ k, Spare S n j k → Sim S pre
      (fun a b m n => b = val a ∧ I a m ∧
        Linked Joint.level s m n)
      (levelCut s) x (eval w q k e))
    (h : ∀ a, Sim S
      (fun m n => I a m ∧
        Linked Joint.level (s.hide name ((val a).convert ty)) m n)
      post (levelCut (s.hide name ((val a).convert ty))) (f a)
      (andThen (exec w q k) ss next other)) :
    Sim S pre post (levelCut s) (x >>= f)
      (andThen (exec w q k)
        (⟨.declare name ty (some e), span⟩ :: ss) next
        other) := by
  rw [andThen_cons]
  refine Sim.execRight_bind hk fun k' hk' => ?_
  change Sim S _ post _ (x >>= f)
    ((do
      let v ← eval w q k' e
      declareLocal name (v.convert ty)
      pure Flow.normal) >>= _)
  rw [bind_assoc]
  refine (hInit k' hk').bind ?_
  intro a b m n ⟨hab, ha, hm⟩
  subst hab
  exact h a m _ ⟨ha, hm.hide hName⟩

/- The second run binds a value to a hidden variable. -/
theorem declare
    {P : Val → Prop}
    {f : Val → Run α}
    {x : Run Val}
    {name : String}
    {ty : Ty}
    {e : Expr}
    {span : Span}
    {ss : List Stmt}
    (hk : Spare S n (j + 1) k)
    (hName : hidden name = true)
    (hInit : ∀ k, Spare S n j k →
      Mirrors S s (SameValue P s) x (eval w q k e))
    (h : ∀ v, P v →
      Mirrors S (s.hide name (v.convert ty)) post (f v)
        (andThen (exec w q k) ss next other)) :
    Mirrors S s post (x >>= f)
      (andThen (exec w q k)
        (⟨.declare name ty (some e), span⟩ :: ss) next
        other) := by
  refine declareAs (I := fun v _ => P v) id hk hName
    (fun k hk => ?_) fun v m n ⟨hv, hm⟩ => h v hv m n hm
  exact (hInit k hk).weaken (fun _ _ hm => hm)
    (fun _ _ _ _ ⟨hab, ha, hm⟩ => ⟨hab.symm, ha, hm⟩)
    (fun _ _ _ hm => hm)

/-
  What follows depends on the heap at this moment, from which
  the heap grows.
-/
theorem remember
    {K : Machine → Prop}
    {x y : Run α}
    (h : ∀ heap, Sim S
      (fun m n => K m ∧ m.heap = heap ∧
        Linked Joint.level { s with since := heap } m n)
      (SameEnd { s with since := heap })
      (levelCut { s with since := heap }) x y) :
    Sim S (fun m n => K m ∧ Linked Joint.level s m n) (SameEnd s)
      (levelCut s) x y := by
  intro m n ⟨hK, hm⟩
  have hBack : ∀ {top : Bindings String} {m' n' : Machine},
      Linked Joint.level
        { s with since := m.heap, top := top } m' n' →
      Linked Joint.level { s with top := top } m' n' :=
    fun hl => ⟨hl.world.earlier hm.world.grown,
      ⟨hl.locals.self, hl.locals.cls, hl.locals.retLeft,
        hl.locals.retRight, hl.locals.scopes⟩⟩
  refine (h m.heap m n ⟨hK, rfl, ⟨hm.world.here, ?_⟩⟩).weaken
    ?_ ?_
  · exact ⟨hm.locals.self, hm.locals.cls, hm.locals.retLeft,
      hm.locals.retRight, hm.locals.scopes⟩
  · intro a b m' n' ⟨hab, top, hl⟩
    exact ⟨hab, top, hBack hl⟩
  · intro c m' n' hl
    cases c with
    | throw v =>
      rcases hl with ⟨top, hl⟩
      exact ⟨top, hBack hl⟩
    | fault cause =>
      rcases hl with ⟨top, hl⟩
      exact ⟨top, hBack hl⟩
    | _ => trivial

/- The second run declares a hidden variable with a default. -/
theorem declareDefault
    {x : Run α}
    {name : String}
    {ty : Ty}
    {span : Span}
    {ss : List Stmt}
    (hk : Spare S n (j + 1) k)
    (hName : hidden name = true)
    (h : Mirrors S (s.hide name (Val.defaultOf ty)) post x
      (andThen (exec w q k) ss next other)) :
    Mirrors S s post x
      (andThen (exec w q k)
        (⟨.declare name ty none, span⟩ :: ss) next other) := by
  rw [andThen_cons]
  refine Sim.execRight_bind hk fun k' hk' => ?_
  intro m n hm
  exact h m _ (hm.hide hName)

/- A statement of the second run that stands for a step. -/
theorem step
    {δ : Type}
    {x : Run δ}
    {f : δ → Run α}
    {t : δ → Shape}
    {st : Stmt}
    {ss : List Stmt}
    (hx : Sim S (Linked Joint.level s)
      (fun a flow m n => flow = .normal ∧
        Linked Joint.level (t a) m n)
      (levelCut s) x (exec w q k st))
    (h : ∀ a, Sim S (Linked Joint.level (t a)) post (levelCut s)
      (f a) (andThen (exec w q k) ss next other)) :
    Mirrors S s post (x >>= f)
      (andThen (exec w q k) (st :: ss) next other) := by
  rw [andThen_cons]
  refine hx.bind ?_
  intro a flow m n ⟨hFlow, hm⟩
  subst hFlow
  exact h a m n hm

end Mirrors

------------------------------------------------------------
-- Scopes of the Second Run
------------------------------------------------------------

section Scopes

variable {S : Slack}
variable {R : Ty → Prop}
variable {s : Shape}
variable {α β : Type}
variable {u w : Observer}
variable {q : Program}
variable {n j k : Nat}

/-
  The second run enters a scope alone. The shape afterwards may
  depend on the result of the first run.
-/
theorem Sim.scopeRight
    {Q : α → β → Prop}
    {x : Run α}
    {y : Run β}
    (t : α → Shape)
    (hLength : ∀ a,
      (t a).height = s.height)
    (h : Mirrors S s.opened
      (fun a b m n => Q a b ∧ Loose Joint.level (t a).opened m n)
      x y) :
    Sim S (Linked Joint.level s)
      (fun a b m n => Q a b ∧ Linked Joint.level (t a) m n)
      ((Bond.level R).cut () fun J => Linked J s)
      x (inScope y) := by
  intro m n hm
  have hBody := h m n.enterScope hm.openRight
  have hStart := hm.length_right
  have hAfter : ∀ {u : Shape} {m' n' : Machine},
      u.height = s.height →
      Loose Joint.level u.opened m' n' →
      n'.locals.scopes.length = n.locals.scopes.length + 1 := by
    intro u m' n' hu ⟨top, hl⟩
    have hEnd := hl.length_right
    simp only [Shape.height, Shape.layers, Shape.opened,
      List.flatten_cons, List.length_append, List.length_cons]
      at hEnd hu hStart
    omega
  generalize hy : y n.enterScope = e at hBody
  generalize x m = r at hBody
  cases hBody with
  | ok hPost =>
    rw [inScope_apply hy (hAfter (hLength _) hPost.2)]
    exact .ok ⟨hPost.1, Loose.closeRight hPost.2⟩
  | alike hAlike hCut =>
    cases hAlike with
    | throw v hv =>
      rw [inScope_apply hy (hAfter rfl hCut)]
      exact .alike (.throw v hv) (Loose.closeRight hCut)
    | fault c d =>
      rw [inScope_apply hy (hAfter rfl hCut)]
      exact .alike (.fault c d) (Loose.closeRight hCut)
    | panic text hText =>
      rcases inScope_error hy with ⟨_, hy'⟩
      rw [hy']
      exact .alike (.panic text hText) trivial
    | outOfFuel =>
      rcases inScope_error hy with ⟨_, hy'⟩
      rw [hy']
      exact .alike .outOfFuel trivial
    | stopped why hWhy =>
      rcases inScope_error hy with ⟨_, hy'⟩
      rw [hy']
      exact .alike (.stopped why hWhy) trivial
    | answered why text hWhy =>
      rcases inScope_error hy with ⟨_, hy'⟩
      rw [hy']
      exact .alike (.answered why text hWhy) trivial
  | first hFirst => exact .first hFirst
  | second hSecond =>
    rcases inScope_error hy with ⟨_, hy'⟩
    rw [hy']
    exact .second hSecond

/- The second run enters a scope alone. -/
theorem agrees_inScopeRight
    {x y : Run α}
    (h : ∀ s : Shape, R s.ret → Mirrors S s (SameEnd s) x y) :
    Agrees S (Bond.level R) x (inScope y) := by
  intro g s hs
  refine (Sim.scopeRight (R := R) (Q := Eq) (fun _ => s)
    (fun _ => rfl) (h s.opened hs)).weaken (fun _ _ hm => hm) ?_
    (fun _ _ _ hm => hm)
  intro a b m n ⟨hab, hm⟩
  exact ⟨hab, trivial, hm⟩

/- A block of the second run in front of an expression. -/
theorem agrees_letIn
    {x : Run Val}
    {ss : List Stmt}
    {body : Expr}
    (hw : u.Follows S w)
    (hk : Spare S n (j + 1) k)
    (h : ∀ k, Spare S n j k → ∀ s : Shape, R s.ret →
      Mirrors S s (SameEnd s) x
        (andThen (exec w q k) ss (eval w q k body)
          (faultEscaped .escapedBlock))) :
    Agrees S (Bond.level R) x
      (eval w q k (Expr.letIn ss body)) := by
  intro g s hs
  refine Sim.evalRight hw hk fun k hk => ?_
  rw [evalForm_letIn]
  exact agrees_inScopeRight (h k hk) g s hs

end Scopes

end ExecTrace
