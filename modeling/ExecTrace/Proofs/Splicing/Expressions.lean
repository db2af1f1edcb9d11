import ExecTrace.Proofs.Splicing.Tales

/-
  Spliced expressions. An expression and what it becomes give
  the same value: the parts are evaluated in the same order, and
  every action is reported at the same moment with the same
  values.

  Main declarations:
    * `Spliced.held`
    * `Spliced.agrees_unary`, `Spliced.agrees_binary`
    * `Spliced.agrees_cast`, `Spliced.agrees_typeTest`
-/

namespace ExecTrace

open Run
open Teller (runner)
open Instrument (Site Options fresh reporting probeAt holding
  hidden_fresh)

/-
  An expression at a site agrees with another one in the
  instrumented program.
-/
def Mimics
    (S : Slack)
    (X : Splice)
    (w : Observer)
    (p q : Program)
    (n : Nat)
    (site : Site)
    (e e' : Expr) : Prop :=
  ∀ k, Enough S (n + 1) k →
    Agrees S (Bond.level (· = site.ret))
      (X.teller.evalForm p (X.teller.runner p n) n (some site) e)
      (eval w q k e')

/- An expression keeps its type. -/
theorem Instrument.ty_of_expr
    {o : Options}
    {site : Site}
    {e e' : Expr}
    {c c' : Nat}
    (h : Instrument.expr o site e c = .ok (e', c')) :
    e'.ty = e.ty := by
  rcases e with ⟨form, ty, span⟩
  exact (Instrument.checked_ok.mp h).2

/- The teller whose probes are spliced holds converted values. -/
@[simp] theorem Splice.teller_keep
    (X : Splice)
    (ty : Ty)
    (v : Val) : X.teller.keep ty v = v.convert ty :=
  rfl

/- Operators are told if the options say so. -/
@[simp] theorem Splice.teller_operators
    (X : Splice) :
    X.teller.operators = X.options.recordOperators :=
  rfl

/- Reads are told if the options say so. -/
@[simp] theorem Splice.teller_reads
    (X : Splice) : X.teller.reads = X.options.recordReads :=
  rfl

namespace Spliced

variable {S : Slack}
variable {u w : Observer}
variable {X : Splice}
variable {p q : Program}
variable {n j k : Nat}
variable {site : Site}
variable {s : Shape}
variable {α β : Type}
variable {post : α → β → Machine → Machine → Prop}
variable {ss : List Stmt}
variable {next : Run β}
variable {other : Flow → Run β}
variable {c c' : Nat}

------------------------------------------------------------
-- Parts
------------------------------------------------------------

/- A held part is bound to a hidden variable. -/
theorem heldAs
    (h : Spliced S X w p q n)
    (hk : Spare S n (j + 1) k)
    (hj : j < 8)
    {e e' : Expr}
    (he : e.passes Test.source = true)
    (hPass : Instrument.expr X.options site e c = .ok (e', c'))
    (hs : s.ret = site.ret)
    (hint : String)
    (number : Nat)
    {f : Val → Run α}
    (hRest : ∀ v, v.HeldAs e.ty →
      Mirrors S (s.hide (fresh hint number) v) post (f v)
        (andThen (ExecTrace.exec w q k) ss next other)) :
    Mirrors S s post
      (X.teller.held (X.teller.runner p n) (some site) e >>= f)
      (andThen (ExecTrace.exec w q k)
        ((holding (fresh hint number) e'.ty e').decl :: ss) next
        other) := by
  change Mirrors S s post
    ((X.teller.eval p n (some site) e
      >>= fun v => pure (v.convert e.ty)) >>= f) _
  rw [bind_assoc]
  refine Mirrors.declare (P := fun _ => True) hk
    (hidden_fresh _ _) (fun k hk => ?_) fun v _ => ?_
  · exact Mirrors.ofYields
      (h.eval k (hk.enough hj) site e he c e' c' hPass) hs
  · rw [pure_bind, Instrument.ty_of_expr hPass]
    exact hRest _ ⟨v, rfl⟩

/- A held part is bound, and nothing is known of its value. -/
theorem held
    (h : Spliced S X w p q n)
    (hk : Spare S n (j + 1) k)
    (hj : j < 8)
    {e e' : Expr}
    (he : e.passes Test.source = true)
    (hPass : Instrument.expr X.options site e c = .ok (e', c'))
    (hs : s.ret = site.ret)
    (hint : String)
    (number : Nat)
    {f : Val → Run α}
    (hRest : ∀ v, Mirrors S (s.hide (fresh hint number) v) post
      (f v) (andThen (ExecTrace.exec w q k) ss next other)) :
    Mirrors S s post
      (X.teller.held (X.teller.runner p n) (some site) e >>= f)
      (andThen (ExecTrace.exec w q k)
        ((holding (fresh hint number) e'.ty e').decl :: ss) next
        other) :=
  h.heldAs hk hj he hPass hs hint number fun v _ => hRest v

/- A form of the second run whose parts agree. -/
theorem inwards
    (h : Spliced S X w p q n)
    (hk : Enough S (n + 1) k)
    {x : Run Val}
    {e' : Expr}
    (hx : ∀ k, Spare S n 7 k →
      Agrees S (Bond.level (· = site.ret)) x
        (Runner.evalForm w q (fueled w q k) e')) :
    Agrees S (Bond.level (· = site.ret)) x
      (ExecTrace.eval w q k e') :=
  fun g s hs => Sim.evalRight h.follows hk.spare
    fun k hk => hx k hk g s hs

/- A part agrees with what it becomes. -/
theorem part
    (h : Spliced S X w p q n)
    (hk : Spare S n j k)
    (hj : j < 8)
    {e e' : Expr}
    (he : e.passes Test.source = true)
    (hPass : Instrument.expr X.options site e c = .ok (e', c')) :
    Agrees S (Bond.level (· = site.ret))
      (X.teller.eval p n (some site) e)
      (ExecTrace.eval w q k e') :=
  h.eval k (hk.enough hj) site e he c e' c' hPass

/- A value that is read at last is the result. -/
theorem readResult
    (h : Spliced S X w p q n)
    (hk : Spare S n (j + 1) k)
    {x : String}
    {v : Val}
    {ty : Ty}
    {span : Span}
    (hx : hidden x = true)
    (hFound : s.find? x = some v) :
    Mirrors S s (SameEnd s) (pure v)
      (ExecTrace.eval w q k ⟨.localVar x, ty, span⟩) :=
  Mirrors.readLast h.follows hk hx hFound
    (Sim.pure fun _ _ hm => ⟨rfl, hm.loose⟩)

/-
  A result is bound to a hidden variable, told and read. The
  first run may look at it as long as it is admitted.
-/
theorem toldAfter
    (h : Spliced S X w p q n)
    (hk : Spare S n (j + 4) k)
    (hj : j + 3 < 8)
    {x : Run Val}
    {e' : Expr}
    {hint : String}
    {number : Nat}
    {ty : Ty}
    {span : Span}
    {L : Val → Run Unit}
    {A : Val → Action Unit Shown}
    {P : Probe Operand}
    {Q : Val → Prop}
    {other : Flow → Run Val}
    (hx : ∀ k, Spare S n (j + 2) k →
      Mirrors S s (SameValue Q s) x
        (Runner.evalForm w q (fueled w q k) e'))
    (hLook : ∀ v, w.Admits e' v → L v = pure ())
    (hSound : ∀ v, Q v → w.Admits e' v → X.sound (A v) = true)
    (hTale : ∀ v, Q v →
      Tale (s.hide (fresh hint number) (v.convert ty)) (A v)
        P) :
    Mirrors S s (SameEnd s)
      (x >>= fun v => do
        L v
        X.teller.say p (X.teller.runner p n) n span (A v)
        pure (v.convert ty))
      (andThen (ExecTrace.exec w q k)
        [(holding (fresh hint number) ty e').decl,
          probeAt P span]
        (ExecTrace.eval w q k
          (holding (fresh hint number) ty e').read)
        other) := by
  refine Mirrors.declare (P := fun v => Q v ∧ w.Admits e' v) hk
    (hidden_fresh _ _) (fun k hk => ?_) fun v ⟨hv, hAdmits⟩ => ?_
  · exact (Sim.evalAdmitted h.follows hk fun k hk => hx k hk).weaken
      (fun _ _ hm => hm)
      (fun _ _ _ _ ⟨⟨hab, hQ, hm⟩, hAdmits⟩ =>
        ⟨hab, ⟨hQ, hab ▸ hAdmits⟩, hm⟩)
      (fun _ _ _ hm => hm)
  · rw [hLook v hAdmits, pure_bind]
    refine h.saySound hk (by omega) (hSound v hv hAdmits)
      (hTale v hv) _ ?_
    rw [andThen_nil]
    exact h.readResult hk (hidden_fresh _ _) Shape.find?_hide

/- A result is looked at, bound, told and read. -/
theorem toldSound
    (h : Spliced S X w p q n)
    (hk : Spare S n (j + 4) k)
    (hj : j + 3 < 8)
    {x : Run Val}
    {e e' : Expr}
    {hint : String}
    {number : Nat}
    {span : Span}
    {A : Val → Action Unit Shown}
    {P : Probe Operand}
    {Q : Val → Prop}
    {other : Flow → Run Val}
    (hTy : e'.ty = e.ty)
    (hx : ∀ k, Spare S n (j + 2) k →
      Mirrors S s (SameValue Q s) x
        (Runner.evalForm w q (fueled w q k) e'))
    (hSound : ∀ v, Q v → w.Admits e' v → X.sound (A v) = true)
    (hTale : ∀ v, Q v →
      Tale (s.hide (fresh hint number) (v.convert e.ty)) (A v)
        P) :
    Mirrors S s (SameEnd s)
      (x >>= fun v => do
        X.teller.look e v
        X.teller.say p (X.teller.runner p n) n span (A v)
        pure (v.convert e.ty))
      (andThen (ExecTrace.exec w q k)
        [(holding (fresh hint number) e.ty e').decl,
          probeAt P span]
        (ExecTrace.eval w q k
          (holding (fresh hint number) e.ty e').read)
        other) :=
  h.toldAfter hk hj hx
    (fun _ hAdmits => h.follows.watch_admitted hTy hAdmits) hSound
    hTale

/- The value of a read is looked at, bound, told and read. -/
theorem toldRead
    (h : Spliced S X w p q n)
    (hk : Spare S n (j + 4) k)
    (hj : j + 3 < 8)
    {x : Run Val}
    {e e' : Expr}
    {hint : String}
    {number : Nat}
    {span : Span}
    {place : Place Shown}
    {P : Probe Operand}
    {other : Flow → Run Val}
    (hTy : e'.ty = e.ty)
    (hx : ∀ k, Spare S n (j + 2) k →
      Mirrors S s (SameValue (fun _ => True) s) x
        (Runner.evalForm w q (fueled w q k) e'))
    (hTale : ∀ v : Val,
      Tale (s.hide (fresh hint number) (v.convert e.ty))
        (.operation (.read place (shown e.ty (v.convert e.ty))))
        P) :
    Mirrors S s (SameEnd s)
      (x >>= fun v => do
        X.teller.look e v
        X.teller.say p (X.teller.runner p n) n span
          (.operation (.read place (shown e.ty (v.convert e.ty))))
        pure (v.convert e.ty))
      (andThen (ExecTrace.exec w q k)
        [(holding (fresh hint number) e.ty e').decl,
          probeAt P span]
        (ExecTrace.eval w q k
          (holding (fresh hint number) e.ty e').read)
        other) :=
  h.toldSound hk hj hTy hx (fun _ _ _ => h.fair.plain _ rfl)
    fun v _ => hTale v

/- A result that no operator made is bound, told and read. -/
theorem toldResult
    (h : Spliced S X w p q n)
    (hk : Spare S n (j + 4) k)
    (hj : j + 3 < 8)
    {x : Run Val}
    {e' : Expr}
    {hint : String}
    {number : Nat}
    {ty : Ty}
    {span : Span}
    {A : Val → Action Unit Shown}
    {P : Probe Operand}
    {Q : Val → Prop}
    {other : Flow → Run Val}
    (hPlain : ∀ v, (A v).ofOperator = false)
    (hx : ∀ k, Spare S n (j + 2) k →
      Mirrors S s (SameValue Q s) x
        (Runner.evalForm w q (fueled w q k) e'))
    (hTale : ∀ v, Q v →
      Tale (s.hide (fresh hint number) (v.convert ty)) (A v)
        P) :
    Mirrors S s (SameEnd s)
      (x >>= fun v => do
        X.teller.say p (X.teller.runner p n) n span (A v)
        pure (v.convert ty))
      (andThen (ExecTrace.exec w q k)
        [(holding (fresh hint number) ty e').decl,
          probeAt P span]
        (ExecTrace.eval w q k
          (holding (fresh hint number) ty e').read)
        other) :=
  h.toldAfter (L := fun _ => pure ()) hk hj hx (fun _ _ => rfl)
    (fun v _ _ => h.fair.plain _ (hPlain v)) hTale

------------------------------------------------------------
-- Operators
------------------------------------------------------------

/- A unary operator. -/
theorem agrees_unary
    (h : Spliced S X w p q n)
    {op : UnaryOp}
    {arg e' : Expr}
    {ty : Ty}
    {span : Span}
    (hArg : arg.passes Test.source = true)
    (hPass : Instrument.exprForm X.options site ⟨.unary op arg, ty, span⟩
      (.unary op arg) c = .ok (e', c')) :
    Mimics S X w p q n site
      ⟨.unary op arg, ty, span⟩ e' := by
  intro k hk
  simp only [Instrument.exprForm, Instrument.bind_ok] at hPass
  rcases hPass with ⟨arg', c₁, hArg', hPass⟩
  split at hPass
  · rename_i hOn
    simp only [Instrument.recordUnary, Instrument.bind_ok,
      Instrument.bindTo_ok, Instrument.operand_ok,
      Instrument.pure_ok] at hPass
    rcases hPass with ⟨_, _, ⟨rfl, rfl⟩, _, _, ⟨rfl, rfl⟩, _, _,
      ⟨_, rfl, rfl⟩, _, _, ⟨_, rfl, rfl⟩, rfl, rfl⟩
    have hTy := Instrument.ty_of_expr hArg'
    simp only [Teller.evalForm, Splice.teller_operators, hOn,
      Splice.teller_keep, if_true]
    refine agrees_letIn h.follows hk.spare fun k hk s hs => ?_
    refine h.heldAs hk (by decide) hArg hArg' hs _ _ fun a ha => ?_
    refine h.toldSound (j := 3) (e := ⟨.unary op arg, ty, span⟩)
      (Q := fun v => a.unary op = .ok v) hk (by decide) rfl
      (fun k hk => ?_) (fun v hv hAdmits => ?_) fun v _ => ?_
    · refine Mirrors.readFirst h.follows hk (hidden_fresh _ _)
        Shape.find?_hide ?_
      exact Mirrors.ofYields (R := fun _ => True)
        (yields_ofOperator h.paired _) trivial
    · exact h.fair.unary op arg.ty a v _ ha hv hAdmits
    · rw [← hTy]
      refine tale_unary (reads_localVar (hidden_fresh _ _) ?_)
        (reads_localVar (hidden_fresh _ _) Shape.find?_hide) _
      rw [Shape.find?_hide_fresh (by decide)]
      exact Shape.find?_hide
  · rename_i hOff
    rcases Instrument.pure_ok.mp hPass with ⟨rfl, rfl⟩
    simp only [Teller.evalForm, Splice.teller_operators, hOff]
    refine h.inwards hk fun k hk => ?_
    exact (h.part hk (by decide) hArg hArg').bind fun v _ =>
      agrees_ofOperator h.paired _

/- A binary operator of which nothing is told. -/
theorem agrees_plainBinary
    (h : Spliced S X w p q n)
    (hk : Spare S n 7 k)
    (op : BinaryOp)
    {lhs rhs lhs' rhs' : Expr}
    {c₁ c₂ : Nat}
    (hLhs : lhs.passes Test.source = true)
    (hRhs : rhs.passes Test.source = true)
    (hLhs' : Instrument.expr X.options site lhs c = .ok (lhs', c₁))
    (hRhs' : Instrument.expr X.options site rhs c₁ = .ok (rhs', c₂))
    (ty : Ty)
    (span : Span) :
    Agrees S (Bond.level (· = site.ret))
      (Runner.evalForm X.observer p
        ⟨X.teller.eval p n (some site),
          X.teller.exec p n (some site),
          X.teller.invoke p n⟩
        ⟨.binary op lhs rhs, ty, span⟩)
      (Runner.evalForm w q (fueled w q k)
        ⟨.binary op lhs' rhs', ty, span⟩) := by
  have hLeft := h.part hk (by decide) hLhs hLhs'
  have hRight := h.part hk (by decide) hRhs hRhs'
  cases hOp : op.isShortCircuit with
  | false =>
    rw [Teller.evalForm_strict hOp, Teller.evalForm_strict hOp]
    refine hLeft.bind fun l _ => hRight.bind fun r _ => ?_
    exact (agrees_applyBinary h.paired
      (h.invoke k (hk.enough (by decide))) op l r ty).inMethods
  | true =>
    have hTestLeft := agrees_truth hLeft
    have hTestRight := agrees_truth hRight
    cases op with
    | and => exact agrees_conjunction hTestLeft hTestRight
    | or => exact agrees_disjunction hTestLeft hTestRight
    | _ => cases hOp

/- A binary operator that evaluates both operands. -/
theorem agrees_strict
    (h : Spliced S X w p q n)
    {op : BinaryOp}
    (hOp : op.isShortCircuit = false)
    {lhs rhs lhs' rhs' e' : Expr}
    {c₁ c₂ : Nat}
    {e : Expr}
    (hLhs : lhs.passes Test.source = true)
    (hRhs : rhs.passes Test.source = true)
    (hLhs' : Instrument.expr X.options site lhs c = .ok (lhs', c₁))
    (hRhs' : Instrument.expr X.options site rhs c₁ = .ok (rhs', c₂))
    (hPass : Instrument.recordStrict e op lhs' rhs' c₂
      = .ok (e', c'))
    (hk : Enough S (n + 1) k) :
    Agrees S (Bond.level (· = site.ret))
      (X.teller.toldBinary p (X.teller.runner p n) n (some site)
        e op lhs rhs)
      (ExecTrace.eval w q k e') := by
  simp only [Instrument.recordStrict, Instrument.bind_ok,
    Instrument.bindTo_ok, Instrument.operand_ok,
    Instrument.pure_ok] at hPass
  rcases hPass with ⟨_, _, ⟨rfl, rfl⟩, _, _, ⟨rfl, rfl⟩, _, _,
    ⟨rfl, rfl⟩, _, _, ⟨_, rfl, rfl⟩, _, _, ⟨_, rfl, rfl⟩, _, _,
    ⟨_, rfl, rfl⟩, rfl, rfl⟩
  have hTyLeft := Instrument.ty_of_expr hLhs'
  have hTyRight := Instrument.ty_of_expr hRhs'
  simp only [Teller.toldBinary, hOp, Bool.false_eq_true, if_false,
    Splice.teller_keep]
  refine agrees_letIn h.follows hk.spare fun k hk s hs => ?_
  refine h.heldAs hk (by decide) hLhs hLhs' hs _ _
    fun l hl => ?_
  refine h.heldAs hk (by decide) hRhs hRhs' (by exact hs) _ _
    fun r hr => ?_
  refine h.toldSound (j := 3) (e := e) (Q := Val.Combined op l r)
    hk (by decide) rfl (fun k hk => ?_) (fun v hv hAdmits => ?_)
    fun v _ => ?_
  · rw [Instrument.rebuilt, Teller.evalForm_strict hOp]
    refine Mirrors.readFirst (v := l) h.follows hk
      (hidden_fresh _ _) ?_ ?_
    · rw [Shape.find?_hide_fresh (by decide)]
      exact Shape.find?_hide
    · refine Mirrors.readFirst h.follows hk (hidden_fresh _ _)
        Shape.find?_hide ?_
      exact Mirrors.ofYields (R := fun _ => True)
        (yields_applyBinary h.paired
          (h.invoke k (hk.enough (by decide))) op l r e.ty)
        trivial
  · have hSound := h.fair.strict op lhs.ty rhs.ty l r v _ hOp hl
      hr hv hAdmits
    exact hSound
  · rw [← hTyLeft, ← hTyRight]
    refine tale_binary (reads_localVar (hidden_fresh _ _) ?_)
      (reads_localVar (hidden_fresh _ _) ?_)
      (reads_localVar (hidden_fresh _ _) Shape.find?_hide) _
    · rw [Shape.find?_hide_fresh (by decide),
        Shape.find?_hide_fresh (by decide)]
      exact Shape.find?_hide
    · rw [Shape.find?_hide_fresh (by decide)]
      exact Shape.find?_hide

/-
  A short-circuit operator with a left operand: it has a result
  only if the operand is a truth value, which is the result if
  it decides the operator.
-/
theorem yields_shortCircuit
    (h : Spliced S X w p q n)
    (hk : Spare S n j k)
    (hj : j < 8)
    (op : BinaryOp)
    {lhs lhs' rhs rhs' : Expr}
    {c₁ : Nat}
    (hRhs : rhs.passes Test.source = true)
    (hRhs' : Instrument.expr X.options site rhs c = .ok (rhs', c₁))
    (left : Val) :
    Yields S (Bond.level (· = site.ret))
      (fun v => ∃ b, left = .bool b ∧
        (Teller.decided op (.bool b) = true → v = .bool b))
      (Teller.shortCircuit (X.teller.runner p n) (some site) op
        lhs rhs left)
      (Teller.shortCircuit
        ⟨fun _ => ExecTrace.eval w q k,
          fun _ => ExecTrace.exec w q k, ExecTrace.invoke w q k⟩
        none op lhs' rhs' left) := by
  have hRight := agrees_truth (h.part hk hj hRhs hRhs')
  have hTruth : Yields S (Bond.level (· = site.ret))
      (fun b => left = .bool b) (truthOf lhs left)
      (truthOf lhs' left) := by
    unfold truthOf
    cases hBool : left.asBool? with
    | none => exact yields_faultShowing _ _ _ _
    | some b =>
      refine Yields.pure ?_
      unfold Val.asBool? at hBool
      split at hBool
      · cases hBool
        rfl
      · cases hBool
  have hUndecided : ∀ {v : Val} {b : Bool},
      left = .bool b → Teller.decided op (.bool b) = false →
      ∃ b, left = .bool b ∧
        (Teller.decided op (.bool b) = true → v = .bool b) :=
    fun hb hOpen => ⟨_, hb, fun h => by rw [hOpen] at h; cases h⟩
  unfold Teller.shortCircuit
  split
  · refine hTruth.bind fun b hb => ?_
    cases b with
    | true => exact hRight.bind fun _ _ => Yields.pure (hUndecided hb rfl)
    | false => exact Yields.pure ⟨false, hb, fun _ => rfl⟩
  · rename_i hOp
    have hOpen : Teller.decided op (.bool false) = false := by
      cases op with
      | and => exact absurd rfl hOp
      | _ => rfl
    refine hTruth.bind fun b hb => ?_
    cases b with
    | true => exact Yields.pure ⟨true, hb, fun _ => rfl⟩
    | false =>
      exact hRight.bind fun _ _ => Yields.pure (hUndecided hb hOpen)

/- Whether an operand is skipped can be read off the left one. -/
theorem reads_skips
    {s : Shape}
    {op : BinaryOp}
    (hOp : op.isShortCircuit = true)
    {x : String}
    {ty : Ty}
    {span : Span}
    {b : Bool}
    (hx : hidden x = true)
    (hFound : s.find? x = some (.bool b)) :
    Reads s (Instrument.skips op ⟨.localVar x, ty, span⟩)
      (.bool (Teller.decided op (.bool b))) := by
  cases op with
  | and =>
    have hNot : Reads s
        (Instrument.skips .and ⟨.localVar x, ty, span⟩)
        (.bool !b) :=
      reads_not _ hx hFound
    cases b <;> exact hNot
  | or =>
    have hSelf : Reads s ⟨.localVar x, ty, span⟩ (.bool b) :=
      reads_localVar hx hFound
    cases b <;> exact hSelf
  | _ => cases hOp

/- A binary operator that may skip an operand. -/
theorem agrees_shortCircuit
    (h : Spliced S X w p q n)
    {op : BinaryOp}
    (hOp : op.isShortCircuit = true)
    {lhs rhs lhs' rhs' e' : Expr}
    {c₁ c₂ : Nat}
    {e : Expr}
    (hLhs : lhs.passes Test.source = true)
    (hRhs : rhs.passes Test.source = true)
    (hLhs' : Instrument.expr X.options site lhs c = .ok (lhs', c₁))
    (hRhs' : Instrument.expr X.options site rhs c₁ = .ok (rhs', c₂))
    (hPass : Instrument.recordShortCircuit e op lhs' rhs' c₂
      = .ok (e', c'))
    (hk : Enough S (n + 1) k) :
    Agrees S (Bond.level (· = site.ret))
      (X.teller.toldBinary p (X.teller.runner p n) n (some site)
        e op lhs rhs)
      (ExecTrace.eval w q k e') := by
  simp only [Instrument.recordShortCircuit, Instrument.bind_ok,
    Instrument.bindTo_ok, Instrument.operand_ok,
    Instrument.pure_ok] at hPass
  rcases hPass with ⟨_, _, ⟨rfl, rfl⟩, _, _, ⟨rfl, rfl⟩, _, _,
    ⟨_, rfl, rfl⟩, _, _, ⟨_, rfl, rfl⟩, _, _, ⟨_, rfl, rfl⟩, rfl,
    rfl⟩
  have hTy := Instrument.ty_of_expr hLhs'
  simp only [Teller.toldBinary, hOp, if_true, Splice.teller_keep]
  refine agrees_letIn h.follows hk.spare fun k hk s hs => ?_
  refine h.held hk (by decide) hLhs hLhs' hs _ _ fun l => ?_
  refine h.toldSound (j := 3) (e := e)
    (Q := fun v => ∃ b, l = .bool b ∧
      (Teller.decided op (.bool b) = true → v = .bool b))
    hk (by decide) rfl (fun k hk => ?_) ?_ ?_
  · rw [Instrument.rebuilt, Teller.evalForm_shortCircuit hOp]
    refine Mirrors.readFirst h.follows hk (hidden_fresh _ _)
      Shape.find?_hide ?_
    exact Mirrors.ofYields
      (h.yields_shortCircuit hk (by decide) op hRhs hRhs' l)
      (by exact hs)
  · rintro v ⟨b, hb, hDecided⟩ hAdmits
    subst hb
    have hSound := h.fair.shortCircuit op lhs.ty b v _ hOp
      hDecided hAdmits
    exact hSound
  · rintro v ⟨b, hb, _⟩
    subst hb
    rw [← hTy]
    refine tale_shortCircuit
      (reads_localVar (hidden_fresh _ _) ?_)
      (reads_localVar (hidden_fresh _ _) Shape.find?_hide)
      (reads_skips hOp (hidden_fresh _ _) ?_) _
    · rw [Shape.find?_hide_fresh (by decide)]
      exact Shape.find?_hide
    · rw [Shape.find?_hide_fresh (by decide)]
      exact Shape.find?_hide

/- A binary operator. -/
theorem agrees_binary
    (h : Spliced S X w p q n)
    {op : BinaryOp}
    {lhs rhs e' : Expr}
    {ty : Ty}
    {span : Span}
    (hLhs : lhs.passes Test.source = true)
    (hRhs : rhs.passes Test.source = true)
    (hPass : Instrument.exprForm X.options site
      ⟨.binary op lhs rhs, ty, span⟩ (.binary op lhs rhs) c
        = .ok (e', c')) :
    Mimics S X w p q n site
      ⟨.binary op lhs rhs, ty, span⟩ e' := by
  intro k hk
  simp only [Instrument.exprForm, Instrument.bind_ok] at hPass
  rcases hPass with ⟨lhs', c₁, hLhs', rhs', c₂, hRhs', hPass⟩
  simp only [Teller.evalForm, Splice.teller_operators]
  split at hPass
  · rename_i hOn
    simp only [hOn, if_true]
    unfold Instrument.recordBinary at hPass
    split at hPass
    · rename_i hOp
      exact h.agrees_shortCircuit hOp hLhs hRhs hLhs' hRhs' hPass
        hk
    · rename_i hOp
      exact h.agrees_strict (by simpa using hOp) hLhs hRhs hLhs'
        hRhs' hPass hk
  · rename_i hOff
    rcases Instrument.pure_ok.mp hPass with ⟨rfl, rfl⟩
    simp only [hOff, Bool.false_eq_true, if_false]
    exact h.inwards hk fun k hk =>
      h.agrees_plainBinary hk op hLhs hRhs hLhs' hRhs' ty span

------------------------------------------------------------
-- Reads
------------------------------------------------------------

/- A read of a local variable. -/
theorem agrees_localVar
    (h : Spliced S X w p q n)
    {name : String}
    {e' : Expr}
    {ty : Ty}
    {span : Span}
    (hName : hidden name = false)
    (hPass : Instrument.exprForm X.options site ⟨.localVar name, ty, span⟩
      (.localVar name) c = .ok (e', c')) :
    Mimics S X w p q n site
      ⟨.localVar name, ty, span⟩ e' := by
  intro k hk
  simp only [Instrument.exprForm] at hPass
  simp only [Teller.evalForm, Teller.afterRead,
    Splice.teller_reads, Splice.teller_keep]
  split at hPass
  · rename_i hOn
    simp only [Instrument.recordRead, Instrument.bind_ok,
      Instrument.bindTo_ok, Instrument.operand_ok,
      Instrument.pure_ok] at hPass
    rcases hPass with ⟨_, _, ⟨rfl, rfl⟩, _, _, ⟨rfl, rfl⟩, _, _,
      ⟨_, rfl, rfl⟩, rfl, rfl⟩
    simp only [hOn, if_true]
    refine agrees_letIn h.follows hk.spare fun k hk s hs => ?_
    refine h.toldRead (j := 3) (e := ⟨_, ty, span⟩) hk (by decide)
      rfl (fun k hk => ?_) fun v => ?_
    · exact Mirrors.ofYields (R := fun _ => True)
        (agrees_getLocal name hName) trivial
    · exact tale_read (placeTale_localVar name)
        (reads_localVar (hidden_fresh _ _) Shape.find?_hide)
  · rename_i hOff
    rcases Instrument.pure_ok.mp hPass with ⟨rfl, rfl⟩
    simp only [hOff, Bool.false_eq_true, if_false, bind_pure]
    exact h.inwards hk fun k hk => agrees_getLocal name hName

/- A read of a static field. -/
theorem agrees_staticField
    (h : Spliced S X w p q n)
    {cls field : String}
    {e' : Expr}
    {ty : Ty}
    {span : Span}
    (hPass : Instrument.exprForm X.options site
      ⟨.staticField cls field, ty, span⟩
      (.staticField cls field) c = .ok (e', c')) :
    Mimics S X w p q n site
      ⟨.staticField cls field, ty, span⟩ e' := by
  intro k hk
  simp only [Instrument.exprForm] at hPass
  simp only [Teller.evalForm, Teller.afterRead,
    Splice.teller_reads, Splice.teller_keep]
  split at hPass
  · rename_i hOn
    simp only [Instrument.recordRead, Instrument.bind_ok,
      Instrument.bindTo_ok, Instrument.operand_ok,
      Instrument.pure_ok] at hPass
    rcases hPass with ⟨_, _, ⟨rfl, rfl⟩, _, _, ⟨rfl, rfl⟩, _, _,
      ⟨_, rfl, rfl⟩, rfl, rfl⟩
    simp only [hOn, if_true]
    refine agrees_letIn h.follows hk.spare fun k hk s hs => ?_
    refine h.toldRead (j := 3) (e := ⟨_, ty, span⟩) hk (by decide)
      rfl (fun k hk => ?_) fun v => ?_
    · exact Mirrors.ofYields (R := fun _ => True)
        (agrees_getStatic h.paired cls field) trivial
    · exact tale_read (placeTale_staticField cls field)
        (reads_localVar (hidden_fresh _ _) Shape.find?_hide)
  · rename_i hOff
    rcases Instrument.pure_ok.mp hPass with ⟨rfl, rfl⟩
    simp only [hOff, Bool.false_eq_true, if_false, bind_pure]
    exact h.inwards hk fun k hk =>
      agrees_getStatic h.paired cls field

/- A read of a field of an object. -/
theorem agrees_instanceField
    (h : Spliced S X w p q n)
    {object e' : Expr}
    {cls field : String}
    {ty : Ty}
    {span : Span}
    (hObject : object.passes Test.source = true)
    (hPass : Instrument.exprForm X.options site
      ⟨.instanceField object cls field, ty, span⟩
      (.instanceField object cls field) c = .ok (e', c')) :
    Mimics S X w p q n site
      ⟨.instanceField object cls field, ty, span⟩ e' := by
  intro k hk
  simp only [Instrument.exprForm, Instrument.bind_ok] at hPass
  rcases hPass with ⟨object', c₁, hObject', hPass⟩
  simp only [Teller.evalForm, Teller.afterRead,
    Teller.partOfRead, Splice.teller_reads, Splice.teller_keep]
  split at hPass
  · rename_i hOn
    simp only [Instrument.recordFieldRead, Instrument.recordRead,
      Instrument.bind_ok, Instrument.bindTo_ok,
      Instrument.operand_ok, Instrument.pure_ok] at hPass
    rcases hPass with ⟨_, _, ⟨rfl, rfl⟩, _, _, ⟨rfl, rfl⟩, _, _,
      ⟨_, _, ⟨_, rfl, rfl⟩, rfl, rfl⟩, _, _, ⟨_, rfl, rfl⟩, rfl,
      rfl⟩
    have hTy := Instrument.ty_of_expr hObject'
    simp only [hOn, if_true]
    refine agrees_letIn h.follows hk.spare fun k hk s hs => ?_
    refine h.held hk (by decide) hObject hObject' hs _ _
      fun a => ?_
    refine h.toldRead (j := 3) (e := ⟨_, ty, span⟩) hk (by decide)
      rfl (fun k hk => ?_) fun v => ?_
    · refine Mirrors.readFirst h.follows hk (hidden_fresh _ _)
        Shape.find?_hide ?_
      exact Mirrors.ofYields (R := fun _ => True)
        (agrees_read h.paired _ rfl) trivial
    · rw [← hTy]
      refine tale_read
        (placeTale_instanceField
          (reads_localVar (hidden_fresh _ _) ?_) cls field)
        (reads_localVar (hidden_fresh _ _) Shape.find?_hide)
      rw [Shape.find?_hide_fresh (by decide)]
      exact Shape.find?_hide
  · rename_i hOff
    rcases Instrument.pure_ok.mp hPass with ⟨rfl, rfl⟩
    simp only [hOff, Bool.false_eq_true, if_false, bind_pure]
    refine h.inwards hk fun k hk => ?_
    exact (h.part hk (by decide) hObject hObject').bind fun v _ =>
      agrees_read h.paired _ rfl

/- A read of an element of an array. -/
theorem agrees_index
    (h : Spliced S X w p q n)
    {array index e' : Expr}
    {ty : Ty}
    {span : Span}
    (hArray : array.passes Test.source = true)
    (hIndex : index.passes Test.source = true)
    (hPass : Instrument.exprForm X.options site
      ⟨.index array index, ty, span⟩
      (.index array index) c = .ok (e', c')) :
    Mimics S X w p q n site
      ⟨.index array index, ty, span⟩ e' := by
  intro k hk
  simp only [Instrument.exprForm, Instrument.bind_ok] at hPass
  rcases hPass with ⟨array', c₁, hArray', index', c₂, hIndex',
    hPass⟩
  simp only [Teller.evalForm, Teller.afterRead,
    Teller.partOfRead, Splice.teller_reads, Splice.teller_keep]
  split at hPass
  · rename_i hOn
    simp only [Instrument.recordElementRead,
      Instrument.recordRead, Instrument.bind_ok,
      Instrument.bindTo_ok, Instrument.operand_ok,
      Instrument.pure_ok] at hPass
    rcases hPass with ⟨_, _, ⟨rfl, rfl⟩, _, _, ⟨rfl, rfl⟩, _, _,
      ⟨rfl, rfl⟩, _, _, ⟨_, _, ⟨_, rfl, rfl⟩, _, _, ⟨_, rfl, rfl⟩,
      rfl, rfl⟩, _, _, ⟨_, rfl, rfl⟩, rfl, rfl⟩
    have hTyArray := Instrument.ty_of_expr hArray'
    have hTyIndex := Instrument.ty_of_expr hIndex'
    simp only [hOn, if_true]
    refine agrees_letIn h.follows hk.spare fun k hk s hs => ?_
    refine h.held hk (by decide) hArray hArray' hs _ _
      fun a => ?_
    refine h.held hk (by decide) hIndex hIndex' (by exact hs) _ _
      fun i => ?_
    refine h.toldRead (j := 3) (e := ⟨_, ty, span⟩) hk (by decide)
      rfl (fun k hk => ?_) fun v => ?_
    · refine Mirrors.readFirst h.follows hk (hidden_fresh _ _)
        (Shape.find?_hide_fresh (by decide) |>.trans
          Shape.find?_hide) ?_
      refine Mirrors.readFirst h.follows hk (hidden_fresh _ _)
        Shape.find?_hide ?_
      exact Mirrors.ofYields (R := fun _ => True)
        (agrees_read h.paired _ rfl) trivial
    · rw [← hTyArray, ← hTyIndex]
      refine tale_read
        (placeTale_element
          (reads_localVar (hidden_fresh _ _) ?_)
          (reads_localVar (hidden_fresh _ _) ?_))
        (reads_localVar (hidden_fresh _ _) Shape.find?_hide)
      · rw [Shape.find?_hide_fresh (by decide),
          Shape.find?_hide_fresh (by decide)]
        exact Shape.find?_hide
      · rw [Shape.find?_hide_fresh (by decide)]
        exact Shape.find?_hide
  · rename_i hOff
    rcases Instrument.pure_ok.mp hPass with ⟨rfl, rfl⟩
    simp only [hOff, Bool.false_eq_true, if_false, bind_pure]
    refine h.inwards hk fun k hk => ?_
    refine (h.part hk (by decide) hArray hArray').bind
      fun a _ => ?_
    exact (h.part hk (by decide) hIndex hIndex').bind fun i _ =>
      agrees_read h.paired _ rfl

------------------------------------------------------------
-- Conditions and Types
------------------------------------------------------------

/- A condition whose outcome is told. -/
theorem agrees_outcome
    (h : Spliced S X w p q n)
    (hk : Spare S n (j + 4) k)
    (hj : j + 3 < 8)
    {cond value' cond' : Expr}
    (hCond : cond.passes Test.source = true)
    {c₁ c₂ : Nat}
    (hValue : Instrument.expr X.options site cond c = .ok (value', c₁))
    {act : Shown → Action Unit Shown}
    {P : Operand → Probe Operand}
    (hPass : Instrument.recordCondition cond.span value' P c₁
      = .ok (cond', c₂))
    (hPlain : ∀ o, (act o).ofOperator = false)
    (hTale : ∀ s e v, Reads s e v →
      Tale s (act (shown e.ty v)) (P (reporting e))) :
    Agrees S (Bond.level (· = site.ret))
      (X.teller.held (X.teller.runner p n) (some site) cond
        >>= fun v => do
          X.teller.say p (X.teller.runner p n) n cond.span
            (act (shown cond.ty v))
          pure v)
      (ExecTrace.eval w q k cond') := by
  simp only [Instrument.recordCondition, Instrument.bind_ok,
    Instrument.bindTo_ok, Instrument.operand_ok,
    Instrument.pure_ok] at hPass
  rcases hPass with ⟨_, _, ⟨rfl, rfl⟩, _, _, ⟨_, rfl, rfl⟩, rfl,
    rfl⟩
  have hTy := Instrument.ty_of_expr hValue
  refine agrees_letIn h.follows hk fun k hk s hs => ?_
  refine h.held hk (by omega) hCond hValue hs _ _ fun v => ?_
  refine h.say hk (by omega) (hPlain _) ?_ _ ?_
  · rw [← hTy]
    exact hTale _ _ _
      (reads_localVar (hidden_fresh _ _) Shape.find?_hide)
  · exact h.readResult hk (hidden_fresh _ _) Shape.find?_hide

/- Whether a condition holds, whose outcome is told first. -/
theorem agrees_judge
    (h : Spliced S X w p q n)
    (hk : Spare S n (j + 4) k)
    (hj : j + 3 < 8)
    {cond value' cond' : Expr}
    (hCond : cond.passes Test.source = true)
    {c₁ c₂ : Nat}
    (hValue : Instrument.expr X.options site cond c = .ok (value', c₁))
    {act : Shown → Action Unit Shown}
    {P : Operand → Probe Operand}
    (hPass : Instrument.recordCondition cond.span value' P c₁
      = .ok (cond', c₂))
    (hPlain : ∀ o, (act o).ofOperator = false)
    (hTale : ∀ s e v, Reads s e v →
      Tale s (act (shown e.ty v)) (P (reporting e))) :
    Agrees S (Bond.level (· = site.ret))
      (X.teller.judge p (X.teller.runner p n) n (some site) cond
        act)
      (truth (ExecTrace.eval w q k) cond') := by
  have hTruth := Yields.bind
    (h.agrees_outcome hk hj hCond hValue hPass hPlain hTale)
    fun v _ => agrees_truthOf cond cond' v
  simp only [bind_assoc, pure_bind] at hTruth
  exact hTruth

/- A conditional. -/
theorem agrees_conditional
    (h : Spliced S X w p q n)
    {cond onTrue onFalse e' : Expr}
    {ty : Ty}
    {span : Span}
    (hCond : cond.passes Test.source = true)
    (hTrue : onTrue.passes Test.source = true)
    (hFalse : onFalse.passes Test.source = true)
    (hPass : Instrument.exprForm X.options site
      ⟨.conditional cond onTrue onFalse, ty, span⟩
      (.conditional cond onTrue onFalse) c = .ok (e', c')) :
    Mimics S X w p q n site
      ⟨.conditional cond onTrue onFalse, ty, span⟩ e' := by
  intro k hk
  simp only [Instrument.exprForm, Instrument.bind_ok,
    Instrument.pure_ok] at hPass
  rcases hPass with ⟨value', c₁, hValue, cond', c₂, hCond',
    onTrue', c₃, hTrue', onFalse', c₄, hFalse', rfl, rfl⟩
  refine h.inwards hk fun k hk => ?_
  refine Yields.bind (P := fun _ => True)
    (h.agrees_judge (j := 3) hk (by decide) hCond hValue hCond'
      (fun _ => rfl) fun s e v hv => tale_ternary hv)
    fun b _ => ?_
  cases b with
  | true =>
    exact (h.part hk (by decide) hTrue hTrue').bind
      fun _ _ => Yields.pure trivial
  | false =>
    exact (h.part hk (by decide) hFalse hFalse').bind
      fun _ _ => Yields.pure trivial

/- A test for a type. -/
theorem agrees_typeTest
    (h : Spliced S X w p q n)
    {arg e' : Expr}
    {target ty : Ty}
    {span : Span}
    (hArg : arg.passes Test.source = true)
    (hPass : Instrument.exprForm X.options site
      ⟨.typeTest arg target, ty, span⟩
      (.typeTest arg target) c = .ok (e', c')) :
    Mimics S X w p q n site
      ⟨.typeTest arg target, ty, span⟩ e' := by
  intro k hk
  simp only [Instrument.exprForm, Instrument.recordTypeTest,
    Instrument.bind_ok, Instrument.bindTo_ok,
    Instrument.operand_ok, Instrument.pure_ok] at hPass
  rcases hPass with ⟨arg', c₁, hArg', _, _, ⟨rfl, rfl⟩, _, _,
    ⟨rfl, rfl⟩, _, _, ⟨_, rfl, rfl⟩, _, _, ⟨_, rfl, rfl⟩, rfl,
    rfl⟩
  have hTy := Instrument.ty_of_expr hArg'
  refine agrees_letIn h.follows hk.spare fun k hk s hs => ?_
  refine h.held hk (by decide) hArg hArg' hs _ _ fun a => ?_
  refine h.toldResult (j := 3)
    (x := do
      let h := (← get).heap
      pure (.bool (Call.instanceOf p h a target)))
    (Q := fun v => ∃ b, v = .bool b)
    (A := fun v => .typeTest (shown arg.ty a) target.text
      (v.asBool?.getD false)) hk (by decide) (fun _ => rfl)
    (fun k hk => ?_) fun v ⟨b, hb⟩ => ?_
  · refine Mirrors.readFirst h.follows hk (hidden_fresh _ _)
      Shape.find?_hide ?_
    refine Mirrors.ofYields (R := fun _ => True)
      (Yields.look fun _ _ m m' hm => ?_) trivial
    rw [hm.world.heap, h.paired.instanceOf]
    exact Yields.pure ⟨_, rfl⟩
  · subst hb
    rw [← hTy]
    refine tale_typeTest (reads_localVar (hidden_fresh _ _) ?_)
      (reads_localVar (hidden_fresh _ _) Shape.find?_hide) _
    rw [Shape.find?_hide_fresh (by decide)]
    exact Shape.find?_hide

/- Whether a value can be cast is found out beforehand. -/
theorem gives_castable
    {m m' : Machine}
    (h : Spliced S X w p q n)
    (hk : Spare S n (j + 3) k)
    (hm : Linked Joint.level s m m')
    {x : String}
    {v : Val}
    (hx : hidden x = true)
    (hFound : s.find? x = some v)
    (ty target : Ty)
    (span span' : Span) :
    Gives S m'
      (ExecTrace.eval w q k
        (Instrument.castable span ⟨.localVar x, ty, span'⟩
          target))
      (.bool (v.isNull || Call.instanceOf p m.heap v target)) := by
  have hGet := hm.get_hidden hx hFound
  have hSame : Val.binary .eq v .null = .ok (.bool v.isNull) := by
    unfold Val.binary
    cases v with
    | scalar s => cases s <;> rfl
    | _ => rfl
  refine gives_eval h.follows hk fun k hk => ?_
  have hNull : Gives S m'
      (Runner.test (fueled w q k)
        ⟨.binary .eq ⟨.localVar x, ty, span'⟩
          ⟨.literal .null, .null, span⟩, .bool, span⟩)
      v.isNull := by
    refine Gives.bind (a := .bool v.isNull)
      (gives_eval h.follows hk fun k hk => ?_) (.pure _)
    refine (gives_localVar h.follows hk hGet).bind ?_
    refine Gives.bind (a := .null)
      (gives_eval h.follows hk fun k hk => .pure _) ?_
    unfold applyBinary
    rw [if_neg (by simp), hSame]
    exact .pure _
  have hInstance : Gives S m'
      (Runner.test (fueled w q k)
        ⟨.typeTest ⟨.localVar x, ty, span'⟩ target, .bool, span⟩)
      (Call.instanceOf p m.heap v target) := by
    refine Gives.bind
      (a := .bool (Call.instanceOf p m.heap v target))
      (gives_eval h.follows hk fun k hk => ?_) (.pure _)
    refine (gives_localVar h.follows hk hGet).bind ?_
    rw [← hm.world.heap, ← h.paired.instanceOf]
    exact .inl rfl
  refine hNull.bind ?_
  cases v.isNull with
  | true => exact .pure _
  | false => exact hInstance.bind (.pure _)

/- A cast. -/
theorem agrees_cast
    (h : Spliced S X w p q n)
    {arg e' : Expr}
    {target ty : Ty}
    {span : Span}
    (hArg : arg.passes Test.source = true)
    (hPass : Instrument.exprForm X.options site ⟨.cast target arg, ty, span⟩
      (.cast target arg) c = .ok (e', c')) :
    Mimics S X w p q n site
      ⟨.cast target arg, ty, span⟩ e' := by
  intro k hk
  simp only [Instrument.exprForm, Instrument.bind_ok] at hPass
  rcases hPass with ⟨arg', c₁, hArg', hPass⟩
  have hTy := Instrument.ty_of_expr hArg'
  rw [hTy] at hPass
  simp only [Teller.evalForm]
  split at hPass
  · rename_i hOn
    simp only [Instrument.recordCast, Instrument.bind_ok,
      Instrument.bindTo_ok, Instrument.operand_ok,
      Instrument.pure_ok] at hPass
    rcases hPass with ⟨_, _, ⟨rfl, rfl⟩, _, _, ⟨rfl, rfl⟩, _, _,
      ⟨_, rfl, rfl⟩, _, _, ⟨_, rfl, rfl⟩, rfl, rfl⟩
    simp only [hOn, if_true]
    refine agrees_letIn h.follows hk.spare fun k hk s hs => ?_
    refine h.held hk (by decide) hArg hArg' hs _ _ fun v => ?_
    refine Mirrors.declareRight (Q := fun _ => True)
      (fun m => .bool
        (v.isNull || Call.instanceOf p m.heap v target))
      hk (hidden_fresh _ _) (fun _ _ hm => hm)
      (fun _ _ _ => trivial) (fun k hk m m' hm => ?_)
      fun u _ _ => ?_
    · exact h.gives_castable (j := 3) hk hm (hidden_fresh _ _)
        Shape.find?_hide _ _ _ _
    · refine h.sayFrom (j := 4) hk (by decide)
        (fun _ _ hm => hm.1) (fun m m' hm => ?_) rfl span ?_
      · rw [← hTy]
        refine ⟨h.fair.plain _ rfl, ?_⟩
        refine tale_castAttempt
          (reads_localVar (hidden_fresh _ _) ?_)
          (reads_localVar (hidden_fresh _ _) ?_) _
        · rw [Shape.find?_hide_fresh (by decide)]
          exact Shape.find?_hide
        · rw [← hm.2]
          exact Shape.find?_hide
      · rw [andThen_nil]
        refine Sim.evalRight h.follows hk fun k hk => ?_
        refine Mirrors.readFirst (v := v) h.follows hk
          (hidden_fresh _ _) ?_ ?_
        · rw [Shape.find?_hide_fresh (by decide)]
          exact Shape.find?_hide
        · exact Mirrors.ended (R := fun _ => True)
            (ExecTrace.agrees_cast h.paired v target) trivial
  · rename_i hOff
    rcases Instrument.pure_ok.mp hPass with ⟨rfl, rfl⟩
    simp only [hOff, Bool.false_eq_true, if_false]
    refine h.inwards hk fun k hk => ?_
    exact (h.part hk (by decide) hArg hArg').bind fun v _ =>
      ExecTrace.agrees_cast h.paired v target

------------------------------------------------------------
-- Arrays and Switches
------------------------------------------------------------

/- Some expressions agree with what they become. -/
theorem parts
    (h : Spliced S X w p q n)
    (hk : Spare S n j k)
    (hj : j < 8)
    {es es' : List Expr}
    (hes : passExprs Test.source es = true)
    (hPass : Instrument.exprs X.options site es c = .ok (es', c')) :
    List.Forall₂
      (fun e e' => Agrees S (Bond.level (· = site.ret))
        (X.teller.eval p n (some site) e)
        (ExecTrace.eval w q k e')) es es' := by
  induction es generalizing c es' with
  | nil =>
    rcases Instrument.pure_ok.mp hPass with ⟨rfl, _⟩
    exact .nil
  | cons e rest ih =>
    simp only [passExprs, Bool.and_eq_true] at hes
    simp only [Instrument.exprs, Instrument.bind_ok,
      Instrument.pure_ok] at hPass
    rcases hPass with ⟨e', c₁, he', rest', c₂, hRest', rfl, rfl⟩
    exact .cons (h.part hk hj hes.1 he') (ih hes.2 hRest')

/- Statements agree with what they become. -/
theorem keeps_block
    (h : Spliced S X w p q n)
    (hk : Spare S n j k)
    (hj : j < 8)
    {ss ss' : List Stmt}
    (hss : passStmts Test.source ss = true)
    (hPass : Instrument.block X.options site ss c = .ok (ss', c')) :
    Keeps S (Bond.level (· = site.ret)) none (Flow.told none)
      (runAll
        (X.teller.exec p n (some site)) ss)
      (runAll (ExecTrace.exec w q k) ss') := by
  induction ss generalizing c ss' with
  | nil =>
    rcases Instrument.pure_ok.mp hPass with ⟨rfl, _⟩
    exact Keeps.pure rfl
  | cons s rest ih =>
    simp only [passStmts, Bool.and_eq_true] at hss
    simp only [Instrument.block, Instrument.bind_ok,
      Instrument.pure_ok] at hPass
    rcases hPass with ⟨s', c₁, hs', rest', c₂, hRest', rfl, rfl⟩
    rw [runAll_append]
    exact (h.exec k (hk.enough hj) site s hss.1 c s' c₁
      hs').followed (ih hss.2 hRest')

/- Arms agree with what they become. -/
theorem arms
    (h : Spliced S X w p q n)
    (hk : Spare S n j k)
    (hj : j < 8)
    {as as' : List Arm}
    (has : passArms Test.source as = true)
    (hPass : Instrument.arms X.options site as c = .ok (as', c')) :
    List.Forall₂
      (ArmsKeep S (Bond.level (· = site.ret)) none
        (runAll
          (X.teller.exec p n (some site)))
        (runAll (ExecTrace.exec w q k))) as as' := by
  induction as generalizing c as' with
  | nil =>
    rcases Instrument.pure_ok.mp hPass with ⟨rfl, _⟩
    exact .nil
  | cons a rest ih =>
    rcases a with ⟨labels, body⟩
    simp only [passArms, Bool.and_eq_true] at has
    simp only [Instrument.arms, Instrument.bind_ok,
      Instrument.pure_ok] at hPass
    rcases hPass with ⟨body', c₁, hBody', rest', c₂, hRest', rfl,
      rfl⟩
    exact .cons ⟨rfl, h.keeps_block hk hj has.1 hBody'⟩
      (ih has.2 hRest')

/- The length of an array. -/
theorem agrees_length
    (h : Spliced S X w p q n)
    {array e' : Expr}
    {ty : Ty}
    {span : Span}
    (hArray : array.passes Test.source = true)
    (hPass : Instrument.exprForm X.options site ⟨.length array, ty, span⟩
      (.length array) c = .ok (e', c')) :
    Mimics S X w p q n site
      ⟨.length array, ty, span⟩ e' := by
  intro k hk
  simp only [Instrument.exprForm, Instrument.bind_ok,
    Instrument.pure_ok] at hPass
  rcases hPass with ⟨array', c₁, hArray', rfl, rfl⟩
  refine h.inwards hk fun k hk => ?_
  exact (h.part hk (by decide) hArray hArray').bind fun v _ =>
    agrees_lengthOf h.paired v

/- A new array with a length. -/
theorem agrees_newArray
    (h : Spliced S X w p q n)
    {element : Ty}
    {length e' : Expr}
    {ty : Ty}
    {span : Span}
    (hLength : length.passes Test.source = true)
    (hPass : Instrument.exprForm X.options site
      ⟨.newArray element length, ty, span⟩
      (.newArray element length) c = .ok (e', c')) :
    Mimics S X w p q n site
      ⟨.newArray element length, ty, span⟩ e' := by
  intro k hk
  simp only [Instrument.exprForm, Instrument.bind_ok,
    Instrument.pure_ok] at hPass
  rcases hPass with ⟨length', c₁, hLength', rfl, rfl⟩
  refine h.inwards hk fun k hk => ?_
  exact (h.part hk (by decide) hLength hLength').bind fun v _ =>
    agrees_arrayOfLength h.paired element v

/- A new array with items. -/
theorem agrees_arrayOf
    (h : Spliced S X w p q n)
    {element : Ty}
    {items : List Expr}
    {e' : Expr}
    {ty : Ty}
    {span : Span}
    (hItems : passExprs Test.source items = true)
    (hPass : Instrument.exprForm X.options site
      ⟨.arrayOf element items, ty, span⟩
      (.arrayOf element items) c = .ok (e', c')) :
    Mimics S X w p q n site
      ⟨.arrayOf element items, ty, span⟩ e' := by
  intro k hk
  simp only [Instrument.exprForm, Instrument.bind_ok,
    Instrument.pure_ok] at hPass
  rcases hPass with ⟨items', c₁, hItems', rfl, rfl⟩
  refine h.inwards hk fun k hk => ?_
  have hAll := agrees_mapForall₂
    (h.parts hk (by decide) hItems hItems')
  exact hAll.bind fun vs _ => ExecTrace.agrees_newArray element _

/- A switch expression. -/
theorem agrees_switch
    (h : Spliced S X w p q n)
    {selector e' : Expr}
    {armList : List Arm}
    {ty : Ty}
    {span : Span}
    (hSelector : selector.passes Test.source = true)
    (hArms : passArms Test.source armList = true)
    (hPass : Instrument.exprForm X.options site
      ⟨.switch selector armList, ty, span⟩
      (.switch selector armList) c = .ok (e', c')) :
    Mimics S X w p q n site
      ⟨.switch selector armList, ty, span⟩ e' := by
  intro k hk
  simp only [Instrument.exprForm, Instrument.recordSelector,
    Instrument.bind_ok, Instrument.bindTo_ok,
    Instrument.operand_ok, Instrument.pure_ok] at hPass
  rcases hPass with ⟨selector', c₁, hSelector', _, _, ⟨rfl, rfl⟩,
    _, _, ⟨_, rfl, rfl⟩, arms', c₂, hArms', rfl, rfl⟩
  have hTy := Instrument.ty_of_expr hSelector'
  refine agrees_letIn h.follows hk.spare fun k hk s hs => ?_
  refine h.held hk (by decide) hSelector hSelector' hs _ _
    fun v => ?_
  refine h.say hk (by decide) rfl ?_ _ ?_
  · rw [← hTy]
    exact tale_selector
      (reads_localVar (hidden_fresh _ _) Shape.find?_hide)
  · rw [andThen_nil]
    refine Sim.evalRight h.follows hk fun k hk => ?_
    refine Mirrors.readFirst h.follows hk (hidden_fresh _ _)
      Shape.find?_hide ?_
    have hValue := agrees_switchValue h.paired v
      (h.arms hk (by decide) hArms hArms')
    refine Mirrors.ended (P := fun _ => True)
      (R := (· = site.ret)) ?_ hs
    exact hValue.bind fun _ _ => Yields.pure trivial

end Spliced

end ExecTrace
