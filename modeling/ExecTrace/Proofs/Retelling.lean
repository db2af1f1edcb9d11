import ExecTrace.Proofs.Conversion
import ExecTrace.Proofs.FlowAgreement
import ExecTrace.Proofs.Source
import ExecTrace.Proofs.Telling

/-
  One program, told by two tellers. If the parts of a program
  give one result for both, then so does every form built from
  them, whatever the tellers do with the actions, as long as
  telling an action keeps the machines linked. Only the value of
  the form itself may be held in two ways, and reads and operators
  may be told by the first teller alone.

  Main declarations:
    * `Retold`
    * `Held` and `Result`
    * `Told` and `Ahead`
    * `Retold.sim_evalForm`
    * `Retold.keeps_execForm`
    * `agrees_perform`
-/

namespace ExecTrace

open Run
open Instrument (Site)

/- Whether an action neither opens nor closes a frame. -/
def Action.Inner
    {κ α : Type}
    (a : Action κ α) : Prop :=
  a.opens = none ∧ a.ends = none

/- Whether an action is told only if the options say so. -/
def Action.isOptional
    {κ α : Type} : Action κ α → Bool
  | .operation (.read _ _) => true
  | .operation (.unary _ _ _) => true
  | .binary _ _ _ _ => true
  | _ => false

namespace Teller

------------------------------------------------------------
-- Two Tellers
------------------------------------------------------------

/- A value that two tellers hold in one way. -/
def Kept
    (T U : Teller)
    (ty : Ty)
    (v : Val) : Prop :=
  T.keep ty v = U.keep ty v

/- Two tellers of which both tell reads, and both operators. -/
def Even (T U : Teller) : Prop :=
  U.reads = T.reads ∧ U.operators = T.operators

/-
  A value that two tellers hold in one way. It is held as it is
  if one of them may hold it alone.
-/
structure Held
    (T U : Teller)
    (ty : Ty)
    (v : Val) : Prop where
  kept : Kept T U ty v
  alone : ¬ Even T U → T.keep ty v = v

/-
  Actions that two tellers tell at one place. They are the same
  if the tellers hold values in one way, and if they are actions
  of statements.
-/
structure Told
    (T U : Teller)
    (a b : Action Unit Shown) : Prop where
  family : b.family = a.family
  same : T.spliced = U.spliced ∨ a.family = .statement → b = a

/- One action is told by both tellers. -/
theorem Told.rfl
    {T U : Teller}
    {a : Action Unit Shown} : Told T U a a :=
  ⟨Eq.refl _, fun _ => Eq.refl _⟩

/- Actions of operations are told. -/
theorem Told.operation
    {T U : Teller}
    {a b : Action Unit Shown}
    (ha : a.family = .nonStatement)
    (hb : b.family = .nonStatement)
    (h : T.spliced = U.spliced → b = a) : Told T U a b where
  family := hb.trans ha.symm
  same := fun hSame => by
    rcases hSame with hSame | hStatement
    · exact h hSame
    · rw [ha] at hStatement
      cases hStatement

/-
  What the first of two tellers needs for telling reads and
  operators alone: telling them keeps the machines linked, and
  their values are held as they are.
-/
structure Ahead
    (S : Slack)
    (B : Bond)
    (p : Program)
    (T U : Teller)
    (i : Invoker)
    (n : Nat) : Prop where
  reads : U.reads = false
  operators : U.operators = false
  tell : ∀ span act, (∀ m, (act m).isOptional = true) →
    Agrees S B (T.tell p i n span act) (pure ())
  look : ∀ e v, Yields S B (fun _ => T.keep e.ty v = v)
    (T.look e v) (pure ())

/- What a plain run does with a strict operator. -/
theorem evalForm_strict
    {w : Observer}
    {q : Program}
    {op : BinaryOp}
    (hOp : op.isShortCircuit = false)
    (r : Runner)
    (lhs rhs : Expr)
    (ty : Ty)
    (span : Span) :
    Runner.evalForm w q r ⟨.binary op lhs rhs, ty, span⟩
      = (do
        let left ← r.eval lhs
        let right ← r.eval rhs
        applyBinary q r.invoke op left right ty) := by
  cases op <;> first | rfl | cases hOp

/- What a plain run does with a short-circuit operator. -/
theorem evalForm_shortCircuit
    {w : Observer}
    {q : Program}
    {op : BinaryOp}
    (hOp : op.isShortCircuit = true)
    (r : Runner)
    (lhs rhs : Expr)
    (ty : Ty)
    (span : Span) :
    Runner.evalForm w q r ⟨.binary op lhs rhs, ty, span⟩
      = (do
        let left ← r.eval lhs
        shortCircuit
          ⟨fun _ => r.eval, fun _ => r.exec, r.invoke⟩ none op lhs
          rhs left) := by
  cases op with
  | and => exact bind_assoc _ _ _
  | or => exact bind_assoc _ _ _
  | _ => cases hOp

/- Two results that come from one value. -/
def Result
    (T U : Teller)
    (ty : Ty)
    (a b : Val) : Prop :=
  a = b ∨ ∃ v, a = T.keep ty v ∧ b = U.keep ty v

/-
  What two tellers need for telling one program: they tell the
  same actions, up to those that the first one tells alone, the
  parts of the program give one result for both, and telling
  keeps the machines linked.
-/
structure Retold
    (S : Slack)
    (B : Bond)
    (move : String → String → B.Ghost → B.Ghost)
    (M : Pairing)
    (p q : Program)
    (T U : Teller)
    (r r' : SiteRunner)
    (n k : Nat)
    (told : Bool)
    (t : Test) : Prop where
  ahead : ¬ Even T U → Ahead S B p T U r.invoke n
  paired : Paired M p q
  invokers : Invokers S B M r.invoke r'.invoke
  paced : Paced S n k
  sourceExpr : ∀ e, t.expr e = true → Test.sourceExpr e = true
  sourceStmt : ∀ s, t.stmt s = true → Test.sourceStmt s = true
  compounds :
    T.spliced = U.spliced ∨
      (T.spliced = false ∧ ∀ e, t.expr e = true →
        Test.plainCompound e = true ∨
          S.lapses = true ∧ Test.typedCompound e = true)
  lostCalled : ∀ cls method g a b,
    B.lost (move cls method g) a b → B.lost g a b
  tell : ∀ span act act', (∀ m, (act m).Inner) →
    (∀ g s, B.rets s.ret → ∀ m m',
      Linked (B.holds g) s m m' → Told T U (act m) (act' m')) →
    Agrees S B (T.tell p r.invoke n span act)
      (U.tell q r'.invoke k span act')
  tellCall : ∀ span callee receiver args g s,
    Sim S (Linked (B.holds g) s)
      (fun _ _ m m' => Linked
        (B.holds (move callee.cls callee.method g)) s m m')
      hard
      (T.say p r n span (.call callee receiver args))
      (U.say q r' k span (.call callee receiver args))
  tellResume : ∀ span cls method how how' g s,
    (T.spliced = U.spliced → how' = how) →
    Sim S (Linked (B.holds (move cls method g)) s)
      (fun _ _ m m' => Linked (B.holds g) s m m') hard
      (T.say p r n span (.resume () cls method how))
      (U.say q r' k span (.resume () cls method how'))
  tellLeave : ∀ site : Option Site, site.isSome = told →
    ∀ span how g s,
      Sim S (Linked (B.holds g) s)
        (fun _ _ m m' => Linked
          (B.after g (site.map Site.method)) s m m') hard
        (T.leave p r n span (methodName site) how)
        (U.leave q r' k span (methodName site) how)
  lookBack : ∀ e v, Yields S B (fun _ => Kept T U e.ty v)
    (T.lookBack e v) (U.lookBack e v)
  look : ∀ e v, Agrees S B (T.look e v) (U.look e v)
  eval : ∀ site : Option Site, site.isSome = told →
    ∀ e : Expr, e.passes t = true →
      Yields S B (Held T U e.ty) (r.eval site e) (r'.eval site e)
  exec : ∀ site : Option Site, site.isSome = told →
    ∀ s : Stmt, s.passes t = true →
      Keeps S B none (Flow.told (site.map Site.method))
        (r.exec site s) (r'.exec site s)

namespace Retold

variable {S : Slack}
variable {B : Bond}
variable {move : String → String → B.Ghost → B.Ghost}
variable {M : Pairing}
variable {p q : Program}
variable {T U : Teller}
variable {r r' : SiteRunner}
variable {n k : Nat}
variable {told : Bool}
variable {t : Test}
variable {site : Option Site}

------------------------------------------------------------
-- Parts
------------------------------------------------------------

/- Tellers that hold values alike hold each value alike. -/
theorem keep_eq
    (hSame : T.spliced = U.spliced)
    (ty : Ty)
    (v : Val) : T.keep ty v = U.keep ty v := by
  simp only [keep, hSame]

/- An action that does not depend on the state is told. -/
theorem say
    (h : Retold S B move M p q T U r r' n k told t)
    (span : Span)
    {act : Action Unit Shown}
    (hInner : act.Inner) :
    Agrees S B (T.say p r n span act) (U.say q r' k span act) :=
  h.tell span _ _ (fun _ => hInner) fun _ _ _ _ _ _ => .rfl

/- An expression is held as one value. -/
theorem held
    (h : Retold S B move M p q T U r r' n k told t)
    (hSite : site.isSome = told)
    {e : Expr}
    (he : e.passes t = true) :
    Agrees S B (T.held r site e) (U.held r' site e) := by
  refine (h.eval site hSite e he).bind fun v hv => ?_
  rw [hv.kept]
  exact Yields.pure trivial

/- An expression is held by the first teller alone. -/
theorem heldAlone
    (h : Retold S B move M p q T U r r' n k told t)
    (hOdd : ¬ Even T U)
    (hSite : site.isSome = told)
    {e : Expr}
    (he : e.passes t = true) :
    Agrees S B (T.held r site e) (r'.eval site e) := by
  have hHeld : Agrees S B (T.held r site e)
      (r'.eval site e >>= pure) := by
    refine (h.eval site hSite e he).bind fun v hv => ?_
    rw [hv.alone hOdd]
    exact Yields.pure trivial
  rwa [bind_pure] at hHeld

/- Expressions are held as one list of values. -/
theorem heldAll
    (h : Retold S B move M p q T U r r' n k told t)
    (hSite : site.isSome = told)
    {es : List Expr}
    (hes : passExprs t es = true) :
    Agrees S B (es.mapM (T.held r site))
      (es.mapM (U.held r' site)) := by
  refine (Yields.mapM (P := fun _ => True) es ?_).agrees
  induction es with
  | nil => simp
  | cons e rest ih =>
    simp only [passExprs, Bool.and_eq_true] at hes
    intro c hc
    rcases List.mem_cons.mp hc with hc | hc
    · exact hc ▸ h.held hSite hes.1
    · exact ih hes.2 c hc

/- A part of a place is one value. -/
theorem partOfRead
    (h : Retold S B move M p q T U r r' n k told t)
    (hSite : site.isSome = told)
    {e : Expr}
    (he : e.passes t = true) :
    Agrees S B (T.partOfRead r site e)
      (U.partOfRead r' site e) := by
  unfold Teller.partOfRead
  by_cases hEven : Even T U
  · rw [hEven.1]
    split
    · exact h.held hSite he
    · exact (h.eval site hSite e he).agrees
  · simp only [(h.ahead hEven).reads, Bool.false_eq_true, if_false]
    split
    · exact h.heldAlone hEven hSite he
    · exact (h.eval site hSite e he).agrees

/- A condition is judged in one way. -/
theorem judge
    (h : Retold S B move M p q T U r r' n k told t)
    (hSite : site.isSome = told)
    {e : Expr}
    (he : e.passes t = true)
    (report : Shown → Action Unit Shown)
    (hInner : ∀ o, (report o).Inner) :
    Agrees S B (T.judge p r n site e report)
      (U.judge q r' k site e report) :=
  (h.held hSite he).bind fun v _ =>
    (h.say e.span (hInner _)).bind fun _ _ =>
      agrees_truthOf e e v

/- The parts of a target are found in one way. -/
theorem placeOf
    (h : Retold S B move M p q T U r r' n k told t)
    (hSite : site.isSome = told)
    {e : Expr}
    (he : e.passes t = true) :
    Yields S B (fun x => x.1.isVisible = true)
      (T.placeOf r site e) (U.placeOf r' site e) := by
  rcases e with ⟨form, ty, span⟩
  simp only [Expr.passes, Bool.and_eq_true] at he
  have hSource := h.sourceExpr _ he.1
  unfold Teller.placeOf
  cases form with
  | localVar name => exact Yields.pure hSource
  | staticField cls field => exact Yields.pure rfl
  | instanceField object cls field =>
    exact (h.held hSite he.2).bind fun _ _ => Yields.pure rfl
  | index array index =>
    simp only [ExprForm.passes, Bool.and_eq_true] at he
    exact (h.held hSite he.2.1).bind fun _ _ =>
      (h.held hSite he.2.2).bind fun _ _ => Yields.pure rfl
  | _ => exact Yields.fault _ _

/- Two computations that give results of one value. -/
abbrev Results
    (S : Slack)
    (B : Bond)
    (T U : Teller)
    (ty : Ty)
    (x y : Run Val) : Prop :=
  ∀ g s, B.rets s.ret → Sim S (Linked (B.holds g) s)
    (fun a b m n => Result T U ty a b ∧
      Linked (B.holds g) s m n)
    (B.cut g fun J => Linked J s) x y

/- A computation with one result has results of one value. -/
theorem results
    {P : Val → Prop}
    {ty : Ty}
    {x y : Run Val}
    (h : Yields S B P x y) : Results S B T U ty x y :=
  fun g s hs => (h g s hs).weaken (fun _ _ hm => hm)
    (fun _ _ _ _ ⟨hab, _, hm⟩ => ⟨.inl hab, hm⟩)
    (fun _ _ _ hm => hm)

/- Results of one value behind a computation with one result. -/
theorem resultsAfter
    {α : Type}
    {P : α → Prop}
    {ty : Ty}
    {x y : Run α}
    {f g : α → Run Val}
    (h : Yields S B P x y)
    (hf : ∀ a, P a → Results S B T U ty (f a) (g a)) :
    Results S B T U ty (x >>= f) (y >>= g) := by
  intro gh s hs
  refine (h gh s hs).bind ?_
  intro a b m n ⟨hab, ha, hm⟩
  subst hab
  exact hf a ha gh s hs m n hm

/- Results of one value behind a computation of the first run. -/
theorem resultsAlone
    {P : Unit → Prop}
    {ty : Ty}
    {x : Run Unit}
    {f : Unit → Run Val}
    {y : Run Val}
    (h : Yields S B P x (pure ()))
    (hf : ∀ a, P a → Results S B T U ty (f a) y) :
    Results S B T U ty (x >>= f) y := by
  have hBoth := resultsAfter (g := fun _ => y) h hf
  rwa [pure_bind] at hBoth

/- What the first run does with a result leaves its value. -/
theorem resultsThen
    {ty : Ty}
    {x y : Run Val}
    {f : Val → Run Val}
    (h : Agrees S B x y)
    (hf : ∀ v, Results S B T U ty (f v) (pure v)) :
    Results S B T U ty (x >>= f) y := by
  have hBoth := resultsAfter (g := pure) h fun v _ => hf v
  rwa [bind_pure] at hBoth

/- An optional action neither opens nor closes a frame. -/
theorem inner_of_optional
    {κ α : Type}
    {a : Action κ α}
    (h : a.isOptional = true) : a.Inner := by
  cases a with
  | operation o => exact ⟨rfl, rfl⟩
  | binary => exact ⟨rfl, rfl⟩
  | _ => cases h

/- An optional action is no action of a statement. -/
theorem family_of_optional
    {κ α : Type}
    {a : Action κ α}
    (h : a.isOptional = true) : a.family = .nonStatement := by
  cases a with
  | statement s => cases h
  | _ => rfl

/- A value is looked at, told and returned as it is held. -/
theorem tellKept
    (h : Retold S B move M p q T U r r' n k told t)
    (e : Expr)
    (v : Val)
    (act : Val → Action Unit Shown)
    (hOptional : ∀ v, (act v).isOptional = true) :
    Results S B T U e.ty
      (do
        T.look e v
        T.say p r n e.span (act (T.keep e.ty v))
        pure (T.keep e.ty v))
      (do
        U.look e v
        U.say q r' k e.span (act (U.keep e.ty v))
        pure (U.keep e.ty v)) := by
  have hTell : Agrees S B
      (T.say p r n e.span (act (T.keep e.ty v)))
      (U.say q r' k e.span (act (U.keep e.ty v))) := by
    refine h.tell e.span _ _
      (fun _ => inner_of_optional (hOptional _)) ?_
    intro _ _ _ _ _ _
    refine .operation (family_of_optional (hOptional _))
      (family_of_optional (hOptional _)) fun hSame => ?_
    rw [keep_eq hSame e.ty v]
  refine resultsAfter (h.look e v) fun _ _ => ?_
  refine resultsAfter hTell fun _ _ g s _ => ?_
  exact Sim.pure fun _ _ hm => ⟨.inr ⟨v, rfl, rfl⟩, hm⟩

/- A value is told by the first teller alone. -/
theorem tellAlone
    (h : Ahead S B p T U r.invoke n)
    (e : Expr)
    (v : Val)
    (act : Val → Action Unit Shown)
    (hOptional : ∀ v, (act v).isOptional = true) :
    Results S B T U e.ty
      (do
        T.look e v
        T.say p r n e.span (act (T.keep e.ty v))
        pure (T.keep e.ty v))
      (pure v) := by
  refine resultsAlone (h.look e v) fun _ hv => ?_
  refine resultsAlone
    (h.tell e.span _ fun _ => hOptional _) fun _ _ => ?_
  rw [hv]
  exact results (Yields.pure (P := fun _ => True) trivial)

/- The value of a read is told. -/
theorem afterRead
    (h : Retold S B move M p q T U r r' n k told t)
    (e : Expr)
    (place : Place Shown)
    (v : Val) :
    Results S B T U e.ty (T.afterRead p r n e place v)
      (U.afterRead q r' k e place v) := by
  have hSame : Results S B T U e.ty (pure v) (pure v) :=
    results (Yields.pure (P := fun _ => True) trivial)
  unfold Teller.afterRead
  by_cases hEven : Even T U
  · rw [hEven.1]
    split
    · exact h.tellKept e v
        (fun v => .operation (.read place (shown e.ty v)))
        fun _ => rfl
    · exact hSame
  · simp only [(h.ahead hEven).reads, Bool.false_eq_true, if_false]
    split
    · exact tellAlone (h.ahead hEven) e v
        (fun v => .operation (.read place (shown e.ty v)))
        fun _ => rfl
    · exact hSame

end Retold

/- Something is done on both sides when something is thrown. -/
theorem sim_onThrow
    {S : Slack}
    {α β : Type}
    {pre : Machine → Machine → Prop}
    {post : α → β → Machine → Machine → Prop}
    {cut : Cut}
    (cut' : Cut)
    {x : Run α}
    {y : Run β}
    {f g : Val → Run Unit}
    (h : Sim S pre post cut x y)
    (hThrow : ∀ v, Sim S (cut (.throw v))
      (fun _ _ => cut' (.throw v)) hard (f v) (g v))
    (hFault : ∀ c m n, cut (.fault c) m n → cut' (.fault c) m n)
    (hHard : ∀ c m n, hard c m n → cut' c m n) :
    Sim S pre post cut' (onThrow x f) (onThrow y g) := by
  intro m n hm
  have hBody := h m n hm
  have hStop : ∀ {c : Interrupt}, (∀ v, c ≠ .throw v) →
      (∀ cause, c ≠ .fault cause) → ∀ m n, cut' c m n :=
    fun hc hd m n => hHard _ m n ⟨hc, hd⟩
  unfold onThrow
  generalize x m = a at hBody
  generalize y n = b at hBody
  cases hBody with
  | ok hPost => exact .ok hPost
  | alike hAlike hCut =>
    cases hAlike with
    | throw v hv =>
      have hAct := (hThrow v).weaken (fun _ _ hm => hm)
        (fun _ _ _ _ hm => hm) hHard
      refine (hAct.bind fun _ _ => ?_) _ _ hCut
      exact Sim.throw (.throw v hv) fun _ _ hm => hm
    | fault c d =>
      exact .alike (.fault c d) (hFault c _ _ hCut)
    | panic text hText =>
      exact .alike (.panic text hText)
        (hStop (by simp) (by simp) _ _)
    | outOfFuel =>
      exact .alike .outOfFuel (hStop (by simp) (by simp) _ _)
    | stopped why hWhy =>
      exact .alike (.stopped why hWhy)
        (hStop (by simp) (by simp) _ _)
    | answered why text hWhy =>
      exact .alike (.answered why text hWhy)
        (hStop (by simp) (by simp) _ _)
  | @first c m' _ hFirst =>
    cases c with
    | throw v => cases hFirst
    | _ => exact .first hFirst
  | @second d n' _ hSecond =>
    cases d with
    | throw v => cases hSecond
    | _ => exact .second hSecond

namespace Retold

variable {S : Slack}
variable {B : Bond}
variable {move : String → String → B.Ghost → B.Ghost}
variable {M : Pairing}
variable {p q : Program}
variable {T U : Teller}
variable {r r' : SiteRunner}
variable {n k : Nat}
variable {told : Bool}
variable {t : Test}
variable {site : Option Site}

/- A call is told on both sides. -/
theorem called
    (h : Retold S B move M p q T U r r' n k told t)
    (span : Span)
    (callee : Callee)
    (receiver : Option Shown)
    (args : List Shown)
    (ty : Ty)
    {x y : Run Val}
    (hxy : Agrees S B x y) :
    Results S B T U ty
      (do
        T.say p r n span (.call callee receiver args)
        T.called p r n span callee.cls callee.method ty x)
      (do
        U.say q r' k span (.call callee receiver args)
        U.called q r' k span callee.cls callee.method ty y) := by
  intro g s hs
  have hCall := (h.tellCall span callee receiver args g s).weaken
    (fun _ _ hm => hm) (fun _ _ _ _ hm => hm)
    (fun _ _ _ hm => B.cut_hard (g := g)
      (L := fun J => Linked J s) hm)
  refine hCall.bind fun _ _ => ?_
  -- Inside the call its frame is open, whatever happens.
  have hBody := sim_onThrow (B.cut g fun J => Linked J s)
    (f := fun e => T.say p r n span
      (.resume () callee.cls callee.method
        (.aborted (shown Ty.throwable e))))
    (g := fun e => U.say q r' k span
      (.resume () callee.cls callee.method
        (.aborted (shown Ty.throwable e))))
    (hxy (move callee.cls callee.method g) s hs)
    (fun v => h.tellResume span _ _ _ _ g s fun _ => rfl)
    (fun c m n hm => Linked.weaken hm
      (h.lostCalled callee.cls callee.method g))
    (fun c m n hm => B.cut_hard hm)
  refine hBody.bind ?_
  intro a b m m' ⟨hab, _, hm⟩
  subst hab
  have hResume := (h.tellResume span callee.cls callee.method
    (if ty = .void then .void
      else .returned (shown ty (T.keep ty a)))
    (if ty = .void then .void
      else .returned (shown ty (U.keep ty a))) g s
    (fun hSame => by rw [keep_eq hSame ty a])).weaken
    (fun _ _ hm => hm) (fun _ _ _ _ hm => hm)
    (fun _ _ _ hm => B.cut_hard (g := g)
      (L := fun J => Linked J s) hm)
  refine (hResume.bind fun _ _ => ?_) m m' hm
  exact Sim.pure fun _ _ hm => ⟨.inr ⟨a, rfl, rfl⟩, hm⟩

------------------------------------------------------------
-- Operators
------------------------------------------------------------

/- A short-circuit operator has one result. -/
theorem shortCircuit
    (h : Retold S B move M p q T U r r' n k told t)
    (hSite : site.isSome = told)
    (op : BinaryOp)
    (lhs : Expr)
    {rhs : Expr}
    (he : rhs.passes t = true)
    (left : Val) :
    Agrees S B (Teller.shortCircuit r site op lhs rhs left)
      (Teller.shortCircuit r' site op lhs rhs left) := by
  have hLeft := agrees_truthOf (S := S) (B := B) lhs lhs left
  have hRight : Agrees S B (truth (r.eval site) rhs)
      (truth (r'.eval site) rhs) :=
    agrees_truth (h.eval site hSite rhs he)
  unfold Teller.shortCircuit
  split
  · exact agrees_conjunction hLeft hRight
  · exact agrees_disjunction hLeft hRight

/- A binary operator is told on both sides. -/
theorem toldBinary
    (h : Retold S B move M p q T U r r' n k told t)
    (hSite : site.isSome = told)
    (e : Expr)
    (op : BinaryOp)
    {lhs rhs : Expr}
    (hl : lhs.passes t = true)
    (hr : rhs.passes t = true) :
    Results S B T U e.ty
      (T.toldBinary p r n site e op lhs rhs)
      (U.toldBinary q r' k site e op lhs rhs) := by
  refine resultsAfter (h.held hSite hl) fun left _ => ?_
  split
  · refine resultsAfter
      (h.shortCircuit hSite op lhs hr left) fun v _ => ?_
    exact h.tellKept e v
      (fun v =>
        .binary op.symbol (shown lhs.ty left)
          (if decided op left then none else some (shown e.ty v))
          (shown e.ty v))
      fun _ => rfl
  · refine resultsAfter (h.held hSite hr) fun right _ => ?_
    refine resultsAfter
      (agrees_applyBinary h.paired h.invokers op left right e.ty)
      fun v _ => ?_
    exact h.tellKept e v
      (fun v =>
        .binary op.symbol (shown lhs.ty left)
          (some (shown rhs.ty right)) (shown e.ty v))
      fun _ => rfl

/- A binary operator is told by the first teller alone. -/
theorem binaryAlone
    (h : Retold S B move M p q T U r r' n k told t)
    (hOdd : ¬ Even T U)
    (hSite : site.isSome = told)
    (w : Observer)
    {ty : Ty}
    {span : Span}
    {op : BinaryOp}
    {lhs rhs : Expr}
    (hl : lhs.passes t = true)
    (hr : rhs.passes t = true) :
    Results S B T U ty
      (T.toldBinary p r n site ⟨.binary op lhs rhs, ty, span⟩ op
        lhs rhs)
      (Runner.evalForm w q
        ⟨r'.eval site, r'.exec site, r'.invoke⟩
        ⟨.binary op lhs rhs, ty, span⟩) := by
  have hTell := tellAlone (r := r) (h.ahead hOdd)
    ⟨.binary op lhs rhs, ty, span⟩
  unfold Teller.toldBinary
  cases hOp : op.isShortCircuit with
  | true =>
    rw [evalForm_shortCircuit hOp]
    refine resultsAfter (h.heldAlone hOdd hSite hl)
      fun left _ => ?_
    rw [if_pos rfl]
    refine resultsThen
      (h.shortCircuit hSite op lhs hr left) fun v => ?_
    exact hTell v
      (fun v =>
        .binary op.symbol (shown lhs.ty left)
          (if decided op left then none else some (shown ty v))
          (shown ty v))
      fun _ => rfl
  | false =>
    rw [evalForm_strict hOp]
    refine resultsAfter (h.heldAlone hOdd hSite hl)
      fun left _ => ?_
    rw [if_neg (by decide)]
    refine resultsAfter (h.heldAlone hOdd hSite hr)
      fun right _ => ?_
    refine resultsThen
      (agrees_applyBinary h.paired h.invokers op left right ty)
      fun v => ?_
    exact hTell v
      (fun v =>
        .binary op.symbol (shown lhs.ty left)
          (some (shown rhs.ty right)) (shown ty v))
      fun _ => rfl

/- A binary operator of which nothing is told has one result. -/
theorem plainBinary
    (h : Retold S B move M p q T U r r' n k told t)
    (hSite : site.isSome = told)
    (w w' : Observer)
    (ty : Ty)
    (span : Span)
    (op : BinaryOp)
    {lhs rhs : Expr}
    (hl : lhs.passes t = true)
    (hr : rhs.passes t = true) :
    Agrees S B
      (Runner.evalForm w p
        ⟨r.eval site, r.exec site, r.invoke⟩
        ⟨.binary op lhs rhs, ty, span⟩)
      (Runner.evalForm w' q
        ⟨r'.eval site, r'.exec site, r'.invoke⟩
        ⟨.binary op lhs rhs, ty, span⟩) := by
  have hLeft := h.eval site hSite lhs hl
  have hRight := h.eval site hSite rhs hr
  have hStrict : Agrees S B
      (do
        let left ← r.eval site lhs
        let right ← r.eval site rhs
        applyBinary p r.invoke op left right ty)
      (do
        let left ← r'.eval site lhs
        let right ← r'.eval site rhs
        applyBinary q r'.invoke op left right ty) :=
    hLeft.bind fun _ _ => hRight.bind fun _ _ =>
      agrees_applyBinary h.paired h.invokers _ _ _ _
  unfold Runner.evalForm
  cases op with
  | and =>
    exact agrees_conjunction (agrees_truth hLeft)
      (agrees_truth hRight)
  | or =>
    exact agrees_disjunction (agrees_truth hLeft)
      (agrees_truth hRight)
  | _ => exact hStrict

/- A unary operator has results of one value. -/
theorem unary
    (h : Retold S B move M p q T U r r' n k told t)
    (hSite : site.isSome = told)
    {op : UnaryOp}
    {arg : Expr}
    {ty : Ty}
    {span : Span}
    (he : arg.passes t = true) :
    Results S B T U ty
      (T.evalForm p r n site ⟨.unary op arg, ty, span⟩)
      (U.evalForm q r' k site ⟨.unary op arg, ty, span⟩) := by
  have hApply := fun a : Val =>
    agrees_ofOperator (S := S) (B := B) h.paired (a.unary op)
  have hUntold : Results S B T U ty
      (do
        let a ← r.eval site arg
        ofOperator p (a.unary op))
      (do
        let a ← r'.eval site arg
        ofOperator q (a.unary op)) :=
    results ((h.eval site hSite arg he).bind fun a _ => hApply a)
  unfold Teller.evalForm
  by_cases hEven : Even T U
  · simp only [hEven.2]
    split
    · refine resultsAfter (h.held hSite he) fun a _ => ?_
      refine resultsAfter (hApply a) fun v _ => ?_
      exact h.tellKept ⟨.unary op arg, ty, span⟩ v
        (fun v => .operation
          (.unary op.symbol (shown arg.ty a) (shown ty v)))
        fun _ => rfl
    · exact hUntold
  · simp only [(h.ahead hEven).operators, Bool.false_eq_true,
      if_false]
    split
    · refine resultsAfter (h.heldAlone hEven hSite he)
        fun a _ => ?_
      refine resultsThen (hApply a) fun v => ?_
      exact tellAlone (r := r) (h.ahead hEven)
        ⟨.unary op arg, ty, span⟩ v
        (fun v => .operation
          (.unary op.symbol (shown arg.ty a) (shown ty v)))
        fun _ => rfl
    · exact hUntold

/- A binary operator has results of one value. -/
theorem binary
    (h : Retold S B move M p q T U r r' n k told t)
    (hSite : site.isSome = told)
    {op : BinaryOp}
    {lhs rhs : Expr}
    {ty : Ty}
    {span : Span}
    (hl : lhs.passes t = true)
    (hr : rhs.passes t = true) :
    Results S B T U ty
      (T.evalForm p r n site ⟨.binary op lhs rhs, ty, span⟩)
      (U.evalForm q r' k site ⟨.binary op lhs rhs, ty, span⟩) := by
  unfold Teller.evalForm
  by_cases hEven : Even T U
  · simp only [hEven.2]
    split
    · exact h.toldBinary hSite ⟨.binary op lhs rhs, ty, span⟩ op
        hl hr
    · exact results (h.plainBinary hSite _ _ ty span op hl hr)
  · simp only [(h.ahead hEven).operators, Bool.false_eq_true,
      if_false]
    split
    · exact h.binaryAlone hEven hSite U.observer hl hr
    · exact results (h.plainBinary hSite _ _ ty span op hl hr)

/- An operator of spliced code has one result. -/
theorem applied
    (h : Retold S B move M p q T U r r' n k told t)
    (op : BinaryOp)
    (lhs rhs : Expr)
    (left right : Val)
    (ty : Ty) :
    Agrees S B (Teller.applied p r op lhs rhs left right ty)
      (Teller.applied q r' op lhs rhs left right ty) := by
  have hStrict := agrees_applyBinary (S := S) (B := B) h.paired
    h.invokers op left right ty
  have hLeft := agrees_truthOf (S := S) (B := B) lhs lhs left
  have hRight := agrees_truthOf (S := S) (B := B) rhs rhs right
  unfold Teller.applied
  cases op with
  | and => exact agrees_conjunction hLeft hRight
  | or => exact agrees_disjunction hLeft hRight
  | _ => exact hStrict

/- Two computations whose results convert to one value. -/
abbrev Convertible
    (S : Slack)
    (B : Bond)
    (g : B.Ghost)
    (s : Shape)
    (ty : Ty)
    (x y : Run Val) : Prop :=
  Sim S (Linked (B.holds g) s)
    (fun a b m n => a.convert ty = b.convert ty ∧
      Linked (B.holds g) s m n)
    (B.cut g fun J => Linked J s) x y

/- One result converts to one value. -/
theorem convertible
    {ty : Ty}
    {g : B.Ghost}
    {s : Shape}
    (hs : B.rets s.ret)
    {x y : Run Val}
    (hxy : Agrees S B x y) : Convertible S B g s ty x y :=
  (hxy g s hs).weaken (fun _ _ hm => hm)
    (fun _ _ _ _ ⟨hab, _, hm⟩ => ⟨by rw [hab], hm⟩)
    (fun _ _ _ hm => hm)

/- A combined value that is cast converts to one value. -/
theorem convertible_cast
    {ty target : Ty}
    (hTy : ty = target ∨ target.isPrimitive = true)
    {g : B.Ghost}
    {s : Shape}
    {x y : Run Val}
    (hxy : Convertible S B g s target x y) :
    Convertible S B g s target x
      (y >>= fun v =>
        if ty = target then pure v else Call.cast q v target) := by
  rw [← bind_pure x]
  refine Sim.bind hxy fun a b m n ⟨hab, hm⟩ => ?_
  split
  · exact .ok ⟨hab, hm⟩
  · rename_i hne
    have hPrimitive := hTy.resolve_left hne
    have hCast : Call.cast q b target n
        = (.ok (b.convert target), n) := by
      unfold Call.cast
      rw [get_bind_apply]
      simp only [hPrimitive, if_true]
      rfl
    rw [hCast]
    exact .ok
      ⟨hab.trans (Val.convert_convert b target).symm, hm⟩

/- What an operator makes of two values that hold numbers. -/
def onNumbers
    (op : BinaryOp)
    (l r : Val) : Except OperatorError Val :=
  match l.number?, r.number? with
  | some a, some b =>
    match Number.binary op a b with
    | .ok s => .ok (.scalar s)
    | .error e => .error (.number e)
  | _, _ => .error (.binary op l r)

/- A logical operator has no result for other than truth values. -/
theorem logical_error
    {op : BinaryOp}
    (hOp : op.isShortCircuit = true)
    {l r : Val}
    (hOther : l.asBool? = none ∨ r.asBool? = none)
    (heap : Heap) :
    ∃ e what, Val.binary op l r = .error e ∧
      e.unsupported? heap = some what := by
  have hNumbers : ∀ a b : Number, ∃ what,
      Number.binary op a b = .error (.unsupported what) := by
    intro a b
    have hPlain : Number.binary op a b
        = (Number.combine op a b).map Number.scalar := by
      cases op <;> first | rfl | cases hOp
    rw [hPlain]
    unfold Number.combine
    cases op with
    | and => split <;> exact ⟨_, rfl⟩
    | or => split <;> exact ⟨_, rfl⟩
    | _ => cases hOp
  have hBinary : Val.binary op l r = onNumbers op l r := by
    unfold Val.binary onNumbers
    rcases hOther with hl | hr
    · rw [hl]
      cases op <;> first | rfl | cases hOp
    · rw [hr]
      cases l.asBool? <;> cases op <;> first | rfl | cases hOp
  rw [hBinary]
  unfold onNumbers
  cases l.number? with
  | none => exact ⟨_, _, rfl, rfl⟩
  | some a =>
    cases r.number? with
    | none => exact ⟨_, _, rfl, rfl⟩
    | some b =>
      rcases hNumbers a b with ⟨what, hWhat⟩
      refine ⟨.number (.unsupported what), what, ?_, rfl⟩
      simp only [hWhat]

/-
  A logical operator has a result for truth values only, and a
  plain run faults for others.
-/
theorem logical_cases
    {op : BinaryOp}
    (hOp : op.isShortCircuit = true)
    (l r : Val)
    (m : Machine) :
    (∃ a b, l.asBool? = some a ∧ r.asBool? = some b ∧
      ofOperator p (Val.binary op l r) m
        = (.ok (.bool (if op = .and then a && b else a || b)), m))
    ∨ ∃ cause, ofOperator p (Val.binary op l r) m
        = (.error (.fault cause), m) := by
  by_cases hOther : l.asBool? = none ∨ r.asBool? = none
  · rcases logical_error hOp hOther m.heap with
      ⟨e, what, hBinary, hWhat⟩
    refine .inr ⟨.unsupported what, ?_⟩
    rw [hBinary]
    change (operatorError p e : Run Val) m = _
    unfold operatorError
    rw [get_bind_apply, hWhat]
    rfl
  · rw [not_or] at hOther
    rcases Option.ne_none_iff_exists'.mp hOther.1 with ⟨a, ha⟩
    rcases Option.ne_none_iff_exists'.mp hOther.2 with ⟨b, hb⟩
    refine .inl ⟨a, b, ha, hb, ?_⟩
    unfold Val.binary
    rw [ha, hb]
    cases op <;> first | rfl | cases hOp

/-
  Spliced code combines values with a logical operator as a
  plain run does, unless that faults.
-/
theorem logical
    (hLapses : S.lapses = true)
    {op : BinaryOp}
    (hOp : op.isShortCircuit = true)
    (target value : Expr)
    (old rhs : Val)
    (ty ty' : Ty)
    {g : B.Ghost}
    {s : Shape} :
    Convertible S B g s target.ty
      (applyBinary p r.invoke op old rhs ty)
      (Teller.applied q r' op target value old rhs ty') := by
  intro m m' hm
  have hPlain : applyBinary p r.invoke op old rhs ty
      = ofOperator p (Val.binary op old rhs) := by
    unfold applyBinary
    cases op <;> first | rfl | cases hOp
  rw [hPlain]
  rcases logical_cases (p := p) hOp old rhs m with
    ⟨a, b, ha, hb, hRun⟩ | ⟨cause, hRun⟩
  · rw [hRun]
    have hSpliced : Teller.applied q r' op target value old rhs ty' m'
        = (.ok (.bool (if op = .and then a && b else a || b)),
          m') := by
      cases op with
      | and =>
        simp only [Teller.applied, conjunction, truthOf, ha, hb,
          pure_bind]
        cases a <;> rfl
      | or =>
        simp only [Teller.applied, disjunction, truthOf, ha, hb,
          pure_bind]
        cases a <;> rfl
      | _ => cases hOp
    rw [hSpliced]
    exact .ok ⟨rfl, hm⟩
  · rw [hRun]
    exact .first hLapses

/- What a compound assignment combines converts to one value. -/
theorem combine
    (h : Retold S B move M p q T U r r' n k told t)
    (op : BinaryOp)
    {target value : Expr}
    {ty : Ty}
    {span : Span}
    (he : t.expr ⟨.compoundAssign op target value, ty, span⟩
      = true)
    (old rhs : Val)
    (g : B.Ghost)
    (s : Shape)
    (hs : B.rets s.ret) :
    Convertible S B g s target.ty
      (T.combine p r op target value old rhs)
      (U.combine q r' op target value old rhs) := by
  have hApply := agrees_applyBinary (S := S) (B := B) h.paired
    h.invokers op old rhs (op.resultTy target.ty value.ty)
  rcases h.compounds with hSame | ⟨hPlain, hCompound⟩
  · refine convertible hs ?_
    unfold Teller.combine
    rw [← hSame]
    simp only
    split
    · refine (h.applied op target value old rhs _).bind
        fun v _ => ?_
      · split
        · exact Yields.pure trivial
        · exact agrees_cast h.paired v _
    · exact hApply
  · have hGood : (op.isShortCircuit = false ∨ S.lapses = true) ∧
        (op.resultTy target.ty value.ty = target.ty ∨
          target.ty.isPrimitive = true) := by
      have hBoth := hCompound _ he
      simp only [Test.plainCompound, Test.typedCompound,
        Bool.and_eq_true, Bool.or_eq_true, beq_iff_eq,
        Bool.not_eq_true'] at hBoth
      rcases hBoth with ⟨hStrict, hTy⟩ | ⟨hLapses, hTy⟩
      · exact ⟨.inl hStrict, hTy⟩
      · exact ⟨.inr hLapses, hTy⟩
    rcases hGood with ⟨hLogical, hTy⟩
    unfold Teller.combine
    simp only [hPlain, Bool.false_eq_true, if_false]
    cases hU : U.spliced with
    | false => exact convertible hs (by simpa using hApply)
    | true =>
      simp only [if_true]
      refine convertible_cast hTy ?_
      cases hOp : op.isShortCircuit with
      | true =>
        have hLapses := hLogical.resolve_left (by simp [hOp])
        exact logical hLapses hOp target value old rhs _ _
      | false =>
        refine convertible hs ?_
        cases op <;> first | exact hApply | cases hOp

------------------------------------------------------------
-- Expressions
------------------------------------------------------------

/- Statements keep the link one after the other. -/
theorem stmts
    (h : Retold S B move M p q T U r r' n k told t)
    (hSite : site.isSome = told)
    {ss : List Stmt}
    (hss : passStmts t ss = true) :
    Keeps S B none (Flow.told (site.map Site.method))
      (runAll (r.exec site) ss) (runAll (r'.exec site) ss) := by
  refine keeps_runAll ?_
  induction ss with
  | nil => simp
  | cons s rest ih =>
    simp only [passStmts, Bool.and_eq_true] at hss
    intro c hc
    rcases List.mem_cons.mp hc with hc | hc
    · exact hc ▸ h.exec site hSite s hss.1
    · exact ih hss.2 c hc

/- The arms of a switch keep the link. -/
theorem arms
    (h : Retold S B move M p q T U r r' n k told t)
    (hSite : site.isSome = told)
    {as : List Arm}
    (has : passArms t as = true) :
    List.Forall₂
      (ArmsKeep S B (site.map Site.method) (runAll (r.exec site))
        (runAll (r'.exec site))) as as := by
  induction as with
  | nil => exact .nil
  | cons a rest ih =>
    rcases a with ⟨labels, body⟩
    simp only [passArms, Bool.and_eq_true] at has
    exact .cons ⟨rfl, h.stmts hSite has.1⟩ (ih has.2)

/- A value that is the same in linked machines may be told. -/
theorem peek_eq
    (hp : Paired M p q)
    (place : Location)
    (hv : place.isVisible = true)
    {g : B.Ghost}
    {s : Shape}
    (hs : B.rets s.ret)
    {m m' : Machine}
    (hm : Linked (B.holds g) s m m') :
    peek q place m' = peek p place m := by
  have hLoad := agrees_load (S := {}) hp place hv g s hs m m' hm
  unfold peek
  generalize place.load p m = x at hLoad
  generalize place.load q m' = y at hLoad
  cases hLoad with
  | ok hPost => exact hPost.1.symm
  | alike _ _ => rfl
  | @first c _ _ hFirst => cases c <;> cases hFirst
  | @second d _ _ hSecond => cases d <;> cases hSecond

/- An assignment is told on both sides. -/
theorem assign
    (h : Retold S B move M p q T U r r' n k told t)
    (hSite : site.isSome = told)
    (e : Expr)
    {target value : Expr}
    (ht : target.passes t = true)
    (hv : value.passes t = true) :
    Agrees S B
      (do
        let x ← T.placeOf r site target
        let v ← r.eval site value
        let v := v.convert target.ty
        x.1.write p v
        T.say p r n e.span
          (.operation (.assign x.2 (shown target.ty v)))
        pure v)
      (do
        let x ← U.placeOf r' site target
        let v ← r'.eval site value
        let v := v.convert target.ty
        x.1.write q v
        U.say q r' k e.span
          (.operation (.assign x.2 (shown target.ty v)))
        pure v) :=
  (h.placeOf hSite ht).bind fun x hx =>
    (h.eval site hSite value hv).bind fun _ _ =>
      (agrees_writePlace h.paired x.1 _ hx).bind fun _ _ =>
        (h.say e.span ⟨rfl, rfl⟩).bind fun _ _ =>
          Yields.pure trivial

/- A compound assignment is told on both sides. -/
theorem compound
    (h : Retold S B move M p q T U r r' n k told t)
    (hSite : site.isSome = told)
    {op : BinaryOp}
    {target value : Expr}
    {ty : Ty}
    {span : Span}
    (he : Expr.passes t ⟨.compoundAssign op target value, ty, span⟩
      = true) :
    Agrees S B
      (T.evalForm p r n site
        ⟨.compoundAssign op target value, ty, span⟩)
      (U.evalForm q r' k site
        ⟨.compoundAssign op target value, ty, span⟩) := by
  simp only [Expr.passes, ExprForm.passes, Bool.and_eq_true] at he
  rcases he with ⟨hTest, hTarget, hValue⟩
  refine (h.placeOf hSite hTarget).bind fun x hx => ?_
  refine (yields_locate h.paired x.1 hx).bind fun place hp => ?_
  refine (agrees_load h.paired place hp).bind fun old _ => ?_
  refine (h.lookBack target old).bind fun _ hOld => ?_
  simp only
  rw [show T.keep target.ty old = U.keep target.ty old from hOld]
  refine (h.held hSite hValue).bind fun rhs _ => ?_
  intro g s hs
  refine (h.combine op hTest _ rhs g s hs).bind ?_
  intro a b m m' ⟨hab, hm⟩
  rw [hab]
  refine ((agrees_store h.paired place _ hp).bind
    fun _ _ => ?_) g s hs m m' hm
  exact (h.say span ⟨rfl, rfl⟩).bind fun _ _ =>
    Yields.pure trivial

/- A step is told on both sides. -/
theorem step
    (h : Retold S B move M p q T U r r' n k told t)
    (hSite : site.isSome = told)
    {op : StepOp}
    {target : Expr}
    {ty : Ty}
    {span : Span}
    (he : target.passes t = true) :
    Results S B T U ty
      (T.evalForm p r n site ⟨.step op target, ty, span⟩)
      (U.evalForm q r' k site ⟨.step op target, ty, span⟩) := by
  refine resultsAfter (h.placeOf hSite he) fun x hx => ?_
  refine resultsAfter (yields_locate h.paired x.1 hx)
    fun place hp => ?_
  refine resultsAfter (agrees_load h.paired place hp)
    fun old _ => ?_
  refine resultsAfter (h.lookBack target old) fun _ hOld => ?_
  refine resultsAfter
    (yields_stepped h.paired h.invokers op target.ty old)
    fun new _ => ?_
  refine resultsAfter (agrees_store h.paired place _ hp)
    fun _ _ => ?_
  refine resultsAfter (P := fun _ => True)
    (h.tell span _ _ (fun _ => ⟨rfl, rfl⟩) ?_) fun _ _ g s _ => ?_
  · intro g s hs m m' hm
    refine .operation (Eq.refl _) (Eq.refl _) fun hSame => ?_
    simp only [keep_eq hSame, peek_eq h.paired place hp hs hm]
  · exact Sim.pure fun _ _ hm => ⟨.inr ⟨_, rfl, rfl⟩, hm⟩

/- A call is told on both sides. -/
theorem call
    (h : Retold S B move M p q T U r r' n k told t)
    (hSite : site.isSome = told)
    {callee : Callee}
    {receiver : Option Expr}
    {args : List Expr}
    {ty : Ty}
    {span : Span}
    (hReceiver : passOption t receiver = true)
    (hArgs : passExprs t args = true) :
    Results S B T U ty
      (T.evalForm p r n site ⟨.call callee receiver args, ty, span⟩)
      (U.evalForm q r' k site
        ⟨.call callee receiver args, ty, span⟩) := by
  cases receiver with
  | none =>
    refine resultsAfter (h.heldAll hSite hArgs) fun vs _ => ?_
    refine h.called span callee _ _ ty ?_
    exact (agrees_onClass h.paired h.invokers _ _ vs).bind
      fun _ _ => Yields.pure trivial
  | some receiver =>
    refine resultsAfter (h.held hSite hReceiver) fun o _ => ?_
    refine resultsAfter (h.heldAll hSite hArgs) fun vs _ => ?_
    refine h.called span callee _ _ ty ?_
    exact (agrees_onObject h.paired h.invokers o _ vs).bind
      fun _ _ => Yields.pure trivial

/- Whether an object is of a type is the same on both sides. -/
theorem typeTest
    (h : Retold S B move M p q T U r r' n k told t)
    (hSite : site.isSome = told)
    {arg : Expr}
    {target ty : Ty}
    {span : Span}
    (he : arg.passes t = true) :
    Agrees S B
      (T.evalForm p r n site ⟨.typeTest arg target, ty, span⟩)
      (U.evalForm q r' k site
        ⟨.typeTest arg target, ty, span⟩) := by
  refine (h.held hSite he).bind fun v _ => ?_
  refine Yields.look fun _ _ m m' hm => ?_
  rw [hm.world.heap, h.paired.instanceOf]
  exact (h.say span ⟨rfl, rfl⟩).bind fun _ _ =>
    Yields.pure trivial

/- A cast is told on both sides. -/
theorem cast
    (h : Retold S B move M p q T U r r' n k told t)
    (hSite : site.isSome = told)
    {arg : Expr}
    {target ty : Ty}
    {span : Span}
    (he : arg.passes t = true) :
    Agrees S B
      (T.evalForm p r n site ⟨.cast target arg, ty, span⟩)
      (U.evalForm q r' k site ⟨.cast target arg, ty, span⟩) := by
  have hCast := agrees_cast (S := S) (B := B) h.paired
  unfold Teller.evalForm
  simp only
  split
  · refine (h.held hSite he).bind fun v _ => ?_
    refine Yields.bind (P := fun _ => True)
      (h.tell span _ _ (fun _ => ⟨rfl, rfl⟩) ?_)
      fun _ _ => hCast v target
    intro g s _ m m' hm
    rw [hm.world.heap, h.paired.instanceOf]
    exact .rfl
  · exact (h.eval site hSite arg he).bind fun v _ =>
      hCast v target

/- Expressions give one list of values. -/
theorem exprs
    (h : Retold S B move M p q T U r r' n k told t)
    (hSite : site.isSome = told)
    {es : List Expr}
    (hes : passExprs t es = true) :
    Agrees S B (es.mapM (r.eval site))
      (es.mapM (r'.eval site)) := by
  refine (Yields.mapM (P := fun _ => True) es ?_).agrees
  induction es with
  | nil => simp
  | cons e rest ih =>
    simp only [passExprs, Bool.and_eq_true] at hes
    intro c hc
    rcases List.mem_cons.mp hc with hc | hc
    · exact hc ▸ (h.eval site hSite e hes.1).agrees
    · exact ih hes.2 c hc

/- Every form of expressions has results of one value. -/
theorem sim_evalForm
    (h : Retold S B move M p q T U r r' n k told t)
    (hSite : site.isSome = told)
    {e : Expr}
    (he : e.passes t = true) :
    Results S B T U e.ty (T.evalForm p r n site e)
      (U.evalForm q r' k site e) := by
  rcases e with ⟨form, ty, span⟩
  have hAll := he
  simp only [Expr.passes, Bool.and_eq_true] at he
  have hSource := h.sourceExpr _ he.1
  cases form with
  | literal value =>
    exact results (Yields.pure (P := fun _ => True) trivial)
  | localVar name =>
    have hName : hidden name = false := by
      simpa [Test.sourceExpr] using hSource
    exact resultsAfter (agrees_getLocal name hName)
      fun v _ => h.afterRead _ _ v
  | self => exact results (agrees_currentSelf _ _)
  | staticField cls field =>
    exact resultsAfter (agrees_getStatic h.paired cls field)
      fun v _ => h.afterRead _ _ v
  | instanceField object cls field =>
    refine resultsAfter (h.partOfRead hSite he.2) fun o _ => ?_
    exact resultsAfter (agrees_read h.paired _ rfl)
      fun v _ => h.afterRead _ _ v
  | index array index =>
    simp only [ExprForm.passes, Bool.and_eq_true] at he
    refine resultsAfter (h.partOfRead hSite he.2.1) fun a _ => ?_
    refine resultsAfter (h.partOfRead hSite he.2.2) fun i _ => ?_
    exact resultsAfter (agrees_read h.paired _ rfl)
      fun v _ => h.afterRead _ _ v
  | length array =>
    exact results ((h.eval site hSite array he.2).bind
      fun v _ => agrees_lengthOf h.paired v)
  | unary op arg =>
    exact h.unary hSite he.2
  | binary op lhs rhs =>
    simp only [ExprForm.passes, Bool.and_eq_true] at he
    exact h.binary hSite he.2.1 he.2.2
  | conditional cond onTrue onFalse =>
    simp only [ExprForm.passes, Bool.and_eq_true] at he
    refine results ((h.judge hSite he.2.1.1 _ fun _ => ⟨rfl, rfl⟩).bind
      (Q := fun _ => True) fun b _ => ?_)
    have hBranch : Expr.passes t (if b then onTrue else onFalse)
        = true := by
      cases b
      · exact he.2.2
      · exact he.2.1.2
    exact (h.eval site hSite _ hBranch).bind fun _ _ =>
      Yields.pure trivial
  | assign target value =>
    simp only [ExprForm.passes, Bool.and_eq_true] at he
    exact results (h.assign hSite _ he.2.1 he.2.2)
  | compoundAssign op target value =>
    exact results (h.compound hSite hAll)
  | step op target => exact h.step hSite he.2
  | call callee receiver args =>
    simp only [ExprForm.passes, Bool.and_eq_true] at he
    exact h.call hSite he.2.1 he.2.2
  | new cls signature args =>
    refine resultsAfter (h.heldAll hSite he.2) fun vs _ => ?_
    exact h.called span ⟨cls, constructorName, signature⟩ _ _ ty
      (agrees_construct h.paired h.invokers cls vs)
  | newArray element length =>
    exact results ((h.eval site hSite length he.2).bind
      fun v _ => agrees_arrayOfLength h.paired element v)
  | arrayOf element items =>
    exact results ((h.exprs hSite he.2).bind
      fun vs _ => agrees_newArray element _)
  | cast target arg => exact results (h.cast hSite he.2)
  | typeTest arg target => exact results (h.typeTest hSite he.2)
  | switch selector arms =>
    simp only [ExprForm.passes, Bool.and_eq_true] at he
    refine results ((h.held hSite he.2.1).bind
      (Q := fun _ => True) fun v _ => ?_)
    refine (h.say span ⟨rfl, rfl⟩).bind fun _ _ => ?_
    refine (agrees_switchValue h.paired v
      (h.arms (by simpa using hSite) he.2.2)).bind fun _ _ => ?_
    exact Yields.pure trivial
  | letIn stmts body => cases hSource

end Retold

end Teller

end ExecTrace
