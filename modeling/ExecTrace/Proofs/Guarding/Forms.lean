import ExecTrace.Proofs.Guarding.Flows
import ExecTrace.Proofs.Retelling.Statements

/-
  Forms under guard. If every part of a form stays in its phase,
  and every single action that is told does, then so does the
  form. A call that is told leaves nothing behind, however it
  ends.

  Main declarations:
    * `Rests`
    * `Speaks`
    * `Speaks.rests_evalForm`
    * `Speaks.ends_execForm`
-/

namespace ExecTrace

open Run
open Instrument (Site)
open Teller (methodName)

variable {K : Rules}

/- A run that stays in its phases, on its own. -/
abbrev Rests
    (K : Rules)
    (G : Phase → Prop)
    {α : Type}
    (x : Run α) : Prop :=
  Stays K G α x x

/-
  What is asked of the code of a method and of its teller, in some
  phases: each action that is told stays in the phase, a call that
  is told does as a whole, and the parts do that pass a test.
-/
structure Speaks
    (K : Rules)
    (T : Teller)
    (r : SiteRunner)
    (n : Nat)
    (via : Option String)
    (t : Test)
    (G : Phase → Prop) : Prop where
  congruence : Congruence (Stays K G)
  departs : Departs K G
  sourceExpr : ∀ e, t.expr e = true → Test.sourceExpr e = true
  sourceStmt : ∀ s, t.stmt s = true → Test.sourceStmt s = true
  text : ∀ v, Rests K G (Call.textOf K.program r.invoke "concat" v)
  tell : ∀ span act, (∀ m, (act m).Inner) →
    Rests K G (T.tell K.program r.invoke n span act)
  call : ∀ span callee receiver args ty (x : Run Val),
    (∀ g, Expects K callee.method args.length g → Ventures K g x) →
    Rests K G (do
      T.say K.program r n span (.call callee receiver args)
      T.called K.program r n span callee.cls callee.method ty x)
  superCall : ∀ signature args span,
    t.stmt ⟨.superCall signature args, span⟩ = true →
    ∀ cls self vs,
      Rests K G (Call.superCall K.program r.invoke cls self vs)
  leave : ∀ site : Option Site, site.map Site.method = via →
    ∀ span how, how.exception? = none → ∀ g, G g →
      Obeys (At K g) (T.leave K.program r n span (methodName site) how)
        (fun _ => At K (g.left K)) (fun _ => At K g) (Lost K g)
  eval : ∀ site : Option Site, site.map Site.method = via →
    ∀ e : Expr, e.passes t = true → Rests K G (r.eval site e)
  exec : ∀ site : Option Site, site.map Site.method = via →
    ∀ s : Stmt, s.passes t = true →
      Ends K G Flow.isReturn (r.exec site s)

------------------------------------------------------------
-- Steps
------------------------------------------------------------

section Steps

variable {α β : Type}
variable {G : Phase → Prop}

/- An observer that watches a run leaves it in its phase. -/
theorem rests_watch
    (w : Observer)
    (x : Moment) : Rests K G (watch w x) :=
  fun _ _ => .watch fun _ hm _ => hm

/- A local variable is set. -/
theorem rests_setLocal
    (h : Congruence (Stays K G))
    (name : String)
    (v : Val) : Rests K G (setLocal name v) := by
  refine h.look fun m => ?_
  split
  · exact Stays.relocate fun _ => _
  · exact h.fault _

/- More is known of as many values as there are expressions. -/
theorem Stays.mapM_bind
    {f : α → Run β}
    {as : List α}
    {γ : Type}
    {k : List β → Run γ}
    (h : Congruence (Stays K G))
    (hf : ∀ a ∈ as, Rests K G (f a))
    (hk : ∀ bs, bs.length = as.length → Rests K G (k bs)) :
    Rests K G (as.mapM f >>= k) := by
  intro g hg
  refine Obeys.bind (h.mapList as hf g hg).tracking fun bs => ?_
  refine .assuming (fun m hm => ?_) fun hLength =>
    (hk bs hLength g hg).weaken (fun _ hm => hm.2) (fun _ _ hm => hm)
      (fun _ _ hm => hm) fun _ hm => hm
  rcases hm.1 with ⟨_, _, hRun⟩
  exact length_of_mapM hRun

end Steps

namespace Speaks

variable {T : Teller}
variable {r : SiteRunner}
variable {n : Nat}
variable {via : Option String}
variable {t : Test}
variable {G : Phase → Prop}
variable {site : Option Site}

/- An action that does not depend on the state is told. -/
theorem say
    (h : Speaks K T r n via t G)
    (span : Span)
    {act : Action Unit Shown}
    (hInner : act.Inner) :
    Rests K G (T.say K.program r n span act) :=
  h.tell span _ fun _ => hInner

/- A value is looked at. -/
theorem look
    (h : Speaks K T r n via t G)
    (e : Expr)
    (v : Val) : Rests K G (T.look e v) := by
  unfold Teller.look
  split
  · exact rests_watch _ _
  · exact h.congruence.pure _

/- The old value of a target is looked at. -/
theorem lookBack
    (h : Speaks K T r n via t G)
    (target : Expr)
    (old : Val) : Rests K G (T.lookBack target old) :=
  (rests_watch _ _).bind fun _ => h.look _ _

/- The value of an expression is held. -/
theorem held
    (h : Speaks K T r n via t G)
    (hSite : site.map Site.method = via)
    {e : Expr}
    (he : e.passes t = true) : Rests K G (T.held r site e) :=
  (h.eval site hSite e he).bind fun _ => h.congruence.pure _

/- A part of a place is held. -/
theorem partOfRead
    (h : Speaks K T r n via t G)
    (hSite : site.map Site.method = via)
    {e : Expr}
    (he : e.passes t = true) :
    Rests K G (T.partOfRead r site e) := by
  unfold Teller.partOfRead
  split
  · exact h.held hSite he
  · exact h.eval site hSite e he

/- A value that was read is told. -/
theorem afterRead
    (h : Speaks K T r n via t G)
    (e : Expr)
    (place : Place Shown)
    (v : Val) :
    Rests K G (T.afterRead K.program r n e place v) := by
  unfold Teller.afterRead
  split
  · refine (h.look e v).bind fun _ => ?_
    exact (h.say e.span ⟨rfl, rfl⟩).bind fun _ => h.congruence.pure _
  · exact h.congruence.pure _

/- A condition is judged. -/
theorem judge
    (h : Speaks K T r n via t G)
    (hSite : site.map Site.method = via)
    {e : Expr}
    (he : e.passes t = true)
    (report : Shown → Action Unit Shown)
    (hInner : ∀ o, (report o).Inner) :
    Rests K G (T.judge K.program r n site e report) :=
  (h.held hSite he).bind fun v =>
    (h.say e.span (hInner _)).bind fun _ => h.congruence.truthOf e v

/- The parts of a target are held. -/
theorem placeOf
    (h : Speaks K T r n via t G)
    (hSite : site.map Site.method = via)
    {e : Expr}
    (he : e.passes t = true) :
    Rests K G (T.placeOf r site e) := by
  rcases e with ⟨form, ty, span⟩
  simp only [Expr.passes, Bool.and_eq_true] at he
  unfold Teller.placeOf
  cases form with
  | localVar name => exact h.congruence.pure _
  | staticField cls field => exact h.congruence.pure _
  | instanceField object cls field =>
    exact (h.held hSite he.2).bind fun _ => h.congruence.pure _
  | index array index =>
    simp only [ExprForm.passes, Bool.and_eq_true] at he
    exact (h.held hSite he.2.1).bind fun _ =>
      (h.held hSite he.2.2).bind fun _ => h.congruence.pure _
  | _ => exact h.congruence.fault _

/- An operator is applied to two values. -/
theorem applyBinary
    (h : Speaks K T r n via t G)
    (op : BinaryOp)
    (left right : Val)
    (ty : Ty) :
    Rests K G
      (ExecTrace.applyBinary K.program r.invoke op left right ty) := by
  unfold ExecTrace.applyBinary
  split
  · exact (h.text _).bind fun _ => (h.text _).bind fun _ =>
      h.congruence.pure _
  · exact h.congruence.ofOperator _

/- An operator is applied as spliced code does it. -/
theorem applied
    (h : Speaks K T r n via t G)
    (op : BinaryOp)
    (lhs rhs : Expr)
    (left right : Val)
    (ty : Ty) :
    Rests K G
      (Teller.applied K.program r op lhs rhs left right ty) := by
  cases op with
  | and =>
    exact h.congruence.conjunction (h.congruence.truthOf _ _)
      (h.congruence.truthOf _ _)
  | or =>
    exact h.congruence.disjunction (h.congruence.truthOf _ _)
      (h.congruence.truthOf _ _)
  | _ => exact h.applyBinary _ _ _ _

/- The new value of a compound assignment. -/
theorem combine
    (h : Speaks K T r n via t G)
    (op : BinaryOp)
    (target value : Expr)
    (old rhs : Val) :
    Rests K G (T.combine K.program r op target value old rhs) := by
  unfold Teller.combine
  dsimp only
  split
  · refine (h.applied _ _ _ _ _ _).bind fun v => ?_
    split
    · exact h.congruence.pure _
    · exact h.congruence.cast _ _
  · exact h.applyBinary _ _ _ _

/- A value is stored in a place. -/
theorem store
    (h : Speaks K T r n via t G)
    (place : Location)
    (v : Val) : Rests K G (place.store K.program v) :=
  h.congruence.store (fun name _ v => rests_setLocal h.congruence name v) v

/- A short-circuit operator. -/
theorem shortCircuit
    (h : Speaks K T r n via t G)
    (hSite : site.map Site.method = via)
    (op : BinaryOp)
    (lhs : Expr)
    {rhs : Expr}
    (hr : rhs.passes t = true)
    (left : Val) :
    Rests K G (Teller.shortCircuit r site op lhs rhs left) := by
  have hRight : Rests K G (truth (r.eval site) rhs) :=
    h.congruence.truth (h.eval site hSite rhs hr)
  unfold Teller.shortCircuit
  split
  · exact h.congruence.conjunction (h.congruence.truthOf _ _) hRight
  · exact h.congruence.disjunction (h.congruence.truthOf _ _) hRight

/- A binary operator is told. -/
theorem toldBinary
    (h : Speaks K T r n via t G)
    (hSite : site.map Site.method = via)
    (e : Expr)
    (op : BinaryOp)
    {lhs rhs : Expr}
    (hl : lhs.passes t = true)
    (hr : rhs.passes t = true) :
    Rests K G (T.toldBinary K.program r n site e op lhs rhs) := by
  refine (h.held hSite hl).bind fun left => ?_
  split
  · refine (h.shortCircuit hSite op lhs hr left).bind fun v => ?_
    refine (h.look e v).bind fun _ => ?_
    exact (h.say _ ⟨rfl, rfl⟩).bind fun _ => h.congruence.pure _
  · refine (h.held hSite hr).bind fun right => ?_
    refine (h.applyBinary _ _ _ _).bind fun v => ?_
    refine (h.look e v).bind fun _ => ?_
    exact (h.say _ ⟨rfl, rfl⟩).bind fun _ => h.congruence.pure _

/- A binary operator of which nothing is told. -/
theorem plainBinary
    (h : Speaks K T r n via t G)
    (hSite : site.map Site.method = via)
    (w : Observer)
    (op : BinaryOp)
    {lhs rhs : Expr}
    (hl : lhs.passes t = true)
    (hr : rhs.passes t = true)
    (ty : Ty)
    (span : Span) :
    Rests K G (Runner.evalForm w K.program
      ⟨r.eval site, r.exec site, r.invoke⟩
      ⟨.binary op lhs rhs, ty, span⟩) := by
  have hLeft := h.eval site hSite lhs hl
  have hRight := h.eval site hSite rhs hr
  cases op with
  | and =>
    exact h.congruence.conjunction (h.congruence.truth hLeft)
      (h.congruence.truth hRight)
  | or =>
    exact h.congruence.disjunction (h.congruence.truth hLeft)
      (h.congruence.truth hRight)
  | _ =>
    exact Stays.bind hLeft fun _ => Stays.bind hRight fun _ =>
      h.applyBinary _ _ _ _

/- The arms of a switch expression. -/
theorem switchValue
    (h : Speaks K T r n via t G)
    (hSite : site.map Site.method = via)
    {arms : List Arm}
    (has : passArms t arms = true)
    (v : Val) :
    Rests K G (ExecTrace.switchValue K.program (r.exec site) v arms) := by
  suffices hEnds : Ends K G (fun _ => false)
      (ExecTrace.switchValue K.program (r.exec site) v arms) from hEnds
  refine Ends.selectArm h.congruence v fun selected hSelected => ?_
  split
  · exact h.congruence.look fun _ => h.congruence.raise _ _
  · refine (Ends.yieldFromArms h.departs selected
      fun arm harm => Ends.runAll _ fun s hs => ?_).inScope
    exact h.exec site hSite s (passes_of_passStmts
      (passes_of_passArms has arm (hSelected arm harm)) s hs)

------------------------------------------------------------
-- Expressions
------------------------------------------------------------

/- The arguments of a call are held. -/
theorem heldAll
    (h : Speaks K T r n via t G)
    (hSite : site.map Site.method = via)
    {es : List Expr}
    (hes : passExprs t es = true)
    {k : List Val → Run Val}
    (hk : ∀ vs, vs.length = es.length → Rests K G (k vs)) :
    Rests K G (es.mapM (T.held r site) >>= k) :=
  Stays.mapM_bind h.congruence
    (fun e he => h.held hSite (passes_of_passExprs hes e he)) hk

/- As many values are told as there are arguments. -/
theorem length_shownAll
    {es : List Expr}
    {vs : List Val}
    (h : vs.length = es.length) :
    (shownAll es vs).length = vs.length := by
  simp [shownAll, h]

/- Every form of expressions stays in its phase. -/
theorem rests_evalForm
    (h : Speaks K T r n via t G)
    (hSite : site.map Site.method = via)
    (hi : Invokes K r.invoke)
    {e : Expr}
    (he : e.passes t = true) :
    Rests K G (T.evalForm K.program r n site e) := by
  have hc := h.congruence
  rcases e with ⟨form, ty, span⟩
  simp only [Expr.passes, Bool.and_eq_true] at he
  rcases he with ⟨hTest, he⟩
  have hSource := h.sourceExpr _ hTest
  unfold Teller.evalForm
  cases form with
  | literal value => exact hc.pure _
  | self => exact hc.currentSelf _
  | localVar name =>
    exact (hc.getLocal name).bind fun v => h.afterRead _ _ v
  | staticField cls field =>
    exact (hc.getStatic cls field).bind fun v => h.afterRead _ _ v
  | instanceField object cls field =>
    exact (h.partOfRead hSite he).bind fun o =>
      (hc.read _).bind fun v => h.afterRead _ _ v
  | index array index =>
    simp only [ExprForm.passes, Bool.and_eq_true] at he
    exact (h.partOfRead hSite he.1).bind fun a =>
      (h.partOfRead hSite he.2).bind fun i =>
        (hc.read _).bind fun v => h.afterRead _ _ v
  | length array =>
    exact Stays.bind (h.eval site hSite array he) fun _ =>
      hc.lengthOf _
  | unary op arg =>
    dsimp only
    split
    · refine (h.held hSite he).bind fun a => ?_
      refine (hc.ofOperator _).bind fun v => ?_
      refine (h.look _ v).bind fun _ => ?_
      exact (h.say span ⟨rfl, rfl⟩).bind fun _ => hc.pure _
    · exact (h.eval site hSite arg he).bind fun _ => hc.ofOperator _
  | binary op lhs rhs =>
    simp only [ExprForm.passes, Bool.and_eq_true] at he
    dsimp only
    split
    · exact h.toldBinary hSite _ op he.1 he.2
    · exact h.plainBinary hSite _ op he.1 he.2 ty span
  | conditional cond onTrue onFalse =>
    simp only [ExprForm.passes, Bool.and_eq_true] at he
    refine (h.judge hSite he.1.1 _ fun _ => ⟨rfl, rfl⟩).bind
      fun b => ?_
    refine Stays.bind (h.eval site hSite _ ?_) fun _ => hc.pure _
    cases b
    · exact he.2
    · exact he.1.2
  | assign target value =>
    simp only [ExprForm.passes, Bool.and_eq_true] at he
    refine (h.placeOf hSite he.1).bind fun place => ?_
    refine (h.eval site hSite value he.2).bind fun v => ?_
    refine (hc.writeTo (fun name _ v => rests_setLocal hc name v)
      _).bind fun _ => ?_
    exact (h.say span ⟨rfl, rfl⟩).bind fun _ => hc.pure _
  | compoundAssign op target value =>
    simp only [ExprForm.passes, Bool.and_eq_true] at he
    refine (h.placeOf hSite he.1).bind fun place => ?_
    refine hc.locate _ fun location _ => ?_
    refine (hc.load location).bind fun old => ?_
    refine (h.lookBack target old).bind fun _ => ?_
    refine (h.held hSite he.2).bind fun rhs => ?_
    refine (h.combine _ _ _ _ _).bind fun new => ?_
    refine (h.store location _).bind fun _ => ?_
    exact (h.say span ⟨rfl, rfl⟩).bind fun _ => hc.pure _
  | step op target =>
    refine (h.placeOf hSite he).bind fun place => ?_
    refine hc.locate _ fun location _ => ?_
    refine (hc.load location).bind fun old => ?_
    refine (h.lookBack target old).bind fun _ => ?_
    refine (h.applyBinary _ _ _ _).bind fun new => ?_
    refine (h.store location _).bind fun _ => ?_
    exact (h.tell span _ fun _ => ⟨rfl, rfl⟩).bind fun _ => hc.pure _
  | call callee receiver args =>
    cases receiver with
    | none =>
      simp only [ExprForm.passes, Bool.and_eq_true] at he
      refine h.heldAll hSite he.2 fun vs hLength => ?_
      refine h.call span callee none _ ty _ fun g hg => ?_
      rw [length_shownAll hLength] at hg
      exact (ventures_onClass hi _ _ _ hg).map _
    | some receiver =>
      simp only [ExprForm.passes, Bool.and_eq_true] at he
      refine (h.held hSite he.1).bind fun o => ?_
      refine h.heldAll hSite he.2 fun vs hLength => ?_
      refine h.call span callee (some _) _ ty _ fun g hg => ?_
      rw [length_shownAll hLength] at hg
      exact (ventures_onObject hi _ _ _ hg).map _
  | new cls signature args =>
    refine h.heldAll hSite he fun vs hLength => ?_
    refine h.call span ⟨cls, constructorName, signature⟩ none _ ty _
      fun g hg => ?_
    rw [length_shownAll hLength] at hg
    exact ventures_construct hi _ _ hg
  | newArray element length =>
    exact Stays.bind (h.eval site hSite length he) fun _ =>
      hc.arrayOfLength _ _
  | arrayOf element items =>
    exact Stays.bind (hc.mapList items fun e hx =>
      h.eval site hSite e (passes_of_passExprs he e hx)) fun _ =>
        hc.newArray _ _
  | cast target arg =>
    dsimp only
    split
    · refine (h.held hSite he).bind fun v => ?_
      exact (h.tell span _ fun _ => ⟨rfl, rfl⟩).bind fun _ =>
        hc.cast _ _
    · exact (h.eval site hSite arg he).bind fun _ => hc.cast _ _
  | typeTest arg target =>
    refine (h.held hSite he).bind fun v => ?_
    refine hc.look fun m => ?_
    exact (h.say span ⟨rfl, rfl⟩).bind fun _ => hc.pure _
  | «switch» selector arms =>
    simp only [ExprForm.passes, Bool.and_eq_true] at he
    refine (h.held hSite he.1).bind fun v => ?_
    refine (h.say span ⟨rfl, rfl⟩).bind fun _ => ?_
    exact Stays.bind (h.switchValue ((Teller.Retold.method_map site
      (·.inside ⟨.switchExpr, none, span⟩) fun _ => rfl).trans hSite)
      he.2 v) fun _ => hc.pure _
  | letIn stmts body => cases hSource

------------------------------------------------------------
-- Parts of Statements
------------------------------------------------------------

/- Statements are run at a site. -/
theorem stmts
    (h : Speaks K T r n via t G)
    (hSite : site.map Site.method = via)
    {ss : List Stmt}
    (hss : passStmts t ss = true) :
    Ends K G Flow.isReturn (runAll (r.exec site) ss) :=
  Ends.runAll ss fun s hs =>
    h.exec site hSite s (passes_of_passStmts hss s hs)

/- The start and the end of a loop are told. -/
theorem toldLoop
    (h : Speaks K T r n via t G)
    (kind : LoopKind)
    (span : Span)
    {loop : Run Flow}
    (hLoop : Ends K G Flow.isReturn loop) :
    Ends K G Flow.isReturn
      (T.toldLoop K.program r n kind span loop) := by
  refine Ends.after (h.say span ⟨rfl, rfl⟩) fun _ => ?_
  refine hLoop.next (fun flow hFlow => ?_) fun flow hFlow => ?_
  · cases flow with
    | normal =>
      exact Ends.after (h.say span.ending ⟨rfl, rfl⟩)
        fun _ => .pure rfl
    | _ => exact .pure hFlow
  · cases flow with
    | «return» v => exact ⟨_, rfl, rfl⟩
    | _ => cases hFlow

/- A return is told. -/
theorem returning
    (h : Speaks K T r n via t G)
    (hSite : site.map Site.method = via)
    (span : Span)
    (how : Exit Shown)
    (hHow : how.exception? = none)
    (v : Val) :
    Ends K G Flow.isReturn (do
      T.say K.program r n span
        (.statement (.return (methodName site)))
      T.leave K.program r n span (methodName site) how
      pure (.return v)) :=
  Ends.after (h.say span ⟨rfl, rfl⟩) fun _ g hg =>
    Obeys.bind (h.leave site hSite span how hHow g hg)
      fun _ => .pure fun _ hm => hm

/- A failed assertion throws an error. -/
theorem failing
    (h : Speaks K T r n via t G)
    (hSite : site.map Site.method = via)
    {message : Option Expr}
    (hm : passOption t message = true) :
    Ends K G Flow.isReturn (do
      let text ←
        match message with
        | none => pure none
        | some message => do
          let v ← r.eval site message
          let text ← Call.textOf K.program r.invoke "concat" v
          pure (some text)
      throw (.throw
        (← Run.exception K.program "AssertionError" text))) := by
  have hThrow : ∀ text, Ends K G Flow.isReturn (do
      throw (.throw
        (← Run.exception K.program "AssertionError" text))) :=
    fun text => Ends.after (h.congruence.exception _ _)
      fun _ _ _ => .throw fun _ hm => hm
  cases message with
  | none => exact hThrow none
  | some message =>
    refine Ends.after (h.eval site hSite message hm) fun v => ?_
    exact Ends.after (h.text v) fun text => hThrow (some text)

/- Arms of a switch statement are run. -/
theorem switchOn
    (h : Speaks K T r n via t G)
    (hSite : site.map Site.method = via)
    {arms : List Arm}
    (has : passArms t arms = true)
    (v : Val) :
    Ends K G Flow.isReturn
      (ExecTrace.switchOn K.program (r.exec site) v arms) := by
  refine Ends.selectArm h.congruence v fun selected hSelected => ?_
  split
  · exact .pure rfl
  · refine (Ends.runArms selected fun arm harm => ?_).inScope
    exact h.stmts hSite (passes_of_passArms has arm
      (hSelected arm harm))

------------------------------------------------------------
-- Statements
------------------------------------------------------------

/- A loop is run inside of its construct. -/
theorem loops
    (h : Speaks K T r n via t G)
    (hSite : site.map Site.method = via)
    (kind : LoopKind)
    (label : Option String)
    (span : Span)
    {body : Stmt}
    (hb : body.passes t = true) :
    (site.map (·.inLoop kind label span)).map Site.method = via ∧
      Ends K G Flow.returns
        (loopRound (r.exec (site.map (·.inLoop kind label span)))
          label body) := by
  have hInner : (site.map (·.inLoop kind label span)).map Site.method
      = via :=
    (Teller.Retold.method_map site (·.inLoop kind label span)
      fun _ => rfl).trans hSite
  exact ⟨hInner, (h.exec _ hInner body hb).loopRound label⟩

/- Every form of statements stays in its phase, or returns. -/
theorem ends_execForm
    (h : Speaks K T r n via t G)
    (hSite : site.map Site.method = via)
    {s : Stmt}
    (hs : s.passes t = true) :
    Ends K G Flow.isReturn (T.execForm K.program r n site s) := by
  have hc := h.congruence
  rcases s with ⟨form, span⟩
  simp only [Stmt.passes, Bool.and_eq_true] at hs
  rcases hs with ⟨hTest, hs⟩
  have hSource := h.sourceStmt _ hTest
  have hDone : Ends K G Flow.isReturn (pure .normal) := .pure rfl
  unfold Teller.execForm
  cases form with
  | declare name ty init =>
    cases init with
    | none =>
      exact Ends.after (h.say span ⟨rfl, rfl⟩) fun _ =>
        .declareLocal name _ hDone
    | some init =>
      refine Ends.after (h.say span ⟨rfl, rfl⟩) fun _ => ?_
      refine Ends.after (h.eval site hSite init hs) fun v => ?_
      refine Ends.after (h.say init.span ⟨rfl, rfl⟩) fun _ => ?_
      exact .declareLocal name _ hDone
  | expr e =>
    exact Ends.after (h.say span ⟨rfl, rfl⟩) fun _ =>
      Ends.after (h.eval site hSite e hs) fun _ => hDone
  | block stmts => exact (h.stmts hSite hs).inScope
  | cond cond onTrue onFalse =>
    simp only [StmtForm.passes, Bool.and_eq_true] at hs
    refine Ends.after (h.judge hSite hs.1.1 _ fun _ => ⟨rfl, rfl⟩)
      fun b => ?_
    cases b with
    | true => exact (h.exec site hSite _ hs.1.2).inScope
    | false =>
      cases onFalse with
      | none => exact hDone
      | some onFalse => exact (h.exec site hSite _ hs.2).inScope
  | «while» label cond body =>
    simp only [StmtForm.passes, Bool.and_eq_true] at hs
    rcases h.loops hSite .while label span hs.2 with ⟨hInner, hRound⟩
    refine h.toldLoop .while span (.iterate (fun _ => ?_) n 0)
    exact .roundWhile (h.judge hInner hs.1 _ fun _ => ⟨rfl, rfl⟩)
      hRound
  | doWhile label body cond =>
    simp only [StmtForm.passes, Bool.and_eq_true] at hs
    rcases h.loops hSite .doWhile label span hs.1 with
      ⟨hInner, hRound⟩
    refine h.toldLoop .doWhile span (.iterate (fun _ => ?_) n 0)
    exact .roundUntil hRound
      (h.judge hInner hs.2 _ fun _ => ⟨rfl, rfl⟩)
  | «for» label init cond update body =>
    simp only [StmtForm.passes, Bool.and_eq_true] at hs
    rcases hs with ⟨⟨⟨hInit, hCond⟩, hUpdate⟩, hBody⟩
    rcases h.loops hSite .for label span hBody with ⟨hInner, hRound⟩
    refine h.toldLoop .for span (.initialized h.departs
      (fun s hs => h.exec site hSite s (passes_of_passStmts hInit s hs))
      (.iterate (fun _ => .roundWhile ?_ (.roundUntil hRound ?_)) n 0))
    · cases cond with
      | none => exact hc.pure _
      | some c =>
        exact h.judge hInner hCond
          (fun o => .statement (.loopCondition o .for))
          fun _ => ⟨rfl, rfl⟩
    · exact hc.performAll fun e he =>
        h.eval _ hInner e (passes_of_passExprs hUpdate e he)
  | forEach label var ty iterable body =>
    simp only [StmtForm.passes, Bool.and_eq_true] at hs
    refine h.toldLoop .forEach span ?_
    refine Ends.after (h.eval site hSite iterable hs.1) fun v => ?_
    refine Ends.after (hc.iterated v) fun address => ?_
    refine .iterate (fun i => .roundOver (.loopRound ?_ label)
      address var ty i) n 0
    refine Ends.after (h.tell span _ fun _ => ⟨rfl, rfl⟩) fun _ => ?_
    exact h.exec _ ((Teller.Retold.method_map site
      (·.inLoop .forEach label span) fun _ => rfl).trans hSite)
      body hs.2
  | «switch» selector arms =>
    simp only [StmtForm.passes, Bool.and_eq_true] at hs
    refine Ends.after (h.held hSite hs.1) fun v => ?_
    refine Ends.after (h.say span ⟨rfl, rfl⟩) fun _ => ?_
    exact h.switchOn ((Teller.Retold.method_map site
      (·.inside ⟨.switch, none, span⟩) fun _ => rfl).trans hSite)
      hs.2 v
  | «return» value =>
    cases value with
    | none => exact h.returning hSite span _ rfl _
    | some value =>
      refine Ends.after (h.eval site hSite value hs) fun v => ?_
      exact Ends.look fun m => h.returning hSite span _ rfl _
  | «break» label =>
    exact Ends.after (h.say span ⟨rfl, rfl⟩) fun _ => .pure rfl
  | «continue» label =>
    exact Ends.after (h.say span ⟨rfl, rfl⟩) fun _ => .pure rfl
  | yield value =>
    refine Ends.after (h.held hSite hs) fun v => ?_
    exact Ends.after (h.say span ⟨rfl, rfl⟩) fun _ => .pure rfl
  | throw exception =>
    refine Ends.after (h.held hSite hs) fun v => ?_
    refine Ends.after (h.say span ⟨rfl, rfl⟩) fun _ => ?_
    unfold throwValue
    split
    · exact .raise hc _ _
    · exact fun _ _ => .throw fun _ hm => hm
  | «try» body catches =>
    simp only [StmtForm.passes, Bool.and_eq_true] at hs
    refine .catching (h.stmts hSite hs.1).inScope fun v =>
      .runHandler (fun c hc => ?_) v
    refine Ends.after (h.tell c.span _ fun _ => ⟨rfl, rfl⟩) fun _ => ?_
    exact h.stmts hSite (passes_of_passCatches hs.2 c hc)
  | assert cond message =>
    simp only [StmtForm.passes, Bool.and_eq_true] at hs
    refine Ends.after (h.held hSite hs.1) fun v => ?_
    refine Ends.after (h.say span ⟨rfl, rfl⟩) fun _ => ?_
    refine Ends.after (hc.truthOf cond v) fun b => ?_
    cases b with
    | true => exact hDone
    | false => exact h.failing hSite hs.2
  | superCall signature args =>
    refine Ends.after (hc.currentSelf _) fun self => ?_
    refine Ends.after (hc.mapList args fun e he =>
      h.eval site hSite e (passes_of_passExprs hs e he)) fun vs => ?_
    refine Ends.look fun m => ?_
    exact Ends.after (h.superCall signature args span hTest _ self vs)
      fun _ => hDone
  | probe p => cases hSource

end Speaks

end ExecTrace
