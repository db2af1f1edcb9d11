import ExecTrace.Proofs.Splicing.Boxes

/-
  Spliced statements. A statement becomes some statements that
  do the same in the scope in which they stand: what is reported
  of it is told when it happens, and what is bound for a report
  is hidden.

  Main declarations:
    * `Unfolds`
    * `Spliced.unfolds_stmt`
    * `Spliced.keeps_stmt`
    * `Spliced.boxes_single`
-/

namespace ExecTrace

open Run
open Teller (runner)
open Instrument (Site Options fresh reporting probeAt statementAt
  operationAt holding hidden_fresh)

/-
  A statement at a site agrees with the statements that it
  becomes, in scopes of any shape.
-/
def Unfolds
    (S : Slack)
    (X : Splice)
    (w : Observer)
    (p q : Program)
    (n : Nat)
    (site : Site)
    (s : Stmt)
    (ss : List Stmt) : Prop :=
  ∀ k, Enough S (n + 1) k → ∀ t : Shape, t.ret = site.ret →
    Mirrors S t (SameEnd t)
      (X.teller.execForm p (X.teller.runner p n) n (some site) s)
      (runAll (exec w q k) ss)

/- What becomes of an expression whose value is discarded. -/
theorem Instrument.discarded_ok
    {o : Options}
    {site : Site}
    {span : Span}
    {e : Expr}
    {s : Stmt}
    {c c' : Nat}
    (h : Instrument.discarded o site span e c = .ok (s, c')) :
    (∃ callee receiver args pos,
      e = ⟨.call callee receiver args, .void, pos⟩) ∨
    ∃ e', Instrument.expr o site e c = .ok (e', c') ∧
      ⟨.expr e', span⟩ = s := by
  unfold Instrument.discarded at h
  split at h
  · exact .inl ⟨_, _, _, _, rfl⟩
  · simp only [Instrument.bind_ok, Instrument.pure_ok] at h
    rcases h with ⟨e', _, hExpr, rfl, rfl⟩
    refine .inr ⟨e', ?_, rfl⟩
    rw [Instrument.expr]
    exact hExpr

namespace Spliced

variable {S : Slack}
variable {w : Observer}
variable {X : Splice}
variable {p q : Program}
variable {n j k : Nat}
variable {site : Site}
variable {span : Span}
variable {ss : List Stmt}
variable {c c' : Nat}

------------------------------------------------------------
-- Single Statements
------------------------------------------------------------

/- A statement that becomes a single one. -/
theorem unfolds_one
    {s s' : Stmt}
    (h : ∀ k, Spare S n 7 k →
      Agrees S (Bond.level (· = site.ret))
        (X.teller.execForm p (X.teller.runner p n) n (some site) s)
        (Runner.execForm w q (fueled w q k) k s')) :
    Unfolds S X w p q n site s [s'] := by
  intro k hk t ht
  rw [runAll_eq_andThen, ← exec_eq_andThen]
  refine Sim.execRight hk.spare fun k hk => ?_
  exact Mirrors.ended (h k hk) ht

/- An expression whose value is discarded. -/
theorem unfolds_expr
    (h : Spliced S X w p q n)
    {e : Expr}
    (he : e.passes Test.source = true)
    (hPass : Instrument.stmtForm X.options site span (.expr e) c
      = .ok (ss, c')) :
    Unfolds S X w p q n site ⟨.expr e, span⟩ ss := by
  intro k hk t ht
  simp only [Instrument.stmtForm, Instrument.bind_ok,
    Instrument.pure_ok] at hPass
  rcases hPass with ⟨s', c₁, hDiscarded, rfl, rfl⟩
  rw [runAll_eq_andThen]
  refine h.say (j := 5) hk.spare (by decide) rfl
    (tale_bare (b := .exec) rfl (fun _ => rfl) fun _ => rfl)
    span ?_
  rw [← exec_eq_andThen]
  rcases Instrument.discarded_ok hDiscarded with
    ⟨callee, receiver, args, pos, rfl⟩ | ⟨e', hExpr, rfl⟩
  · simp only [Expr.passes, ExprForm.passes, Bool.and_eq_true]
      at he
    exact Mirrors.ended (h.callVoid k hk.spare site callee
      receiver args span pos he.2.1 he.2.2 _ _ _ hDiscarded) ht
  · refine Sim.execRight hk.spare fun k hk => ?_
    exact Mirrors.ended (P := fun _ => True)
      ((h.part hk (by decide) he hExpr).bind
        fun _ _ => Yields.pure trivial) ht

/- A block. -/
theorem unfolds_block
    (h : Spliced S X w p q n)
    {stmts : List Stmt}
    (hs : passStmts Test.source stmts = true)
    (hPass : Instrument.stmtForm X.options site span
      (.block stmts) c = .ok (ss, c')) :
    Unfolds S X w p q n site ⟨.block stmts, span⟩ ss := by
  simp only [Instrument.stmtForm, Instrument.bind_ok,
    Instrument.pure_ok] at hPass
  rcases hPass with ⟨stmts', c₁, hStmts, rfl, rfl⟩
  exact unfolds_one fun k hk =>
    (h.keeps_block hk (by decide) hs hStmts).boxed

/- A super call. -/
theorem unfolds_superCall
    (h : Spliced S X w p q n)
    {signature : String}
    {args : List Expr}
    (has : passExprs Test.source args = true)
    (hPass : Instrument.stmtForm X.options site span
      (.superCall signature args) c = .ok (ss, c')) :
    Unfolds S X w p q n site ⟨.superCall signature args, span⟩
      ss := by
  simp only [Instrument.stmtForm, Instrument.bind_ok,
    Instrument.pure_ok] at hPass
  rcases hPass with ⟨args', c₁, hArgs, rfl, rfl⟩
  refine unfolds_one fun k hk => ?_
  refine (agrees_currentSelf .superOutside .superOutside).bind
    fun self _ => ?_
  refine (agrees_mapForall₂ (h.parts hk (by decide) has
    hArgs)).bind fun vs _ => ?_
  refine Yields.look fun _ _ m m' hm => ?_
  rw [hm.locals.cls]
  refine (agrees_superCall h.paired
    (h.invoke k (hk.enough (by decide))) _ self vs).inMethods.bind
      fun _ _ => ?_
  exact Yields.pure trivial

/- A statement that depends on a condition. -/
theorem unfolds_cond
    (h : Spliced S X w p q n)
    {cond : Expr}
    {onTrue : Stmt}
    {onFalse : Option Stmt}
    (hCond : cond.passes Test.source = true)
    (hTrue : onTrue.passes Test.source = true)
    (hFalse : passStmt? Test.source onFalse = true)
    (hPass : Instrument.stmtForm X.options site span
      (.cond cond onTrue onFalse) c = .ok (ss, c')) :
    Unfolds S X w p q n site ⟨.cond cond onTrue onFalse, span⟩
      ss := by
  simp only [Instrument.stmtForm, Instrument.bind_ok,
    Instrument.pure_ok] at hPass
  rcases hPass with ⟨value', c₁, hValue, cond', c₂, hCond',
    onTrue', c₃, hTrue', onFalse', c₄, hFalse', rfl, rfl⟩
  refine unfolds_one fun k hk => ?_
  refine Yields.bind (P := fun _ => True)
    (h.agrees_judge (j := 3) hk (by decide) hCond hValue hCond'
      (fun _ => rfl) fun s e v hv => tale_statement
        (fun o => .ifCondition o) hv rfl fun _ _ => rfl)
    fun b _ => ?_
  cases b with
  | true =>
    exact (h.boxed k (hk.less (by decide) (by decide)) site onTrue
      hTrue _ _ _ hTrue').inScope
  | false =>
    cases onFalse with
    | none =>
      rcases Instrument.pure_ok.mp hFalse' with ⟨rfl, _⟩
      exact Yields.pure trivial
    | some onFalse =>
      simp only [Instrument.single?, Instrument.bind_ok,
        Instrument.pure_ok] at hFalse'
      rcases hFalse' with ⟨s', _, hSingle, rfl, rfl⟩
      exact (h.boxed k (hk.less (by decide) (by decide)) site
        onFalse hFalse _ _ _ hSingle).inScope

------------------------------------------------------------
-- Loops
------------------------------------------------------------

/- A loop is told between its start and its end. -/
theorem mirrors_looped
    (h : Spliced S X w p q n)
    (hk : Enough S (n + 1) k)
    {kind : LoopKind}
    {loop : Run Flow}
    {form : StmtForm}
    (hLoop : ∀ k, Spare S n 7 k →
      Agrees S (Bond.level (· = site.ret)) loop
        (Runner.execForm w q (fueled w q k) k ⟨form, span⟩))
    {t : Shape}
    (ht : t.ret = site.ret) :
    Mirrors S t (SameEnd t)
      (X.teller.toldLoop p (X.teller.runner p n) n kind span loop)
      (runAll (ExecTrace.exec w q k)
        (Instrument.looped kind span form)) := by
  rw [runAll_eq_andThen]
  refine h.say (j := 5) hk.spare (by decide) rfl
    (tale_bareOperation (b := .loopEnter kind) rfl
      (fun _ => rfl) fun _ => rfl) span ?_
  rw [andThen_cons]
  refine Sim.execRight_bind hk.spare fun k' hk' => ?_
  refine Mirrors.agreed (hLoop k' hk') ht fun flow _ => ?_
  cases flow with
  | normal =>
    refine h.say (j := 5) hk.spare (by decide) rfl
      (tale_bareOperation (b := .loopExit kind) rfl
        (fun _ => rfl) fun _ => rfl) span.ending ?_
    rw [andThen_nil]
    exact Sim.pure fun _ _ hm => ⟨rfl, hm.loose⟩
  | _ => exact Sim.pure fun _ _ hm => ⟨rfl, hm.loose⟩

/- The condition of a loop is told. -/
theorem agrees_loopTest
    (h : Spliced S X w p q n)
    (hk : Spare S n 7 k)
    {kind : LoopKind}
    {cond value' cond' : Expr}
    {c₁ c₂ : Nat}
    (hCond : cond.passes Test.source = true)
    (hValue : Instrument.expr X.options site cond c
      = .ok (value', c₁))
    (hPass : Instrument.recordLoopCondition kind cond.span value'
      c₁ = .ok (cond', c₂)) :
    Agrees S (Bond.level (· = site.ret))
      (X.teller.judge p (X.teller.runner p n) n (some site) cond
        fun o => .statement (.loopCondition o kind))
      (truth (ExecTrace.eval w q k) cond') :=
  h.agrees_judge (j := 3) hk (by decide) hCond hValue hPass
    (fun _ => rfl) fun s e v hv => tale_statement
      (fun o => .loopCondition o kind) hv rfl fun _ _ => rfl

/- The body of a loop is run once. -/
theorem steers_round
    (h : Spliced S X w p q n)
    (hk : Spare S n 7 k)
    {body body' : Stmt}
    (hBody : body.passes Test.source = true)
    (hPass : Instrument.single X.options site body c
      = .ok (body', c'))
    (label : Option String) :
    Steers S (Bond.level (· = site.ret)) none (roundTold none)
      (loopRound (X.teller.exec p n (some site)) label body)
      (loopRound (ExecTrace.exec w q k) label body') :=
  steers_loopRound (Steers.ofAgrees (h.boxed k
    (hk.less (by decide) (by decide)) site body hBody _ _ _
    hPass).inScope) label

/- A loop that tests its condition first. -/
theorem unfolds_while
    (h : Spliced S X w p q n)
    {label : Option String}
    {cond : Expr}
    {body : Stmt}
    (hCond : cond.passes Test.source = true)
    (hBody : body.passes Test.source = true)
    (hPass : Instrument.stmtForm X.options site span
      (.while label cond body) c = .ok (ss, c')) :
    Unfolds S X w p q n site ⟨.while label cond body, span⟩
      ss := by
  simp only [Instrument.stmtForm, Instrument.bind_ok,
    Instrument.pure_ok] at hPass
  rcases hPass with ⟨value', c₁, hValue, cond', c₂, hCond',
    body', c₃, hBody', rfl, rfl⟩
  intro k hk t ht
  refine h.mirrors_looped hk (fun k hk => ?_) ht
  refine (steers_iterate (hk.enough (by decide)).paced
    (fun i => ?_) 0).agreed
  exact steers_roundWhile
    (h.agrees_loopTest hk
      hCond hValue hCond')
    (h.steers_round hk
      hBody hBody' label)

/- A loop that tests its condition last. -/
theorem unfolds_doWhile
    (h : Spliced S X w p q n)
    {label : Option String}
    {cond : Expr}
    {body : Stmt}
    (hCond : cond.passes Test.source = true)
    (hBody : body.passes Test.source = true)
    (hPass : Instrument.stmtForm X.options site span
      (.doWhile label body cond) c = .ok (ss, c')) :
    Unfolds S X w p q n site ⟨.doWhile label body cond, span⟩
      ss := by
  simp only [Instrument.stmtForm, Instrument.bind_ok,
    Instrument.pure_ok] at hPass
  rcases hPass with ⟨body', c₁, hBody', value', c₂, hValue,
    cond', c₃, hCond', rfl, rfl⟩
  intro k hk t ht
  refine h.mirrors_looped hk (fun k hk => ?_) ht
  refine (steers_iterate (hk.enough (by decide)).paced
    (fun i => ?_) 0).agreed
  exact steers_roundUntil
    (h.steers_round hk
      hBody hBody' label)
    (h.agrees_loopTest
      hk hCond hValue hCond')

/- A loop with statements in front and updates behind. -/
theorem unfolds_for
    (h : Spliced S X w p q n)
    {label : Option String}
    {init : List Stmt}
    {cond : Option Expr}
    {update : List Expr}
    {body : Stmt}
    (hInit : passStmts Test.source init = true)
    (hCond : passOption Test.source cond = true)
    (hUpdate : passExprs Test.source update = true)
    (hBody : body.passes Test.source = true)
    (hPass : Instrument.stmtForm X.options site span
      (.for label init cond update body) c = .ok (ss, c')) :
    Unfolds S X w p q n site
      ⟨.for label init cond update body, span⟩ ss := by
  simp only [Instrument.stmtForm, Instrument.bind_ok,
    Instrument.pure_ok] at hPass
  rcases hPass with ⟨init', c₁, hInit', cond', c₂, hCond',
    update', c₃, hUpdate', body', c₄, hBody', rfl, rfl⟩
  intro k hk t ht
  refine h.mirrors_looped hk (fun k hk => ?_) ht
  refine (steers_initialized
    (h.keeps_block hk (by decide) hInit hInit') ?_).agreed
  refine steers_iterate (hk.enough (by decide)).paced
    (fun i => ?_) 0
  refine steers_roundWhile (agrees_goesOn ?_)
    (steers_roundUntil
      (h.steers_round hk
        hBody hBody' label)
      (agrees_performAll
        (h.parts hk
          (by decide) hUpdate hUpdate')))
  cases cond with
  | none =>
    rcases Instrument.pure_ok.mp hCond' with ⟨rfl, _⟩
    exact .none
  | some cond =>
    simp only [Instrument.forCondition, Instrument.bind_ok,
      Instrument.pure_ok] at hCond'
    rcases hCond' with ⟨value', _, hValue, cond', _, hOne, rfl,
      rfl⟩
    exact .some (h.agrees_loopTest hk hCond hValue hOne)

------------------------------------------------------------
-- Jumps
------------------------------------------------------------

/- A switch statement. -/
theorem unfolds_switch
    (h : Spliced S X w p q n)
    {selector : Expr}
    {armList : List Arm}
    (hSelector : selector.passes Test.source = true)
    (hArms : passArms Test.source armList = true)
    (hPass : Instrument.stmtForm X.options site span
      (.switch selector armList) c = .ok (ss, c')) :
    Unfolds S X w p q n site ⟨.switch selector armList, span⟩
      ss := by
  simp only [Instrument.stmtForm, Instrument.bind_ok,
    Instrument.bindTo_ok, Instrument.operand_ok,
    Instrument.pure_ok] at hPass
  rcases hPass with ⟨selector', c₁, hSelector', _, _, ⟨rfl, rfl⟩,
    _, _, ⟨_, rfl, rfl⟩, arms', c₂, hArms', rfl, rfl⟩
  have hTy := Instrument.ty_of_expr hSelector'
  intro k hk t ht
  rw [runAll_eq_andThen]
  refine h.held (j := 7) hk.spare (by decide) hSelector hSelector'
    ht _ _ fun v => ?_
  refine h.say (j := 5) hk.spare (by decide) rfl ?_ span ?_
  · rw [← hTy]
    exact tale_statement (fun o => .switch o)
      (reads_localVar (hidden_fresh _ _) Shape.find?_hide) rfl
      fun _ _ => rfl
  · rw [← exec_eq_andThen]
    refine Sim.execRight hk.spare fun k hk => ?_
    refine Mirrors.readFirst h.follows hk (hidden_fresh _ _)
      Shape.find?_hide ?_
    exact Mirrors.ended (R := (· = site.ret))
      (steers_switchOn h.paired v
        (h.arms hk (by decide) hArms hArms')).agreed ht

/- A return without a value. -/
theorem unfolds_returnNothing
    (h : Spliced S X w p q n)
    (hPass : Instrument.stmtForm X.options site span
      (.return none) c = .ok (ss, c')) :
    Unfolds S X w p q n site ⟨.return none, span⟩ ss := by
  simp only [Instrument.stmtForm, Instrument.pure_ok] at hPass
  rcases hPass with ⟨rfl, rfl⟩
  intro k hk t ht
  rw [runAll_eq_andThen]
  refine h.say (j := 5) hk.spare (by decide) rfl
    (tale_bare (b := .return site.method) rfl (fun _ => rfl)
      fun _ => rfl) span ?_
  refine h.leave (j := 5) hk.spare (by decide) exitTale_nothing
    span site.method ?_
  rw [← exec_eq_andThen]
  refine Sim.execRight hk.spare fun k hk => ?_
  exact Sim.pure fun _ _ hm => ⟨rfl, hm.loose⟩

/- The result type of the current method can be looked up. -/
theorem mirrors_ret
    {α β : Type}
    {s : Shape}
    {post : α → β → Machine → Machine → Prop}
    {f : Ty → Run α}
    {y : Run β}
    (h : Mirrors S s post (f s.ret) y) :
    Mirrors S s post (do f (← get).locals.ret) y := by
  intro m m' hm
  rw [get_bind_apply, hm.locals.retLeft]
  exact h m m' hm

/- A return with a value. -/
theorem unfolds_returnValue
    (h : Spliced S X w p q n)
    {value : Expr}
    (hValue : value.passes Test.source = true)
    (hPass : Instrument.stmtForm X.options site span
      (.return (some value)) c = .ok (ss, c')) :
    Unfolds S X w p q n site ⟨.return (some value), span⟩ ss := by
  simp only [Instrument.stmtForm, Instrument.bind_ok,
    Instrument.bindAs_ok, Instrument.operand_ok,
    Instrument.pure_ok] at hPass
  rcases hPass with ⟨value', c₁, hValue', _, _, ⟨rfl, rfl⟩, _, _,
    ⟨_, rfl, rfl⟩, rfl, rfl⟩
  intro k hk t ht
  rw [runAll_eq_andThen]
  refine Mirrors.declare (P := fun _ => True) (j := 7) hk.spare
    (hidden_fresh _ _) (fun k hk => ?_) fun v _ => ?_
  · exact Mirrors.ofYields (h.part hk (by decide) hValue hValue')
      ht
  refine mirrors_ret (f := fun ret => do
    X.teller.say p (X.teller.runner p n) n span
      (.statement (.return site.method))
    X.teller.leave p (X.teller.runner p n) n span site.method
      (.explicit (some (shown ret (v.convert ret))))
    pure (Flow.return (v.convert ret))) ?_
  have hRet : (t.hide (fresh "ret" c₁)
      (v.convert site.ret)).ret = site.ret := ht
  rw [hRet]
  have hRead : Reads
      (t.hide (fresh "ret" c₁) (v.convert site.ret))
      (holding (fresh "ret" c₁) site.ret value').read
      (v.convert site.ret) :=
    reads_localVar (hidden_fresh _ _) Shape.find?_hide
  refine h.say (j := 5) hk.spare (by decide) rfl
    (tale_bare (b := .return site.method) rfl (fun _ => rfl)
      fun _ => rfl) span ?_
  refine h.leave (j := 5) hk.spare (by decide)
    (exitTale_value hRead) span site.method ?_
  rw [← exec_eq_andThen]
  refine Sim.execRight hk.spare fun k hk => ?_
  refine Mirrors.readFirst h.follows hk (hidden_fresh _ _)
    Shape.find?_hide ?_
  intro m m' hm
  have hLast : m'.locals.ret = site.ret :=
    hm.locals.retRight.trans hRet
  rw [get_bind_apply, hLast, Val.convert_convert]
  exact .ok ⟨rfl, hm.loose⟩

/- A jump that is told and made. -/
theorem mirrors_jump
    (h : Spliced S X w p q n)
    (hk : Enough S (n + 1) k)
    {t : Shape}
    {a : Statement Shown}
    {P : Statement Operand}
    {flow : Flow}
    {form : StmtForm}
    (hTale : Tale t (.statement a) (.statement P))
    (hJump : ∀ k, Runner.execForm w q (fueled w q k) k
      ⟨form, span⟩ = pure flow) :
    Mirrors S t (SameEnd t)
      (do
        X.teller.say p (X.teller.runner p n) n span (.statement a)
        pure flow)
      (runAll (ExecTrace.exec w q k)
        [statementAt P span, ⟨form, span⟩]) := by
  rw [runAll_eq_andThen]
  refine h.say (j := 5) hk.spare (by decide) rfl hTale span ?_
  rw [← exec_eq_andThen]
  refine Sim.execRight hk.spare fun k hk => ?_
  rw [hJump]
  exact Sim.pure fun _ _ hm => ⟨rfl, hm.loose⟩

/- The landing of a jump is the one that is told. -/
theorem landing_eq
    {jump : Instrument.Jump}
    {label : Option String}
    {target : JumpTarget}
    (h : Instrument.resolve? site.around jump label
      = some target) :
    Teller.landing (some site) jump label = target := by
  simp [Teller.landing, h]

/- A jump out of a loop or a switch. -/
theorem unfolds_break
    (h : Spliced S X w p q n)
    {label : Option String}
    (hPass : Instrument.stmtForm X.options site span
      (.break label) c = .ok (ss, c')) :
    Unfolds S X w p q n site ⟨.break label, span⟩ ss := by
  simp only [Instrument.stmtForm, Instrument.bind_ok,
    Instrument.landing_ok, Instrument.pure_ok] at hPass
  rcases hPass with ⟨target, _, ⟨hTarget, rfl⟩, rfl, rfl⟩
  intro k hk t ht
  simp only [Teller.execForm, landing_eq hTarget]
  exact h.mirrors_jump hk
    (tale_bare (b := .break target) rfl (fun _ => rfl)
      fun _ => rfl) fun _ => rfl

/- A jump to the next round of a loop. -/
theorem unfolds_continue
    (h : Spliced S X w p q n)
    {label : Option String}
    (hPass : Instrument.stmtForm X.options site span
      (.continue label) c = .ok (ss, c')) :
    Unfolds S X w p q n site ⟨.continue label, span⟩ ss := by
  simp only [Instrument.stmtForm, Instrument.bind_ok,
    Instrument.landing_ok, Instrument.pure_ok] at hPass
  rcases hPass with ⟨target, _, ⟨hTarget, rfl⟩, rfl, rfl⟩
  intro k hk t ht
  simp only [Teller.execForm, landing_eq hTarget]
  exact h.mirrors_jump hk
    (tale_bare (b := .continue target) rfl (fun _ => rfl)
      fun _ => rfl) fun _ => rfl

/- A value for a switch expression. -/
theorem unfolds_yield
    (h : Spliced S X w p q n)
    {value : Expr}
    (hValue : value.passes Test.source = true)
    (hPass : Instrument.stmtForm X.options site span
      (.yield value) c = .ok (ss, c')) :
    Unfolds S X w p q n site ⟨.yield value, span⟩ ss := by
  simp only [Instrument.stmtForm, Instrument.bind_ok,
    Instrument.landing_ok, Instrument.bindTo_ok,
    Instrument.operand_ok, Instrument.pure_ok] at hPass
  rcases hPass with ⟨target, _, ⟨hTarget, rfl⟩, value', c₁,
    hValue', _, _, ⟨rfl, rfl⟩, _, _, ⟨_, rfl, rfl⟩, rfl, rfl⟩
  have hTy := Instrument.ty_of_expr hValue'
  intro k hk t ht
  rw [runAll_eq_andThen]
  simp only [Teller.execForm, landing_eq hTarget]
  refine h.held (j := 7) hk.spare (by decide) hValue hValue' ht _
    _ fun v => ?_
  refine h.say (j := 5) hk.spare (by decide) rfl ?_ span ?_
  · rw [← hTy]
    exact tale_statement (fun o => .yield o target)
      (reads_localVar (hidden_fresh _ _) Shape.find?_hide) rfl
      fun _ _ => rfl
  · rw [← exec_eq_andThen]
    refine Sim.execRight hk.spare fun k hk => ?_
    refine Mirrors.readFirst h.follows hk (hidden_fresh _ _)
      Shape.find?_hide ?_
    exact Sim.pure fun _ _ hm => ⟨rfl, hm.loose⟩

/- An exception that is thrown. -/
theorem unfolds_throw
    (h : Spliced S X w p q n)
    {exception : Expr}
    (he : exception.passes Test.source = true)
    (hPass : Instrument.stmtForm X.options site span
      (.throw exception) c = .ok (ss, c')) :
    Unfolds S X w p q n site ⟨.throw exception, span⟩ ss := by
  simp only [Instrument.stmtForm, Instrument.bind_ok,
    Instrument.bindTo_ok, Instrument.operand_ok,
    Instrument.pure_ok] at hPass
  rcases hPass with ⟨exception', c₁, he', _, _, ⟨rfl, rfl⟩, _, _,
    ⟨_, rfl, rfl⟩, rfl, rfl⟩
  have hTy := Instrument.ty_of_expr he'
  intro k hk t ht
  rw [runAll_eq_andThen]
  refine h.held (j := 7) hk.spare (by decide) he he' ht _ _
    fun v => ?_
  refine h.say (j := 5) hk.spare (by decide) rfl ?_ span ?_
  · rw [← hTy]
    exact tale_statement (fun o => .throw o)
      (reads_localVar (hidden_fresh _ _) Shape.find?_hide) rfl
      fun _ _ => rfl
  · rw [← exec_eq_andThen]
    refine Sim.execRight hk.spare fun k hk => ?_
    refine Mirrors.readFirst h.follows hk (hidden_fresh _ _)
      Shape.find?_hide ?_
    exact Mirrors.ended (R := fun _ => True)
      (yields_throwValue h.paired v) trivial

/- A condition that is asserted. -/
theorem unfolds_assert
    (h : Spliced S X w p q n)
    {cond : Expr}
    {message : Option Expr}
    (hCond : cond.passes Test.source = true)
    (hMessage : passOption Test.source message = true)
    (hPass : Instrument.stmtForm X.options site span
      (.assert cond message) c = .ok (ss, c')) :
    Unfolds S X w p q n site ⟨.assert cond message, span⟩
      ss := by
  simp only [Instrument.stmtForm, Instrument.bind_ok,
    Instrument.bindTo_ok, Instrument.operand_ok,
    Instrument.pure_ok] at hPass
  rcases hPass with ⟨cond', c₁, hCond', _, _, ⟨rfl, rfl⟩, _, _,
    ⟨_, rfl, rfl⟩, message', c₂, hMessage', rfl, rfl⟩
  have hTy := Instrument.ty_of_expr hCond'
  intro k hk t ht
  rw [runAll_eq_andThen]
  refine h.held (j := 7) hk.spare (by decide) hCond hCond' ht _ _
    fun v => ?_
  refine h.say (j := 5) hk.spare (by decide) rfl ?_ span ?_
  · rw [← hTy]
    exact tale_statement (fun o => .assertion o cond.text)
      (reads_localVar (hidden_fresh _ _) Shape.find?_hide) rfl
      fun _ _ => rfl
  rw [← exec_eq_andThen]
  refine Sim.execRight hk.spare fun k hk => ?_
  simp only [Runner.execForm, Runner.test, truth, bind_assoc]
  refine Mirrors.readFirst h.follows hk (hidden_fresh _ _)
    Shape.find?_hide ?_
  refine Mirrors.agreed (R := fun _ => True)
    (agrees_truthOf _ _ v) trivial fun b _ => ?_
  cases b with
  | true => exact Sim.pure fun _ _ hm => ⟨rfl, hm.loose⟩
  | false =>
    have hThrow : ∀ text, Agrees (α := Flow) S
        (Bond.level (· = site.ret))
        (do throw (.throw
          (← Run.exception p "AssertionError" text)))
        (do throw (.throw
          (← Run.exception q "AssertionError" text))) :=
      fun text =>
        (yields_exception h.paired "AssertionError" text).bind
          fun e he => Yields.throw e he
    cases message with
    | none =>
      rcases Instrument.pure_ok.mp hMessage' with ⟨rfl, _⟩
      exact Mirrors.ended (R := (· = site.ret)) (hThrow none) ht
    | some message =>
      simp only [Instrument.expr?, Instrument.bind_ok,
        Instrument.pure_ok] at hMessage'
      rcases hMessage' with ⟨m', _, hm', rfl, rfl⟩
      refine Mirrors.ended (P := fun _ => True)
        (R := (· = site.ret)) ?_ ht
      refine (h.part hk (by decide) hMessage hm').bind
        fun v _ => ?_
      exact (agrees_textOf h.paired
        (h.invoke k (hk.enough (by decide))) "concat"
          v).inMethods.bind fun text _ => hThrow (some text)

end Spliced

------------------------------------------------------------
-- Visible Variables
------------------------------------------------------------

/- A variable is looked up, if actions are recorded. -/
def recalled (x : String) : Run Unit := do
  if ← isRecording then
    let _ ← getLocal x
    pure ()
  else pure ()

/- An action that mentions one value, and the probe for it. -/
structure Mentions
    (A : Shown → Action Unit Shown)
    (P : Operand → Probe Operand) : Prop where
  quiet : ∀ o, (A o).ofOperator = false
  plain : ∀ o, (P o).isPlain = true
  live : ∃ (L : Live → Probe Live) (a : Live → Action Unit Live),
    (∀ (f : Operand → Run Live) o,
      (P o).mapM f = do pure (L (← f o))) ∧
    (∀ l, (L l).toAction = pure (a l)) ∧
    ∀ l : Live, Tells (A ⟨l.operand.kind, l.value⟩) (a l)

section Visible

variable {S : Slack}
variable {R : Ty → Prop}
variable {w : Observer}
variable {X : Splice}
variable {p q : Program}
variable {n j k : Nat}
variable {s : Shape}
variable {x : String}
variable {m m' : Machine}

/- A variable that has a value is looked up. -/
theorem recalled_apply
    {v : Val}
    (hx : m.locals.get? x = some v) :
    recalled x m = (.ok (), m) := by
  unfold recalled
  rw [bind_ok (isRecording_apply m)]
  cases m.recording with
  | false => rfl
  | true =>
    simp only [if_true]
    have hGet : getLocal x m = (.ok v, m) := by
      unfold getLocal
      rw [get_bind_apply, hx]
      rfl
    rw [bind_ok hGet]
    rfl

/- A visible variable with a value is told about. -/
theorem Attuned.sim_mentioned
    (h : Attuned S X w p q n)
    (hk : Spare S n (j + 2) k)
    (hj : j + 1 < 8)
    {A : Shown → Action Unit Shown}
    {P : Operand → Probe Operand}
    (hMentions : Mentions A P)
    (hx : hidden x = false)
    (v : Val)
    (ty : Ty)
    (pos span : Span) :
    Sim S
      (fun m m' => Linked Joint.level s m m' ∧
        m.locals.get? x = some v)
      (fun _ flow m m' => flow = .normal ∧
        Linked Joint.level s m m')
      (levelCut s)
      (X.teller.tell p (X.teller.invoke p n) n span
        fun m => A (shown ty (Teller.valueOf x m)))
      (ExecTrace.exec w q k
        (probeAt (P (reporting ⟨.localVar x, ty, pos⟩)) span)) := by
  rcases hMentions.live with ⟨L, a, hMap, hAction, hTells⟩
  rw [exec_eq_andThen, ← bind_pure (Teller.tell _ _ _ _ _ _)]
  refine h.tell hk (by omega) (fun _ _ hm => hm.1)
    (hMentions.plain _) (fun k hk m m' ⟨hm, hv⟩ => ?_) span ?_
  · rw [andThen_nil]
    exact Sim.pure fun _ _ hm => ⟨rfl, hm⟩
  · have hGet : m'.locals.get? x = some v :=
      (hm.locals.scopes.get_visible hx).trans hv
    have hShown : shown ty (Teller.valueOf x m) = shown ty v := by
      simp [Teller.valueOf, hv]
    refine ⟨h.fair.plain _ (hMentions.quiet _),
      L ⟨reporting ⟨.localVar x, ty, pos⟩, v⟩,
      a ⟨reporting ⟨.localVar x, ty, pos⟩, v⟩, ?_, ?_, ?_⟩
    · rw [hMap]
      exact Gives.bind ((gives_localVar h.follows hk hGet).bind
        (.pure _)) (.pure _)
    · rw [hAction]
      rfl
    · rw [hShown]
      exact hTells ⟨reporting ⟨.localVar x, ty, pos⟩, v⟩

/- A variable without a value cannot be read. -/
theorem eval_unbound
    (hk : Spare S n (j + 1) k)
    (hx : m.locals.get? x = none)
    (ty : Ty)
    (span : Span) :
    ∃ c, ExecTrace.eval w q k ⟨.localVar x, ty, span⟩ m
        = (.error c, m) ∧
      (S.second c = true ∨ c = .fault (.unboundLocal x)) := by
  cases k with
  | zero => exact ⟨.outOfFuel, rfl, .inl hk.behind⟩
  | succ k =>
    refine ⟨.fault (.unboundLocal x), ?_, .inr rfl⟩
    have hGet : getLocal x m = (.error (.fault (.unboundLocal x)),
        m) := by
      unfold getLocal
      rw [get_bind_apply, hx]
      rfl
    rw [eval_succ]
    change (getLocal x >>= _) m = _
    rw [bind_error hGet]

/- A probe that mentions a variable without a value is cut. -/
theorem exec_unbound
    {A : Shown → Action Unit Shown}
    {P : Operand → Probe Operand}
    (hk : Spare S n (j + 2) k)
    (hMentions : Mentions A P)
    (hx : m.locals.get? x = none)
    (hOn : m.recording = true)
    (ty : Ty)
    (pos span : Span) :
    ∃ c, ExecTrace.exec w q k
        (probeAt (P (reporting ⟨.localVar x, ty, pos⟩)) span) m
        = (.error c, m) ∧
      (S.second c = true ∨ c = .fault (.unboundLocal x)) := by
  rcases hMentions.live with ⟨L, a, hMap, _, _⟩
  cases k with
  | zero => exact ⟨.outOfFuel, rfl, .inl hk.behind⟩
  | succ k =>
    rcases eval_unbound (w := w) (q := q) hk.inwards hx ty pos with
      ⟨c, hEval, hCut⟩
    refine ⟨c, ?_, hCut⟩
    have hRead : readLive (ExecTrace.eval w q k)
        (reporting ⟨.localVar x, ty, pos⟩) m = (.error c, m) :=
      bind_error hEval
    have hLive : (P (reporting ⟨.localVar x, ty, pos⟩)).mapM
        (readLive (ExecTrace.eval w q k)) m = (.error c, m) := by
      rw [hMap]
      exact bind_error hRead
    change (do
      watchBefore w (P (reporting ⟨.localVar x, ty, pos⟩))
      report w q (ExecTrace.eval w q k) (ExecTrace.invoke w q k)
        k (P (reporting ⟨.localVar x, ty, pos⟩)) span
      watchBehind w (P (reporting ⟨.localVar x, ty, pos⟩))
      pure Flow.normal : Run Flow) m = _
    rw [watchBefore_plain w (hMentions.plain _), pure_bind]
    refine bind_error ?_
    rw [report_plain (isEnter_plain (hMentions.plain _))]
    unfold recordProbe
    rw [bind_ok (isRecording_apply m), hOn, if_pos rfl]
    exact bind_error hLive

/- Without a recorder a plain probe does nothing. -/
theorem exec_quiet
    {P : Probe Operand}
    (hPlain : P.isPlain = true)
    (hOff : m.recording = false)
    (span : Span) :
    ExecTrace.exec w q (k + 1) (probeAt P span) m
      = (.ok .normal, m) := by
  change (do
    watchBefore w P
    report w q (ExecTrace.eval w q k) (ExecTrace.invoke w q k) k P
      span
    watchBehind w P
    pure Flow.normal : Run Flow) m = _
  rw [watchBefore_plain w hPlain, watchBehind_plain w hPlain]
  have hReport : report w q (ExecTrace.eval w q k)
      (ExecTrace.invoke w q k) k P span m = (.ok (), m) := by
    rw [report_plain (isEnter_plain hPlain)]
    unfold recordProbe
    rw [bind_ok (isRecording_apply m), hOff]
    rfl
  rw [pure_bind, bind_ok hReport]
  rfl

/- A visible variable is looked up and told about. -/
theorem Attuned.keeps_mentioned
    (h : Attuned S X w p q n)
    (hk : Spare S n (j + 2) k)
    (hj : j + 1 < 8)
    {A : Shown → Action Unit Shown}
    {P : Operand → Probe Operand}
    (hMentions : Mentions A P)
    (hx : hidden x = false)
    (ty : Ty)
    (pos span : Span) :
    Keeps S (Bond.level R) none (Flow.told none)
      (do
        recalled x
        X.teller.tell p (X.teller.invoke p n) n span
          fun m => A (shown ty (Teller.valueOf x m))
        pure Flow.normal)
      (ExecTrace.exec w q k
        (probeAt (P (reporting ⟨.localVar x, ty, pos⟩)) span)) := by
  refine Keeps.ofMirrors fun s _ _ m m' hm => ?_
  have hTold : ∀ v, m.locals.get? x = some v →
      Outcome S (SameEnd s) (levelCut s)
        ((do
          X.teller.tell p (X.teller.invoke p n) n span
            fun m => A (shown ty (Teller.valueOf x m))
          pure Flow.normal : Run Flow) m)
        (ExecTrace.exec w q k
          (probeAt (P (reporting ⟨.localVar x, ty, pos⟩)) span)
          m') := by
    intro v hv
    rw [← bind_pure (ExecTrace.exec w q k _)]
    refine Sim.bind (h.sim_mentioned hk hj hMentions hx v ty pos
      span) (fun _ flow m m' ⟨hFlow, hm⟩ => ?_) m m' ⟨hm, hv⟩
    exact .ok ⟨hFlow.symm, hm.loose⟩
  have hGet : m'.locals.get? x = m.locals.get? x :=
    hm.locals.scopes.get_visible hx
  cases hv : m.locals.get? x with
  | some v =>
    rw [bind_ok (recalled_apply hv)]
    exact hTold v hv
  | none =>
    have hRecording : m'.recording = m.recording := by
      simp only [Machine.recording, hm.recorder_eq]
    cases hOn : m.recording with
    | true =>
      rcases exec_unbound (w := w) (q := q) hk hMentions
        (hGet.trans hv) (hRecording.trans hOn) ty pos span with
        ⟨c, hExec, hExcuse | rfl⟩
      · rw [hExec]
        exact .second hExcuse
      · have hRecalled : recalled x m
            = (.error (.fault (.unboundLocal x)), m) := by
          unfold recalled
          rw [bind_ok (isRecording_apply m), hOn, if_pos rfl]
          refine bind_error ?_
          unfold getLocal
          rw [get_bind_apply, hv]
          rfl
        rw [hExec, bind_error hRecalled]
        exact .alike (.fault _ _) hm.loose
    | false =>
      have hRecalled : recalled x m = (.ok (), m) := by
        unfold recalled
        rw [bind_ok (isRecording_apply m), hOn]
        rfl
      rw [bind_ok hRecalled]
      have hTell : X.teller.tell p (X.teller.invoke p n) n span
          (fun m => A (shown ty (Teller.valueOf x m))) m
            = (.ok (), m) := by
        rw [X.tell_apply (h.fair.plain _ (hMentions.quiet _)), hOn]
        rfl
      rw [bind_ok hTell]
      cases k with
      | zero => exact .second hk.behind
      | succ k =>
        have hExec : ExecTrace.exec w q (k + 1)
            (probeAt (P (reporting ⟨.localVar x, ty, pos⟩)) span)
            m' = (.ok .normal, m') :=
          exec_quiet (hMentions.plain _) (hRecording.trans hOn) _
        rw [hExec]
        exact .ok ⟨rfl, hm.loose⟩

/- A variable has its value once it was declared. -/
theorem Keeps.declared
    {B : Bond}
    {α : Type}
    {ends : α → Option String}
    {f u g : Run α}
    (v : Val)
    (hx : hidden x = false)
    (hf : ∀ m, m.locals.get? x = some v → f m = u m)
    (h : Keeps S B none ends u g) :
    Keeps S B none ends
      (do
        declareLocal x v
        f)
      (do
        declareLocal x v
        g) := by
  intro gh s hs ho m m' hm
  have hLoose := hm
  rcases hm with ⟨top, hm⟩
  rcases hm.locals.scopes.head with ⟨l, ls, _, _, _, _, hLeft, _⟩
  have hGet : (m.locals.declare x v).get? x = some v := by
    simp [Locals.declare, hLeft, Locals.get?, Bindings.get?_put]
  have hSame : (do
        declareLocal x v
        f : Run α) m
      = (do
        declareLocal x v
        u : Run α) m :=
    hf { m with locals := m.locals.declare x v } hGet
  rw [hSame]
  exact (keeps_declareLocal x v hx).bind (fun _ => h) gh s hs ho
    m m' hLoose

end Visible

------------------------------------------------------------
-- Loops over Arrays and Handlers
------------------------------------------------------------

/- A statement on its own. -/
theorem runAll_one
    {ex : Stmt → Run Flow}
    (s : Stmt) :
    runAll ex [s] = ex s := by
  rw [runAll_eq_andThen, andThen_cons]
  conv_rhs => rw [← bind_pure (ex s)]
  congr 1
  funext flow
  cases flow <;> rfl

namespace Spliced

variable {S : Slack}
variable {w : Observer}
variable {X : Splice}
variable {p q : Program}
variable {n j k : Nat}
variable {site : Site}
variable {span : Span}
variable {ss : List Stmt}
variable {c c' : Nat}

/- The next item of an array is told. -/
theorem mentions_nextElement :
    Mentions (fun o => .operation (.nextElement o))
      (fun o => .operation (.nextElement o)) where
  quiet := fun _ => rfl
  plain := fun _ => rfl
  live :=
    ⟨fun l => .operation (.nextElement l),
      fun l => .operation (.nextElement l),
      fun _ _ => by
        simp only [Probe.mapM, Operation.mapM, bind_assoc,
          pure_bind],
      fun _ => rfl, fun _ _ => rfl⟩

/- An exception that is caught is told. -/
theorem mentions_caught :
    Mentions (fun o => .statement (.caught o))
      (fun o => .statement (.caught o)) where
  quiet := fun _ => rfl
  plain := fun _ => rfl
  live :=
    ⟨fun l => .statement (.caught l),
      fun l => .statement (.caught l),
      fun _ _ => by
        simp only [Probe.mapM, Statement.mapM, bind_assoc,
          pure_bind],
      fun _ => rfl, fun _ _ => rfl⟩

/- The body of a loop over an array, with its item told first. -/
theorem agrees_turn
    (h : Spliced S X w p q n)
    (hk : Spare S n 7 k)
    {x : String}
    {body body' : Stmt}
    (hx : hidden x = false)
    (hBody : body.passes Test.source = true)
    (hPass : Instrument.single X.options site body c
      = .ok (body', c'))
    (ty : Ty)
    (span : Span) :
    Agrees S (Bond.level (· = site.ret))
      (inScope do
        recalled x
        X.teller.tell p (X.teller.invoke p n) n span fun m =>
          .operation (.nextElement (shown ty (Teller.valueOf x m)))
        X.teller.exec p n (some site) body)
      (inScope (ExecTrace.exec w q k
        ⟨.block
          [operationAt
            (.nextElement (reporting ⟨.localVar x, ty, span⟩)) span,
            body'], span⟩)) := by
  refine agrees_inScopeRight fun s hs => ?_
  refine Sim.execRight hk fun k hk => ?_
  have hBox := Boxes.behind
    (h.keeps_mentioned (j := 4) hk (by decide)
      mentions_nextElement hx ty span span)
    (h.boxed k (hk.less (by decide) (by decide)) site body hBody
      _ _ _ hPass)
  simp only [bind_assoc, pure_bind] at hBox
  rw [← @runAll_one (ExecTrace.exec w q k) body'] at hBox
  exact Mirrors.ended hBox.inScope hs

/- A loop over the items of an array. -/
theorem unfolds_forEach
    (h : Spliced S X w p q n)
    {label : Option String}
    {x : String}
    {ty : Ty}
    {iterable : Expr}
    {body : Stmt}
    (hx : hidden x = false)
    (hIterable : iterable.passes Test.source = true)
    (hBody : body.passes Test.source = true)
    (hPass : Instrument.stmtForm X.options site span
      (.forEach label x ty iterable body) c = .ok (ss, c')) :
    Unfolds S X w p q n site
      ⟨.forEach label x ty iterable body, span⟩ ss := by
  simp only [Instrument.stmtForm, Instrument.bind_ok,
    Instrument.operand_ok, Instrument.pure_ok] at hPass
  rcases hPass with ⟨iterable', c₁, hIterable', _, _,
    ⟨_, rfl, rfl⟩, body', c₂, hBody', rfl, rfl⟩
  intro k hk t ht
  refine h.mirrors_looped hk (fun k hk => ?_) ht
  refine (h.part hk (by decide) hIterable hIterable').bind
    fun v _ => ?_
  refine (agrees_iterated h.paired v).bind fun address _ => ?_
  refine (steers_iterate (hk.enough (by decide)).paced
    (fun i => ?_) 0).agreed
  refine steers_roundOver address x ty (fun v => ?_) i
  let turn := fun (before : Run Unit) (body : Stmt) => do
    before
    X.teller.tell p (X.teller.invoke p n) n span fun m =>
      .operation (.nextElement (shown ty (Teller.valueOf x m)))
    X.teller.exec p n
      (some (site.inLoop .forEach label span)) body
  have hTurn : Agrees S (Bond.level (· = site.ret))
      (inScope (turn (recalled x) body)) _ :=
    h.agrees_turn hk hx hBody hBody' ty span
  refine Keeps.declared (u := loopRound (turn (recalled x))
    label body) v hx (fun m hm => ?_)
    (Keeps.ofSteers (steers_loopRound (Steers.ofAgrees hTurn)
      label))
  have hRecalled : recalled x m.enterScope
      = (.ok (), m.enterScope) := recalled_apply hm
  change loopRound (turn (pure ())) label body m = _
  unfold loopRound
  rw [bind_apply, bind_apply,
    inScope_congr (y := turn (recalled x) body)]
  simp only [turn]
  rw [pure_bind, bind_ok hRecalled]

/- Handlers agree with what they become. -/
theorem handlers
    (h : Spliced S X w p q n)
    (hk : Spare S n 7 k)
    {cs cs' : List Catch}
    (hcs : passCatches Test.source cs = true)
    (hVisible : cs.all (fun c => !hidden c.param) = true)
    (hPass : Instrument.catches X.options site cs c
      = .ok (cs', c')) :
    List.Forall₂
      (CatchesKeep S (Bond.level (· = site.ret)) none
        (fun c => do
          X.teller.tell p (X.teller.invoke p n) n c.span fun m =>
            .statement (.caught
              (shown c.ty (Teller.valueOf c.param m)))
          runAll (X.teller.exec p n (some site)) c.body)
        (fun c => runAll (ExecTrace.exec w q k) c.body)) cs cs' := by
  induction cs generalizing c cs' with
  | nil =>
    rcases Instrument.pure_ok.mp hPass with ⟨rfl, _⟩
    exact .nil
  | cons handler rest ih =>
    rcases handler with ⟨x, ty, body, span⟩
    simp only [passCatches, Bool.and_eq_true] at hcs
    simp only [List.all_cons, Bool.and_eq_true,
      Bool.not_eq_true'] at hVisible
    simp only [Instrument.catches, Instrument.bind_ok,
      Instrument.operand_ok, Instrument.pure_ok] at hPass
    rcases hPass with ⟨_, _, ⟨_, rfl, rfl⟩, body', c₁, hBody',
      rest', c₂, hRest', rfl, rfl⟩
    refine .cons ⟨rfl, fun v => ?_⟩
      (ih hcs.2 (by simpa using hVisible.2) hRest')
    have hTold := (h.keeps_mentioned (j := 5) hk (by decide)
      mentions_caught hVisible.1 ty span span).followed
        (h.keeps_block hk (by decide) hcs.1 hBody')
    simp only [bind_assoc, pure_bind] at hTold
    refine Keeps.declared v hVisible.1 (fun m hm => ?_) hTold
    rw [bind_ok (recalled_apply hm)]

/- A statement with handlers. -/
theorem unfolds_try
    (h : Spliced S X w p q n)
    {body : List Stmt}
    {handlers : List Catch}
    (hBody : passStmts Test.source body = true)
    (hHandlers : passCatches Test.source handlers = true)
    (hVisible : handlers.all (fun c => !hidden c.param) = true)
    (hPass : Instrument.stmtForm X.options site span
      (.try body handlers) c = .ok (ss, c')) :
    Unfolds S X w p q n site ⟨.try body handlers, span⟩ ss := by
  simp only [Instrument.stmtForm, Instrument.bind_ok,
    Instrument.pure_ok] at hPass
  rcases hPass with ⟨body', c₁, hBody', handlers', c₂, hHandlers',
    rfl, rfl⟩
  refine unfolds_one fun k hk => ?_
  refine (steers_catching (Steers.ofAgrees
    (h.keeps_block hk (by decide) hBody hBody').boxed)
      fun v hv => ?_).agreed
  exact steers_runHandler h.paired
    (h.handlers hk hHandlers hVisible hHandlers') v hv

------------------------------------------------------------
-- Declarations
------------------------------------------------------------

/- Where the second run declares a variable. -/
def declaring
    (name : String)
    (ty : Ty)
    (init : Option Expr)
    (span : Span) : List Stmt :=
  [statementAt (.declare name ty.text) span,
    ⟨.declare name ty init, span⟩]

/- The declaration of a variable is told. -/
theorem tale_declare
    (s : Shape)
    (name type : String) :
    Tale s (.statement (.declare name type))
      (.statement (.declare name type)) :=
  tale_bare (b := .declare name type) rfl (fun _ => rfl)
    fun _ => rfl

/- A visible variable is declared on both sides. -/
theorem keeps_declaration
    {R : Ty → Prop}
    {name : String}
    (v : Val)
    (hName : hidden name = false) :
    Keeps S (Bond.level R) none (Flow.told none)
      (do
        declareLocal name v
        pure Flow.normal)
      (do
        declareLocal name v
        pure Flow.normal) :=
  (keeps_declareLocal name v hName).bind fun _ => Keeps.pure rfl

/- A declaration with a default value. -/
theorem keeps_default
    (h : Spliced S X w p q n)
    (hk : Enough S (n + 1) k)
    {name : String}
    (hName : hidden name = false)
    (ty : Ty)
    (span : Span) :
    Keeps S (Bond.level (· = site.ret)) none (Flow.told none)
      (X.teller.execForm p (X.teller.runner p n) n (some site)
        ⟨.declare name ty none, span⟩)
      (runAll (ExecTrace.exec w q k)
        (declaring name ty none span)) := by
  refine Keeps.ofMirrors fun s hs ho => ?_
  rw [runAll_eq_andThen]
  refine h.say (j := 5) hk.spare (by decide) rfl
    (tale_declare s name ty.text) span ?_
  rw [← exec_eq_andThen]
  refine Sim.execRight hk.spare fun k hk => ?_
  exact Mirrors.ofKeeps (R := (· = site.ret))
    (keeps_declaration _ hName) hs ho

/- In a block a declaration with a default value ends alike. -/
theorem boxes_default
    (h : Spliced S X w p q n)
    (hk : Spare S (n + 1) 1 k)
    (name : String)
    (ty : Ty)
    (span : Span) :
    Boxes S (Bond.level (· = site.ret))
      (X.teller.execForm p (X.teller.runner p n) n (some site)
        ⟨.declare name ty none, span⟩)
      (ExecTrace.exec w q k
        ⟨.block (declaring name ty none span), span⟩) := by
  refine .declares (.bind _ fun _ => .declare name _ _)
    (Keeps.ofAgrees fun g s hs => ?_)
  refine Sim.execRight hk fun k hk => ?_
  change Sim _ _ _ _ _ (inScope (runAll (ExecTrace.exec w q k)
    (declaring name ty none span)))
  refine agrees_scopedDeclaration (R := (· = site.ret))
    (z := runAll (ExecTrace.exec w q k)
      [statementAt (.declare name ty.text) span])
    ?_ (fun s hs => ?_) g s hs
  · cases k with
    | zero => exact fun _ => .inl rfl
    | succ k =>
      refine .bind _ fun flow => ?_
      cases flow with
      | normal =>
        simp only [runAll_one]
        exact .declare name _ _
      | _ => exact .refl _
  · rw [runAll_eq_andThen]
    refine h.say (j := 5) (hk.enough (by decide)).spare
      (by decide) rfl (tale_declare s name ty.text) span ?_
    rw [andThen_nil]
    exact Sim.pure fun _ _ hm => ⟨rfl, hm.loose⟩

/- An initial value, once it is converted and told. -/
def initialized
    (T : Teller)
    (p : Program)
    (n : Nat)
    (site : Site)
    (name : String)
    (ty : Ty)
    (init : Expr) : Run Val := do
  let v ← T.eval p n (some site) init
  T.say p (T.runner p n) n init.span
    (.operation (.assign (.localVar name)
      (shown ty (v.convert ty))))
  pure (v.convert ty)

/- What the initial value of a variable becomes. -/
def initializer
    (name hold : String)
    (ty : Ty)
    (span : Span)
    (value : Expr) : Expr :=
  Expr.letIn
    [(holding hold ty value).decl,
      operationAt
        (.assign (.localVar name)
          (reporting (holding hold ty value).read)) span]
    (holding hold ty value).read

/- The initial value of a variable is told. -/
theorem agrees_initialized
    (h : Spliced S X w p q n)
    (hk : Spare S n 7 k)
    {init value : Expr}
    (hInit : init.passes Test.source = true)
    (hPass : Instrument.expr X.options site init c
      = .ok (value, c'))
    (name : String)
    (ty : Ty) :
    Agrees S (Bond.level (· = site.ret))
      (initialized X.teller p n site name ty init)
      (ExecTrace.eval w q k
        (initializer name (fresh "init" c') ty init.span
          value)) := by
  refine agrees_letIn h.follows hk fun k hk s hs => ?_
  refine Mirrors.declare (P := fun _ => True) hk
    (hidden_fresh _ _) (fun k hk => ?_) fun v _ => ?_
  · exact Mirrors.ofYields (h.part hk (by decide) hInit hPass) hs
  · refine h.say (j := 3) hk (by decide) rfl
      (tale_assign (placeTale_localVar name)
        (reads_localVar (hidden_fresh _ _) Shape.find?_hide))
      _ ?_
    exact h.readResult (j := 5) hk (hidden_fresh _ _)
      Shape.find?_hide

/- A declaration with an initial value, as it is told. -/
theorem execForm_declare
    (T : Teller)
    (name : String)
    (ty : Ty)
    (init : Expr) :
    T.execForm p (T.runner p n) n (some site)
        ⟨.declare name ty (some init), span⟩
      = (do
        T.say p (T.runner p n) n span
          (.statement (.declare name ty.text))
        let v ← initialized T p n site name ty init
        declareLocal name (v.convert ty)
        pure .normal) := by
  simp only [initialized, bind_assoc, pure_bind,
    Val.convert_convert]
  rfl

/- A declaration with an initial value. -/
theorem keeps_initialized
    (h : Spliced S X w p q n)
    (hk : Enough S (n + 1) k)
    {name : String}
    {init value : Expr}
    (hName : hidden name = false)
    (hInit : init.passes Test.source = true)
    (hPass : Instrument.expr X.options site init c
      = .ok (value, c'))
    (ty : Ty)
    (span : Span) :
    Keeps S (Bond.level (· = site.ret)) none (Flow.told none)
      (X.teller.execForm p (X.teller.runner p n) n (some site)
        ⟨.declare name ty (some init), span⟩)
      (runAll (ExecTrace.exec w q k)
        (declaring name ty
          (some (initializer name (fresh "init" c') ty init.span
            value)) span)) := by
  rw [execForm_declare]
  refine Keeps.ofMirrors fun s hs ho => ?_
  rw [runAll_eq_andThen]
  refine h.say (j := 5) hk.spare (by decide) rfl
    (tale_declare s name ty.text) span ?_
  rw [← exec_eq_andThen]
  refine Sim.execRight hk.spare fun k hk => ?_
  refine Mirrors.ofKeeps (R := (· = site.ret)) ?_ hs ho
  exact Keeps.after
    (h.agrees_initialized hk hInit hPass name ty)
    fun v _ => keeps_declaration _ hName

/- In a block a declaration with an initial value ends alike. -/
theorem boxes_initialized
    (h : Spliced S X w p q n)
    (hk : Spare S (n + 1) 1 k)
    {init value : Expr}
    (hInit : init.passes Test.source = true)
    (hPass : Instrument.expr X.options site init c
      = .ok (value, c'))
    (name : String)
    (ty : Ty)
    (span : Span) :
    Boxes S (Bond.level (· = site.ret))
      (X.teller.execForm p (X.teller.runner p n) n (some site)
        ⟨.declare name ty (some init), span⟩)
      (ExecTrace.exec w q k
        ⟨.block (declaring name ty
          (some (initializer name (fresh "init" c') ty init.span
            value)) span), span⟩) := by
  rw [execForm_declare]
  refine .declares
    (.bind _ fun _ => .bind _ fun _ => .declare name _ _)
    (Keeps.ofAgrees fun g s hs => ?_)
  refine Sim.execRight hk fun k hk => ?_
  change Sim _ _ _ _ _ (inScope (runAll (ExecTrace.exec w q k)
    (declaring name ty (some _) span)))
  refine agrees_scopedDeclaration (R := (· = site.ret))
    (z := runAll (ExecTrace.exec w q k)
      [statementAt (.declare name ty.text) span,
        ⟨.expr (initializer name (fresh "init" c') ty init.span
          value), span⟩])
    (.bind _ fun flow => ?_) (fun s hs => ?_) g s hs
  · cases flow with
    | normal =>
      simp only [runAll_one]
      cases k with
      | zero => exact .refl _
      | succ k => exact .bind _ fun _ => .declare name _ _
    | _ => exact .refl _
  · rw [runAll_eq_andThen]
    refine h.say (j := 5) (hk.enough (by decide)).spare
      (by decide) rfl (tale_declare s name ty.text) span ?_
    rw [← exec_eq_andThen]
    refine Sim.execRight (hk.enough (by decide)).spare
      fun k hk => ?_
    refine Mirrors.ended (P := fun _ => True)
      (R := (· = site.ret)) ?_ hs
    exact (h.agrees_initialized hk hInit hPass name ty).bind
      fun _ _ => Yields.pure trivial

------------------------------------------------------------
-- Statements
------------------------------------------------------------

/- What a declaration with an initial value becomes. -/
theorem declare_ok
    {o : Options}
    {name : String}
    {ty : Ty}
    {init : Expr}
    (hPass : Instrument.stmtForm o site span
      (.declare name ty (some init)) c = .ok (ss, c')) :
    ∃ value c₁, Instrument.expr o site init c = .ok (value, c₁) ∧
      declaring name ty
        (some (initializer name (fresh "init" c₁) ty init.span
          value)) span = ss := by
  simp only [Instrument.stmtForm, Instrument.bind_ok,
    Instrument.bindAs_ok, Instrument.operand_ok,
    Instrument.pure_ok] at hPass
  rcases hPass with ⟨value, c₁, hValue, _, _, ⟨rfl, rfl⟩, _, _,
    ⟨_, rfl, rfl⟩, rfl, rfl⟩
  exact ⟨value, c₁, hValue, rfl⟩

/- Every form but a declaration agrees with what it becomes. -/
theorem unfolds_stmt
    (h : Spliced S X w p q n)
    {form : StmtForm}
    (hForm : ∀ name ty init, form ≠ .declare name ty init)
    (hs : Stmt.passes Test.source ⟨form, span⟩ = true)
    (hPass : Instrument.stmtForm X.options site span form c
      = .ok (ss, c')) :
    Unfolds S X w p q n site ⟨form, span⟩ ss := by
  simp only [Stmt.passes, Bool.and_eq_true] at hs
  rcases hs with ⟨hSource, hs⟩
  cases form with
  | declare name ty init => exact absurd rfl (hForm name ty init)
  | expr e => exact h.unfolds_expr hs hPass
  | block stmts => exact h.unfolds_block hs hPass
  | cond cond onTrue onFalse =>
    simp only [StmtForm.passes, Bool.and_eq_true] at hs
    exact h.unfolds_cond hs.1.1 hs.1.2 hs.2 hPass
  | «while» label cond body =>
    simp only [StmtForm.passes, Bool.and_eq_true] at hs
    exact h.unfolds_while hs.1 hs.2 hPass
  | doWhile label body cond =>
    simp only [StmtForm.passes, Bool.and_eq_true] at hs
    exact h.unfolds_doWhile hs.2 hs.1 hPass
  | «for» label init cond update body =>
    simp only [StmtForm.passes, Bool.and_eq_true] at hs
    exact h.unfolds_for hs.1.1.1 hs.1.1.2 hs.1.2 hs.2 hPass
  | forEach label x ty iterable body =>
    have hx : hidden x = false := by
      simpa [Test.source, Test.sourceStmt] using hSource
    simp only [StmtForm.passes, Bool.and_eq_true] at hs
    exact h.unfolds_forEach hx hs.1 hs.2 hPass
  | switch selector arms =>
    simp only [StmtForm.passes, Bool.and_eq_true] at hs
    exact h.unfolds_switch hs.1 hs.2 hPass
  | «return» value =>
    cases value with
    | none => exact h.unfolds_returnNothing hPass
    | some value => exact h.unfolds_returnValue hs hPass
  | «break» label => exact h.unfolds_break hPass
  | «continue» label => exact h.unfolds_continue hPass
  | yield value => exact h.unfolds_yield hs hPass
  | throw exception => exact h.unfolds_throw hs hPass
  | «try» body handlers =>
    simp only [StmtForm.passes, Bool.and_eq_true] at hs
    exact h.unfolds_try hs.1 hs.2 hSource hPass
  | assert cond message =>
    simp only [StmtForm.passes, Bool.and_eq_true] at hs
    exact h.unfolds_assert hs.1 hs.2 hPass
  | superCall signature args => exact h.unfolds_superCall hs hPass
  | probe probe => cases hSource

/- Every statement keeps the link with what it becomes. -/
theorem keeps_stmt
    (h : Spliced S X w p q n)
    (hk : Enough S (n + 1) k)
    {form : StmtForm}
    (hs : Stmt.passes Test.source ⟨form, span⟩ = true)
    (hPass : Instrument.stmtForm X.options site span form c
      = .ok (ss, c')) :
    Keeps S (Bond.level (· = site.ret)) none (Flow.told none)
      (X.teller.execForm p (X.teller.runner p n) n (some site)
        ⟨form, span⟩)
      (runAll (ExecTrace.exec w q k) ss) := by
  by_cases hForm : ∀ name ty init, form ≠ .declare name ty init
  · exact Keeps.ofMirrors fun t ht _ =>
      h.unfolds_stmt hForm hs hPass k hk t ht
  · push Not at hForm
    rcases hForm with ⟨name, ty, init, rfl⟩
    simp only [Stmt.passes, Bool.and_eq_true] at hs
    have hName : hidden name = false := by
      simpa [Test.source, Test.sourceStmt] using hs.1
    cases init with
    | none =>
      simp only [Instrument.stmtForm, Instrument.pure_ok] at hPass
      rcases hPass with ⟨rfl, rfl⟩
      exact h.keeps_default hk hName ty span
    | some init =>
      rcases declare_ok hPass with ⟨value, c₁, hValue, rfl⟩
      exact h.keeps_initialized hk hName hs.2 hValue ty span

/- A statement ends alike where only one may stand. -/
theorem boxes_single
    (h : Spliced S X w p q n)
    (hk : Spare S (n + 1) 1 k)
    {form : StmtForm}
    {s' : Stmt}
    (hs : Stmt.passes Test.source ⟨form, span⟩ = true)
    (hPass : Instrument.single X.options site ⟨form, span⟩ c
      = .ok (s', c')) :
    Boxes S (Bond.level (· = site.ret))
      (X.teller.execForm p (X.teller.runner p n) n (some site)
        ⟨form, span⟩)
      (ExecTrace.exec w q k s') := by
  simp only [Instrument.single, Instrument.bind_ok,
    Instrument.pure_ok] at hPass
  rcases hPass with ⟨ss, c₁, hPass, rfl, rfl⟩
  by_cases hForm : ∀ name ty init, form ≠ .declare name ty init
  · have hUnfolds := h.unfolds_stmt hForm hs hPass
    have hKeeps : ∀ s', ss = [s'] →
        Keeps S (Bond.level (· = site.ret)) none (Flow.told none)
          (X.teller.execForm p (X.teller.runner p n) n (some site)
            ⟨form, span⟩)
          (ExecTrace.exec w q k s') := by
      intro s' hOne
      have hAll := h.keeps_stmt (hk.enough (by decide)) hs hPass
      rw [hOne, runAll_one] at hAll
      exact hAll
    unfold Instrument.asOne
    split
    · exact .keeps (hKeeps _ rfl)
    · refine .keeps (Keeps.ofAgrees fun g s hs => ?_)
      refine Sim.execRight hk fun k hk => ?_
      exact agrees_inScopeRight (R := (· = site.ret))
        (fun t ht => hUnfolds k (hk.enough (by decide)) t ht)
        g s hs
  · push Not at hForm
    rcases hForm with ⟨name, ty, init, rfl⟩
    simp only [Stmt.passes, Bool.and_eq_true] at hs
    cases init with
    | none =>
      simp only [Instrument.stmtForm, Instrument.pure_ok] at hPass
      rcases hPass with ⟨rfl, rfl⟩
      exact h.boxes_default hk name ty span
    | some init =>
      rcases declare_ok hPass with ⟨value, c₁, hValue, rfl⟩
      exact h.boxes_initialized hk hs.2 hValue name ty span

end Spliced

end ExecTrace
