import ExecTrace.Proofs.Retelling

/-
  One program, told by two tellers: statements. Only the return
  statement tells the end of a method, and a super call ends
  normally whenever it ends.

  Main declarations:
    * `Retold.keeps_execForm`
    * `Retold.yields_superCall`
-/

namespace ExecTrace

open Run
open Instrument (Site)

namespace Teller

namespace Retold

variable {S : Slack}
variable {B : Bond}
variable {move : String → String → B.Ghost → B.Ghost}
variable {M : Pairing}
variable {p q : Program}
variable {T U : Teller}
variable {r r' : SiteRunner}
variable {n k : Nat}
variable {told : Bool}
variable {t : Test}
variable {site : Option Site}

------------------------------------------------------------
-- Parts
------------------------------------------------------------

/- A visible variable has one value in linked machines. -/
theorem valueOf_eq
    {J : Joint}
    {s : Shape}
    {m m' : Machine}
    (x : String)
    (hx : hidden x = false)
    (hm : Linked J s m m') :
    valueOf x m' = valueOf x m := by
  have hSame : m'.locals.get? x = m.locals.get? x :=
    hm.locals.scopes.get_visible hx
  simp only [valueOf, hSame]

/- The start and the end of a loop are told on both sides. -/
theorem toldLoop
    (h : Retold S B move M p q T U r r' n k told t)
    (kind : LoopKind)
    (span : Span)
    {e : Option String}
    {x y : Run Flow}
    (hxy : Steers S B none (Flow.told e) x y) :
    Steers S B none (Flow.told e) (T.toldLoop p r n kind span x)
      (U.toldLoop q r' k kind span y) := by
  refine Steers.after (h.say span ⟨rfl, rfl⟩) fun _ _ => ?_
  refine hxy.bind fun flow => ?_
  cases flow with
  | normal =>
    exact Steers.after (h.say span.ending ⟨rfl, rfl⟩)
      fun _ _ => Steers.pure rfl
  | _ => exact Steers.pure rfl

/- A site inside a construct belongs to the same method. -/
theorem method_map
    (site : Option Site)
    (f : Site → Site)
    (hf : ∀ s, (f s).method = s.method) :
    (site.map f).map Site.method = site.map Site.method := by
  cases site with
  | none => rfl
  | some s => exact congrArg some (hf s)

/- A statement inside a construct of a method. -/
theorem inside
    (h : Retold S B move M p q T U r r' n k told t)
    (hSite : site.isSome = told)
    (f : Site → Site)
    (hf : ∀ s, (f s).method = s.method)
    {s : Stmt}
    (hs : s.passes t = true) :
    Keeps S B none (Flow.told (site.map Site.method))
      (r.exec (site.map f) s) (r'.exec (site.map f) s) := by
  rw [← method_map site f hf]
  exact h.exec _ (by simpa using hSite) s hs

/- The arms of a switch inside a construct of a method. -/
theorem armsInside
    (h : Retold S B move M p q T U r r' n k told t)
    (hSite : site.isSome = told)
    (f : Site → Site)
    (hf : ∀ s, (f s).method = s.method)
    {as : List Arm}
    (has : passArms t as = true) :
    List.Forall₂
      (ArmsKeep S B (site.map Site.method)
        (runAll (r.exec (site.map f)))
        (runAll (r'.exec (site.map f)))) as as := by
  rw [← method_map site f hf]
  exact h.arms (by simpa using hSite) has

/- Expressions are evaluated for their effects on both sides. -/
theorem performAll
    (h : Retold S B move M p q T U r r' n k told t)
    (hSite : site.isSome = told)
    {es : List Expr}
    (hes : passExprs t es = true) :
    Agrees S B (ExecTrace.performAll (r.eval site) es)
      (ExecTrace.performAll (r'.eval site) es) :=
  (h.exprs hSite hes).bind fun _ _ => Yields.pure trivial

/- The handlers of a statement keep the link. -/
theorem catches
    (h : Retold S B move M p q T U r r' n k told t)
    (hSite : site.isSome = told)
    {cs : List Catch}
    (hcs : passCatches t cs = true)
    (hVisible : cs.all (fun c => !hidden c.param) = true) :
    List.Forall₂
      (CatchesKeep S B (site.map Site.method)
        (fun c => do
          T.tell p r.invoke n c.span fun m =>
            .statement (.caught (shown c.ty (valueOf c.param m)))
          runAll (r.exec site) c.body)
        (fun c => do
          U.tell q r'.invoke k c.span fun m =>
            .statement (.caught (shown c.ty (valueOf c.param m)))
          runAll (r'.exec site) c.body)) cs cs := by
  induction cs with
  | nil => exact .nil
  | cons c rest ih =>
    rcases c with ⟨param, ty, body, span⟩
    simp only [passCatches, Bool.and_eq_true] at hcs
    simp only [List.all_cons, Bool.and_eq_true,
      Bool.not_eq_true'] at hVisible
    refine .cons ⟨rfl, fun v => ?_⟩
      (ih hcs.2 (by simpa using hVisible.2))
    refine (keeps_declareLocal param v hVisible.1).bind
      fun _ => ?_
    refine Keeps.after (P := fun _ => True)
      (h.tell span _ _ (fun _ => ⟨rfl, rfl⟩) ?_)
      fun _ _ => h.stmts hSite hcs.1
    intro g s _ m m' hm
    rw [valueOf_eq param hVisible.1 hm]
    exact .rfl

------------------------------------------------------------
-- Loops
------------------------------------------------------------

/- A loop that tests its condition first. -/
theorem whileLoop
    (h : Retold S B move M p q T U r r' n k told t)
    (hSite : site.isSome = told)
    {label : Option String}
    {cond : Expr}
    {body : Stmt}
    {span : Span}
    (hc : cond.passes t = true)
    (hb : body.passes t = true) :
    Steers S B none (Flow.told (site.map Site.method))
      (T.execForm p r n site ⟨.while label cond body, span⟩)
      (U.execForm q r' k site ⟨.while label cond body, span⟩) := by
  have hInner : (site.map
      (·.inLoop .while label span)).isSome = told := by
    simpa using hSite
  refine h.toldLoop .while span (steers_iterate h.paced ?_ 0)
  intro i
  refine steers_roundWhile
    (h.judge hInner hc _ fun _ => ⟨rfl, rfl⟩) ?_
  exact steers_loopRound
    (h.inside hSite (·.inLoop .while label span)
      (fun _ => rfl) hb).inScope label

/- A loop that tests its condition last. -/
theorem doWhileLoop
    (h : Retold S B move M p q T U r r' n k told t)
    (hSite : site.isSome = told)
    {label : Option String}
    {cond : Expr}
    {body : Stmt}
    {span : Span}
    (hc : cond.passes t = true)
    (hb : body.passes t = true) :
    Steers S B none (Flow.told (site.map Site.method))
      (T.execForm p r n site ⟨.doWhile label body cond, span⟩)
      (U.execForm q r' k site
        ⟨.doWhile label body cond, span⟩) := by
  have hInner : (site.map
      (·.inLoop .doWhile label span)).isSome = told := by
    simpa using hSite
  refine h.toldLoop .doWhile span (steers_iterate h.paced ?_ 0)
  intro i
  refine steers_roundUntil ?_
    (h.judge hInner hc _ fun _ => ⟨rfl, rfl⟩)
  exact steers_loopRound
    (h.inside hSite (·.inLoop .doWhile label span)
      (fun _ => rfl) hb).inScope label

/- A loop with statements in front and updates behind. -/
theorem forLoop
    (h : Retold S B move M p q T U r r' n k told t)
    (hSite : site.isSome = told)
    {label : Option String}
    {init : List Stmt}
    {cond : Option Expr}
    {update : List Expr}
    {body : Stmt}
    {span : Span}
    (hi : passStmts t init = true)
    (hc : passOption t cond = true)
    (hu : passExprs t update = true)
    (hb : body.passes t = true) :
    Steers S B none (Flow.told (site.map Site.method))
      (T.execForm p r n site
        ⟨.for label init cond update body, span⟩)
      (U.execForm q r' k site
        ⟨.for label init cond update body, span⟩) := by
  have hInner : (site.map
      (·.inLoop .for label span)).isSome = told := by
    simpa using hSite
  refine h.toldLoop .for span ?_
  refine steers_initialized (h.stmts hSite hi) ?_
  refine steers_iterate h.paced (fun i => ?_) 0
  refine steers_roundWhile (agrees_goesOn ?_) ?_
  · cases cond with
    | none => exact .none
    | some c => exact .some (h.judge hInner hc _
        fun _ => ⟨rfl, rfl⟩)
  · refine steers_roundUntil ?_ (h.performAll hInner hu)
    exact steers_loopRound
      (h.inside hSite (·.inLoop .for label span)
        (fun _ => rfl) hb).inScope label

/- A loop over the items of an array. -/
theorem forEachLoop
    (h : Retold S B move M p q T U r r' n k told t)
    (hSite : site.isSome = told)
    {label : Option String}
    {x : String}
    {ty : Ty}
    {iterable : Expr}
    {body : Stmt}
    {span : Span}
    (hx : hidden x = false)
    (hi : iterable.passes t = true)
    (hb : body.passes t = true) :
    Steers S B none (Flow.told (site.map Site.method))
      (T.execForm p r n site
        ⟨.forEach label x ty iterable body, span⟩)
      (U.execForm q r' k site
        ⟨.forEach label x ty iterable body, span⟩) := by
  refine h.toldLoop .forEach span ?_
  refine Steers.after (h.eval site hSite iterable hi)
    fun v _ => ?_
  refine Steers.after (agrees_iterated h.paired v)
    fun address _ => ?_
  refine steers_iterate h.paced (fun i => ?_) 0
  refine steers_roundOver address x ty (fun v => ?_) i
  refine (keeps_declareLocal x v hx).bind fun _ => ?_
  refine Keeps.ofSteers (steers_loopRound ?_ label)
  refine Keeps.inScope ?_
  refine Keeps.after (P := fun _ => True)
    (h.tell span _ _ (fun _ => ⟨rfl, rfl⟩) ?_)
    fun _ _ => h.inside hSite (·.inLoop .forEach label span)
      (fun _ => rfl) hb
  intro g s _ m m' hm
  rw [valueOf_eq x hx hm]
  exact .rfl

------------------------------------------------------------
-- Jumps
------------------------------------------------------------

/- A return is told on both sides. -/
theorem returning
    (h : Retold S B move M p q T U r r' n k told t)
    (hSite : site.isSome = told)
    (span : Span)
    (how : Exit Shown)
    (v : Val) :
    Steers S B none (Flow.told (site.map Site.method))
      (do
        T.say p r n span (.statement (.return (methodName site)))
        T.leave p r n span (methodName site) how
        pure (.return v))
      (do
        U.say q r' k span (.statement (.return (methodName site)))
        U.leave q r' k span (methodName site) how
        pure (.return v)) := by
  refine Steers.after (h.say span ⟨rfl, rfl⟩) fun _ _ g s _ => ?_
  have hLeave := (h.tellLeave site hSite span how g s).weaken
    (fun _ _ hm => hm) (fun _ _ _ _ hm => hm)
    (fun _ _ _ hm => B.cut_hard (g := g)
      (L := fun J => Linked J s) hm)
  refine hLeave.bind fun _ _ => ?_
  exact Sim.pure fun _ _ hm => ⟨rfl, hm⟩

/- A return with a value is told on both sides. -/
theorem returnValue
    (h : Retold S B move M p q T U r r' n k told t)
    (hSite : site.isSome = told)
    {value : Expr}
    {span : Span}
    (hv : value.passes t = true) :
    Steers S B none (Flow.told (site.map Site.method))
      (T.execForm p r n site ⟨.return (some value), span⟩)
      (U.execForm q r' k site ⟨.return (some value), span⟩) := by
  refine Steers.after (h.eval site hSite value hv) fun v _ => ?_
  refine Steers.look fun _ _ m m' hm => ?_
  have hRet : m'.locals.ret = m.locals.ret := by
    rw [hm.locals.retLeft, hm.locals.retRight]
  rw [hRet]
  exact h.returning hSite span _ _

/- A failed assertion throws one error on both sides. -/
theorem failing
    (h : Retold S B move M p q T U r r' n k told t)
    (hSite : site.isSome = told)
    {message : Option Expr}
    (hm : passOption t message = true) :
    Yields S B (fun _ : Flow => False)
      (do
        let text ←
          match message with
          | none => pure none
          | some message => do
            let v ← r.eval site message
            let text ← Call.textOf p r.invoke "concat" v
            pure (some text)
        throw (.throw
          (← Run.exception p "AssertionError" text)))
      (do
        let text ←
          match message with
          | none => pure none
          | some message => do
            let v ← r'.eval site message
            let text ← Call.textOf q r'.invoke "concat" v
            pure (some text)
        throw (.throw
          (← Run.exception q "AssertionError" text))) := by
  have hThrow : ∀ text, Yields S B (fun _ : Flow => False)
      (do throw (.throw
        (← Run.exception p "AssertionError" text)))
      (do throw (.throw
        (← Run.exception q "AssertionError" text))) :=
    fun text =>
      (yields_exception h.paired "AssertionError" text).bind
        fun e he => Yields.throw e he
  cases message with
  | none => exact hThrow none
  | some message =>
    refine (h.eval site hSite message hm).bind fun v _ => ?_
    exact (agrees_textOf h.paired h.invokers "concat" v).bind
      fun text _ => hThrow (some text)

/- A super call ends normally on both sides. -/
theorem yields_superCall
    (h : Retold S B move M p q T U r r' n k told t)
    (hSite : site.isSome = told)
    {signature : String}
    {args : List Expr}
    {span : Span}
    (has : passExprs t args = true) :
    Yields S B (fun flow => flow = .normal)
      (T.execForm p r n site ⟨.superCall signature args, span⟩)
      (U.execForm q r' k site
        ⟨.superCall signature args, span⟩) := by
  refine (agrees_currentSelf .superOutside .superOutside).bind
    fun self _ => ?_
  refine (h.exprs hSite has).bind fun vs _ => ?_
  refine Yields.look fun _ _ m m' hm => ?_
  rw [hm.locals.cls]
  refine (agrees_superCall h.paired h.invokers _ self vs).bind
    fun _ _ => ?_
  exact Yields.pure rfl

------------------------------------------------------------
-- Statements
------------------------------------------------------------

/- A result of which nothing was told. -/
theorem plain
    {e : Option String}
    {P : Flow → Prop}
    {x y : Run Flow}
    (h : Yields S B P x y)
    (hP : ∀ flow, P flow → Flow.told e flow = none) :
    Keeps S B none (Flow.told e) x y :=
  Keeps.ofSteers (Steers.ofYields h hP)

/- Every form of statements keeps the link. -/
theorem keeps_execForm
    (h : Retold S B move M p q T U r r' n k told t)
    (hSite : site.isSome = told)
    {s : Stmt}
    (hs : s.passes t = true) :
    Keeps S B none (Flow.told (site.map Site.method))
      (T.execForm p r n site s) (U.execForm q r' k site s) := by
  rcases s with ⟨form, span⟩
  simp only [Stmt.passes, Bool.and_eq_true] at hs
  rcases hs with ⟨hTest, hs⟩
  have hSource := h.sourceStmt _ hTest
  have hDone : Keeps S B none (Flow.told (site.map Site.method))
      (pure .normal) (pure .normal) := Keeps.pure rfl
  cases form with
  | declare name ty init =>
    have hName : hidden name = false := by
      simpa [Test.sourceStmt] using hSource
    cases init with
    | none =>
      refine Keeps.after (h.say span ⟨rfl, rfl⟩) fun _ _ => ?_
      exact (keeps_declareLocal name _ hName).bind
        fun _ => hDone
    | some init =>
      refine Keeps.after (h.say span ⟨rfl, rfl⟩) fun _ _ => ?_
      refine Keeps.after (h.eval site hSite init hs)
        fun v _ => ?_
      refine Keeps.after (h.say init.span ⟨rfl, rfl⟩)
        fun _ _ => ?_
      exact (keeps_declareLocal name _ hName).bind
        fun _ => hDone
  | expr e =>
    refine Keeps.after (h.say span ⟨rfl, rfl⟩) fun _ _ => ?_
    exact Keeps.after (h.eval site hSite e hs) fun _ _ => hDone
  | block stmts =>
    exact Keeps.ofSteers (h.stmts hSite hs).inScope
  | cond cond onTrue onFalse =>
    simp only [StmtForm.passes, Bool.and_eq_true] at hs
    refine Keeps.after
      (h.judge hSite hs.1.1 _ fun _ => ⟨rfl, rfl⟩) fun b _ => ?_
    cases b with
    | true =>
      exact Keeps.ofSteers (h.exec site hSite _ hs.1.2).inScope
    | false =>
      cases onFalse with
      | none => exact hDone
      | some onFalse =>
        exact Keeps.ofSteers (h.exec site hSite _ hs.2).inScope
  | «while» label cond body =>
    simp only [StmtForm.passes, Bool.and_eq_true] at hs
    exact Keeps.ofSteers (h.whileLoop hSite hs.1 hs.2)
  | doWhile label body cond =>
    simp only [StmtForm.passes, Bool.and_eq_true] at hs
    exact Keeps.ofSteers (h.doWhileLoop hSite hs.2 hs.1)
  | «for» label init cond update body =>
    simp only [StmtForm.passes, Bool.and_eq_true] at hs
    exact Keeps.ofSteers
      (h.forLoop hSite hs.1.1.1 hs.1.1.2 hs.1.2 hs.2)
  | forEach label name ty iterable body =>
    have hName : hidden name = false := by
      simpa [Test.sourceStmt] using hSource
    simp only [StmtForm.passes, Bool.and_eq_true] at hs
    exact Keeps.ofSteers (h.forEachLoop hSite hName hs.1 hs.2)
  | switch selector arms =>
    simp only [StmtForm.passes, Bool.and_eq_true] at hs
    refine Keeps.after (h.held hSite hs.1) fun v _ => ?_
    refine Keeps.after (h.say span ⟨rfl, rfl⟩) fun _ _ => ?_
    exact Keeps.ofSteers (steers_switchOn h.paired v
      (h.armsInside hSite (·.inside ⟨.switch, none, span⟩)
        (fun _ => rfl) hs.2))
  | «return» value =>
    cases value with
    | none => exact Keeps.ofSteers (h.returning hSite span _ _)
    | some value =>
      exact Keeps.ofSteers (h.returnValue hSite hs)
  | «break» label =>
    exact Keeps.after (h.say span ⟨rfl, rfl⟩) fun _ _ =>
      Keeps.pure rfl
  | «continue» label =>
    exact Keeps.after (h.say span ⟨rfl, rfl⟩) fun _ _ =>
      Keeps.pure rfl
  | yield value =>
    refine Keeps.after (h.held hSite hs) fun v _ => ?_
    exact Keeps.after (h.say span ⟨rfl, rfl⟩) fun _ _ =>
      Keeps.pure rfl
  | throw exception =>
    refine Keeps.after (h.held hSite hs) fun v _ => ?_
    refine Keeps.after (h.say span ⟨rfl, rfl⟩) fun _ _ => ?_
    exact plain (yields_throwValue h.paired v)
      fun _ hFalse => hFalse.elim
  | «try» body catches =>
    simp only [StmtForm.passes, Bool.and_eq_true] at hs
    refine Keeps.ofSteers (steers_catching
      (h.stmts hSite hs.1).inScope fun v hv => ?_)
    exact steers_runHandler h.paired
      (h.catches hSite hs.2 hSource) v hv
  | assert cond message =>
    simp only [StmtForm.passes, Bool.and_eq_true] at hs
    refine Keeps.after (h.held hSite hs.1) fun v _ => ?_
    refine Keeps.after (h.say span ⟨rfl, rfl⟩) fun _ _ => ?_
    refine Keeps.after (agrees_truthOf cond cond v) fun b _ => ?_
    cases b with
    | true => exact hDone
    | false =>
      exact plain (h.failing hSite hs.2)
        fun _ hFalse => hFalse.elim
  | superCall signature args =>
    exact plain (h.yields_superCall hSite hs)
      fun flow hFlow => by rw [hFlow]; rfl
  | probe probe => cases hSource

end Retold

end Teller

end ExecTrace
