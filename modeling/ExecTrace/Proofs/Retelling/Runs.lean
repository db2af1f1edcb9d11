import ExecTrace.Proofs.Retelling.Statements
import ExecTrace.Proofs.Unspoken

/-
  One program, told by two tellers: bodies and whole runs. If
  the tellers tell every single action so that the machines stay
  linked, then the runs of the program agree. The state of the
  frames and the recorder moves when a call, the start of a
  method or its end is told, and nothing else moves it.

  Main declarations:
    * `Retellers`
    * `Retellers.agrees_perform`
    * `Retellers.reruns`
-/

namespace ExecTrace

open Run
open Instrument (Site)

namespace Teller

/- Each method of a program belongs together with itself. -/
def same (t : Test) : Pairing where
  rel := fun _ m m' => m' = m ∧ m.passes t = true
  header := fun _ m m' h => by
    rw [h.1]
    exact ⟨rfl, rfl, rfl, rfl⟩

/- A program that passes a test is paired with itself. -/
theorem paired_same
    {t : Test}
    {p : Program}
    (h : p.passes t = true) : Paired (same t) p p := by
  simp only [Program.passes, List.all_eq_true] at h
  have hTwin : ∀ c ∈ p.classes, Twin (same t) c c := by
    intro c hc
    refine ⟨rfl, rfl, rfl, ?_⟩
    exact List.forall₂_same.mpr fun m hm => ⟨rfl, h c hc m hm⟩
  exact List.forall₂_same.mpr hTwin

/-
  What two tellers need for telling one program: what is asked
  of them for every single action, for all ways to run methods
  that agree. `move` says where the telling of a call leads, and
  `into` where the telling of the start of a method leads.
-/
structure Retellers
    (S : Slack)
    (B : Bond)
    (move : String → String → B.Ghost → B.Ghost)
    (into : Callee → B.Ghost → B.Ghost)
    (p : Program)
    (T U : Teller)
    (t : Test) : Prop where
  ahead : ¬ Even T U →
    ∀ n i i', Invokers S B (same t) i i' → Ahead S B p T U i n
  leavesOut : U.leavesOut = T.leavesOut
  rets : ∀ ty, B.rets ty
  passes : p.passes t = true
  sourceExpr : ∀ e, t.expr e = true → Test.sourceExpr e = true
  sourceStmt : ∀ s, t.stmt s = true → Test.sourceStmt s = true
  compounds :
    T.spliced = U.spliced ∨
      (T.spliced = false ∧ ∀ e, t.expr e = true →
        Test.plainCompound e = true ∨
          S.lapses = true ∧ Test.typedCompound e = true)
  lostCalled : ∀ cls method g a b,
    B.lost (move cls method g) a b → B.lost g a b
  lostInto : ∀ callee g a b,
    B.lost (into callee g) a b → B.lost g a b
  endedInto : ∀ callee g a b,
    B.ended callee.method (into callee g) a b → B.done g a b
  stuck : ∀ m callee g since k k', m.ret ≠ .void →
    World (B.holds (into callee g)) since k k' →
    (∃ why, T.observer (.ended m) k = some why ∧
      S.stops why = true) ∨
    B.done g (k.frames, k.recorder) (k'.frames, k'.recorder)
  tell : ∀ n k i i', Paced S n k → Invokers S B (same t) i i' →
    ∀ span act act', (∀ m, (act m).Inner) →
    (∀ g s, B.rets s.ret → ∀ m m',
      Linked (B.holds g) s m m' → Told T U (act m) (act' m')) →
    Agrees S B (T.tell p i n span act) (U.tell p i' k span act')
  tellCall : ∀ n k i i', Paced S n k →
    Invokers S B (same t) i i' →
    ∀ span callee receiver args g s,
    Sim S (Linked (B.holds g) s)
      (fun _ _ m m' => Linked
        (B.holds (move callee.cls callee.method g)) s m m')
      hard
      (T.tell p i n span fun _ => .call callee receiver args)
      (U.tell p i' k span fun _ => .call callee receiver args)
  tellResume : ∀ n k i i', Paced S n k →
    Invokers S B (same t) i i' →
    ∀ span cls method how how' g s,
    (T.spliced = U.spliced → how' = how) →
    Sim S (Linked (B.holds (move cls method g)) s)
      (fun _ _ m m' => Linked (B.holds g) s m m') hard
      (T.tell p i n span fun _ => .resume () cls method how)
      (U.tell p i' k span fun _ => .resume () cls method how')
  tellLeave : ∀ n k r r', Paced S n k →
    Invokers S B (same t) r.invoke r'.invoke →
    ∀ span method how g s,
    Sim S (Linked (B.holds g) s)
      (fun _ _ m m' => Linked (B.ended method g) s m m') hard
      (T.leave p r n span method how)
      (U.leave p r' k span method how)
  entering : ∀ n k r r', Paced S n k →
    Invokers S B (same t) r.invoke r'.invoke →
    ∀ (c : ClassDef) (d : MethodDef) (g : B.Ghost) s,
    Sim S
      (Linked (B.holds (B.push ⟨c.name, d.name, false⟩ g)) s)
      (fun _ _ m m' => Linked
        (B.holds (into ⟨c.name, d.name, d.signature⟩
          (B.push ⟨c.name, d.name, false⟩ g))) s m m')
      hard (T.entering p r n c d) (U.entering p r' k c d)
  loaded : ∀ e v, Agrees S B (watch T.observer (.loaded e v))
    (watch U.observer (.loaded e v))
  lookBack : ∀ e v, Yields S B (fun _ => Kept T U e.ty v)
    (T.lookBack e v) (U.lookBack e v)
  look : ∀ e v, Agrees S B (T.look e v) (U.look e v)
  value : ∀ e a b, Result T U e.ty a b →
    Yields S B (fun _ => a = b ∧ Held T U e.ty a)
      (watch T.observer (.value e a))
      (watch U.observer (.value e b))
  ended : ∀ m J,
    Watches S J T.observer U.observer (.ended m) (.ended m)

/- What two runs of one program with some fuel have in common. -/
structure Reruns
    (S : Slack)
    (B : Bond)
    (p : Program)
    (T U : Teller)
    (t : Test)
    (n k : Nat) : Prop where
  paced : Paced S n k
  eval : ∀ (site : Option Site) (e : Expr), e.passes t = true →
    Yields S B (Held (T.on site) (U.on site) e.ty)
      (T.eval p n site e) (U.eval p k site e)
  exec : ∀ (site : Option Site) (s : Stmt), s.passes t = true →
    Keeps S B none (Flow.told (site.map Site.method))
      (T.exec p n site s) (U.exec p k site s)
  superCall : ∀ (site : Option Site) signature args span,
    passExprs t args = true →
    Yields S B (fun flow => flow = .normal)
      (T.exec p n site ⟨.superCall signature args, span⟩)
      (U.exec p k site ⟨.superCall signature args, span⟩)
  invoke : Invokers S B (same t) (T.invoke p n) (U.invoke p k)

/- A way to run a program with some fuel. -/
def runner
    (T : Teller)
    (p : Program)
    (n : Nat) : SiteRunner :=
  ⟨T.eval p n, T.exec p n, T.invoke p n⟩

section Runs

variable {S : Slack}
variable {B : Bond}
variable {move : String → String → B.Ghost → B.Ghost}
variable {into : Callee → B.Ghost → B.Ghost}
variable {p : Program}
variable {T U : Teller}
variable {t : Test}
variable {n j : Nat}

------------------------------------------------------------
-- Forms
------------------------------------------------------------

/- Tellers tell the forms at a site alike. -/
theorem Retellers.retold
    (h : Retellers S B move into p T U t)
    (ih : Reruns S B p T U t n j) :
    Retold S B move (same t) p p T U (T.runner p n)
      (U.runner p j) n j true t where
  ahead := fun hOdd => h.ahead hOdd n _ _ ih.invoke
  paired := paired_same h.passes
  invokers := ih.invoke
  paced := ih.paced
  sourceExpr := h.sourceExpr
  sourceStmt := h.sourceStmt
  compounds := h.compounds
  lostCalled := h.lostCalled
  tell := h.tell n j _ _ ih.paced ih.invoke
  tellCall := h.tellCall n j _ _ ih.paced ih.invoke
  tellResume := h.tellResume n j _ _ ih.paced ih.invoke
  tellLeave := fun site hSite span how g s => by
    rcases Option.isSome_iff_exists.mp hSite with ⟨s', rfl⟩
    exact h.tellLeave n j _ _ ih.paced ih.invoke span _ how g s
  lookBack := h.lookBack
  look := h.look
  eval := fun site hSite e he => by
    rcases Option.isSome_iff_exists.mp hSite with ⟨s', rfl⟩
    exact ih.eval (some s') e he
  exec := fun site _ => ih.exec site

/- Muted tellers tell the forms without a site alike. -/
theorem Retellers.unspoken
    (h : Retellers S B move into p T U t)
    (ih : Reruns S B p T U t n j) :
    Retold S B (fun _ _ g => g) (same t) p p T.muted U.muted
      (T.runner p n) (U.runner p j) n j false t where
  ahead := fun hOdd =>
    have hAhead := h.ahead hOdd n _ _ ih.invoke
    { reads := hAhead.reads
      operators := hAhead.operators
      tell := fun _ _ _ => Yields.pure trivial
      look := fun _ _ => Yields.pure rfl }
  paired := paired_same h.passes
  invokers := ih.invoke
  paced := ih.paced
  sourceExpr := h.sourceExpr
  sourceStmt := h.sourceStmt
  compounds := .inl rfl
  lostCalled := fun _ _ _ _ _ hLost => hLost
  tell := fun _ _ _ _ _ => Yields.pure trivial
  tellCall := fun _ _ _ _ _ _ => Sim.pure fun _ _ hm => hm
  tellResume := fun _ _ _ _ _ _ _ _ =>
    Sim.pure fun _ _ hm => hm
  tellLeave := fun site hSite _ _ _ _ => by
    rw [Option.isSome_eq_false_iff, Option.isNone_iff_eq_none]
      at hSite
    rw [hSite]
    exact Sim.pure fun _ _ hm => hm
  lookBack := fun e v =>
    (h.loaded e v).bind fun _ _ => Yields.pure rfl
  look := fun _ _ => Yields.pure trivial
  eval := fun site hSite e he => by
    rw [Option.isSome_eq_false_iff, Option.isNone_iff_eq_none]
      at hSite
    rw [hSite]
    exact ih.eval none e he
  exec := fun site _ => ih.exec site

/- The forms of expressions and statements at any site. -/
theorem Retellers.forms
    (h : Retellers S B move into p T U t)
    (ih : Reruns S B p T U t n j)
    (site : Option Site) :
    (∀ e : Expr, e.passes t = true →
      Retold.Results S B (T.on site) (U.on site) e.ty
        ((T.on site).evalForm p (T.runner p n) n site e)
        ((U.on site).evalForm p (U.runner p j) j site e)) ∧
    (∀ s : Stmt, s.passes t = true →
      Keeps S B none (Flow.told (site.map Site.method))
        ((T.on site).execForm p (T.runner p n) n site s)
        ((U.on site).execForm p (U.runner p j) j site s)) ∧
    (∀ signature args span, passExprs t args = true →
      Yields S B (fun flow => flow = .normal)
        ((T.on site).execForm p (T.runner p n) n site
          ⟨.superCall signature args, span⟩)
        ((U.on site).execForm p (U.runner p j) j site
          ⟨.superCall signature args, span⟩)) := by
  cases site with
  | none =>
    exact ⟨fun _ he => (h.unspoken ih).sim_evalForm rfl he,
      fun _ hs => (h.unspoken ih).keeps_execForm rfl hs,
      fun _ _ _ has => (h.unspoken ih).yields_superCall rfl has⟩
  | some s =>
    exact ⟨fun _ he => (h.retold ih).sim_evalForm rfl he,
      fun _ hs => (h.retold ih).keeps_execForm rfl hs,
      fun _ _ _ has => (h.retold ih).yields_superCall rfl has⟩

------------------------------------------------------------
-- Bodies
------------------------------------------------------------

/- A step that nobody interrupts, on loosely linked machines. -/
theorem loose_step
    {α : Type}
    {J K : Joint}
    {x y : Run α}
    (h : ∀ s, Sim S (Linked J s)
      (fun _ _ m m' => Linked K s m m') hard x y)
    (s : Shape) :
    Sim S (Loose J s) (fun _ _ m m' => Loose K s m m') hard
      x y := by
  refine Sim.ofExists fun top => ?_
  exact (h { s with top := top }).weaken (fun _ _ hm => hm)
    (fun _ _ _ _ hm => ⟨top, hm⟩) (fun _ _ _ hm => hm)

/- What is known in front of the end of a told body. -/
def restPost
    (B : Bond)
    (m : MethodDef)
    (g : B.Ghost) : Flow → Joint
  | .normal =>
    if m.ret = .void then B.ended m.name g else B.holds g
  | .return _ => B.ended m.name g
  | _ => B.holds g

/- The rest of a body is told on both sides. -/
theorem Retellers.restOfBody
    (h : Retellers S B move into p T U t)
    (ih : Reruns S B p T U t n j)
    (m : MethodDef)
    {site : Site}
    (hSite : site.method = m.name)
    {body : List Stmt}
    (hBody : passStmts t body = true)
    (g : B.Ghost)
    (s : Shape)
    (hs : s.outer = []) :
    Sim S (Loose (B.holds g) s)
      (fun a b k k' => a = b ∧ Loose (restPost B m g a) s k k')
      (B.cut g fun J => Loose J s)
      (T.restOfBody p (T.runner p n) n (some site) m body)
      (U.restOfBody p (U.runner p j) j (some site) m body) := by
  have hStmts := (h.retold ih).stmts
    (show (some site).isSome = true from rfl) hBody g s
    (h.rets s.ret) hs
  refine hStmts.bind ?_
  intro a b k k' ⟨hab, hm⟩
  subst hab
  cases a with
  | normal =>
    simp only
    by_cases hVoid : m.ret = .void
    · have hLeave := loose_step (fun s =>
        h.tellLeave n j (T.runner p n) (U.runner p j) ih.paced
          ih.invoke m.span.ending m.name .endOfBody g s) s
      simp only [hVoid, if_true]
      refine ((hLeave.weaken (fun _ _ hm => hm)
        (fun _ _ _ _ hm => hm)
        (fun _ _ _ hm => B.cut_hard hm)).bind fun _ _ => ?_)
        k k' hm
      refine Sim.pure fun _ _ hm => ⟨rfl, ?_⟩
      simp only [restPost, hVoid, if_true]
      exact hm
    · simp only [hVoid, if_false]
      refine .ok ⟨rfl, ?_⟩
      simp only [restPost, hVoid, if_false]
      exact hm
  | «return» v =>
    refine .ok ⟨rfl, ?_⟩
    have hEnd : Loose (B.after g (some site.method)) s k k' := hm
    rw [hSite] at hEnd
    exact hEnd
  | _ => exact .ok ⟨rfl, hm⟩

/- The guarded rest of a body is told on both sides. -/
theorem Retellers.guarded
    (h : Retellers S B move into p T U t)
    (ih : Reruns S B p T U t n j)
    (c : ClassDef)
    (m : MethodDef)
    {site : Site}
    (hSite : site.method = m.name)
    {body : List Stmt}
    (hBody : passStmts t body = true)
    (g : B.Ghost)
    (s : Shape)
    (hs : s.outer = []) :
    Sim S
      (Loose (B.holds (into ⟨c.name, m.name, m.signature⟩ g)) s)
      (fun a b k k' => a = b ∧ Loose
        (restPost B m (into ⟨c.name, m.name, m.signature⟩ g) a)
        s k k')
      (B.bodyCut g fun J => Loose J s)
      (onThrow
        (T.restOfBody p (T.runner p n) n (some site) m body)
        fun e => T.leave p (T.runner p n) n m.span m.name
          (.exceptional (shown Ty.throwable e)))
      (onThrow
        (U.restOfBody p (U.runner p j) j (some site) m body)
        fun e => U.leave p (U.runner p j) j m.span m.name
          (.exceptional (shown Ty.throwable e))) := by
  refine sim_onThrow _
    (h.restOfBody ih m hSite hBody _ s hs) ?_ ?_ ?_
  · intro v
    refine (loose_step (fun s => h.tellLeave n j
      (T.runner p n) (U.runner p j) ih.paced ih.invoke m.span m.name _ _ s) s).weaken
      (fun _ _ hm => hm) ?_ (fun _ _ _ hm => hm)
    intro _ _ _ _ hm
    exact hm.weaken (h.endedInto ⟨c.name, m.name, m.signature⟩ g)
  · intro c' k k' hm
    exact Loose.weaken hm
      (h.lostInto ⟨c.name, m.name, m.signature⟩ g)
  · intro c' k k' hm
    cases c' with
    | throw v => exact absurd rfl (hm.1 v)
    | fault cause => exact absurd rfl (hm.2 cause)
    | _ => trivial

/- The super call in front of a body ends normally. -/
theorem Retellers.yields_first
    (ih : Reruns S B p T U t n j)
    (m : MethodDef)
    (site : Option Site)
    {body : List Stmt}
    (hBody : passStmts t body = true) :
    Yields S B (fun flow => flow = .normal)
      (runAll (T.exec p n site) (splitSuper m body).1)
      (runAll (U.exec p j site) (splitSuper m body).1) := by
  unfold splitSuper
  split
  · rename_i hSuper
    simp only [Bool.and_eq_true] at hSuper
    rcases body with _ | ⟨⟨form, span⟩, rest⟩
    · exact Yields.pure rfl
    · cases form with
      | superCall signature args =>
        simp only [passStmts, Stmt.passes, Bool.and_eq_true]
          at hBody
        refine (ih.superCall site signature args span
          hBody.1.2).bind fun flow hFlow => ?_
        rw [hFlow]
        exact Yields.pure rfl
      | _ => simp [startsWithSuper] at hSuper
  · exact Yields.pure rfl

/- The parts of a body pass with the whole body. -/
theorem passStmts_splitSuper
    (m : MethodDef)
    {body : List Stmt}
    (hBody : passStmts t body = true) :
    passStmts t (splitSuper m body).1 = true ∧
      passStmts t (splitSuper m body).2 = true := by
  unfold splitSuper
  split
  · cases body with
    | nil => exact ⟨rfl, rfl⟩
    | cons s rest =>
      simp only [passStmts, Bool.and_eq_true] at hBody
      simp [passStmts, hBody]
  · exact ⟨rfl, hBody⟩

/- A body that is watched at its end. -/
theorem Retellers.watchedEnd
    (h : Retellers S B move into p T U t)
    (m : MethodDef)
    (g : B.Ghost)
    (s : Shape)
    {K : Flow → Joint}
    (hNormal : ∀ k k', Loose (K .normal) s k k' →
      (∃ why, T.observer (.ended m) k = some why ∧
        S.stops why = true) ∨ Loose (B.done g) s k k')
    (hReturn : ∀ v a b, K (.return v) a b → B.done g a b)
    (hOther : ∀ flow, flow.isEnd = false →
      ∀ a b, K flow a b → B.lost g a b)
    (flow : Flow) :
    Sim S (Loose (K flow) s)
      (fun a b k k' => a = b ∧
        World (B.inside g a.isEnd) s.since k k')
      (B.bodyCut g fun J => World J s.since)
      (do
        watchEnd T.observer m flow
        pure flow)
      (do
        watchEnd U.observer m flow
        pure flow) := by
  intro k k' hm
  cases flow with
  | normal =>
    rcases hNormal k k' hm with ⟨why, hWhy, hStop⟩ | hDone
    · have hRun : watch T.observer (.ended m) k
          = (.error (.stopped why), k) := by
        simp only [watch, hWhy]
      refine Eq.mpr (congrArg (Outcome S _ _ · _)
        (Run.bind_error hRun)) (.first hStop)
    · rcases hDone with ⟨top, hDone⟩
      have hWatch : Sim S
          (Linked (B.done g) { s with top := top })
          (fun _ _ k k' =>
            Linked (B.done g) { s with top := top } k k')
          (B.bodyCut g fun J => World J s.since)
          (watch T.observer (.ended m))
          (watch U.observer (.ended m)) :=
        sim_watch (h.ended m _) (fun _ _ _ => trivial) _
      refine (hWatch.bind fun _ _ => ?_) k k' hDone
      exact Sim.pure fun _ _ hm => ⟨rfl, hm.world⟩
  | «return» v =>
    rcases hm with ⟨top, hm⟩
    exact .ok ⟨rfl, hm.world.weaken (hReturn v)⟩
  | _ =>
    rcases hm with ⟨top, hm⟩
    exact .ok ⟨rfl, hm.world.weaken (hOther _ rfl)⟩

/- A cut in front of a body, seen from outside of its frame. -/
theorem bodyCut_of_cut
    {g : B.Ghost}
    {s : Shape}
    (c : Interrupt)
    (k k' : Machine)
    (hm : B.cut g (fun J => Linked J s) c k k') :
    B.bodyCut g (fun J => World J s.since) c k k' := by
  cases c with
  | throw v => exact World.weaken hm.world (B.doneOfHolds g)
  | fault cause => exact hm.world
  | _ => trivial

/- A cut in a body, seen from outside of its frame. -/
theorem bodyCut_of_loose
    {g : B.Ghost}
    {s : Shape}
    (c : Interrupt)
    (k k' : Machine)
    (hm : B.bodyCut g (fun J => Loose J s) c k k') :
    B.bodyCut g (fun J => World J s.since) c k k' := by
  cases c with
  | throw v =>
    rcases hm with ⟨top, hm⟩
    exact hm.world
  | fault cause =>
    rcases hm with ⟨top, hm⟩
    exact hm.world
  | _ => trivial

/- A body of which something is told. -/
theorem Retellers.toldBody
    (h : Retellers S B move into p T U t)
    (ih : Reruns S B p T U t n j)
    (c : ClassDef)
    (m : MethodDef)
    {body : List Stmt}
    (hBody : passStmts t body = true)
    (hIn : T.leavesOut c.name = false)
    (g : B.Ghost)
    (s : Shape)
    (hs : s.outer = []) :
    Sim S
      (Linked (B.holds (B.push ⟨c.name, m.name, false⟩ g)) s)
      (fun a b k k' => a = b ∧ World
        (B.inside (B.push ⟨c.name, m.name, false⟩ g) a.isEnd)
        s.since k k')
      (B.bodyCut (B.push ⟨c.name, m.name, false⟩ g)
        fun J => World J s.since)
      (do
        let flow ← T.runBody p (T.runner p n) n c m body
        watchEnd T.observer m flow
        pure flow)
      (do
        let flow ← U.runBody p (U.runner p j) j c m body
        watchEnd U.observer m flow
        pure flow) := by
  have hOut : U.leavesOut c.name = false := by
    rw [h.leavesOut, hIn]
  unfold Teller.runBody
  simp only [hIn, hOut, Bool.false_eq_true, if_false, bind_assoc]
  have hFirst := (Retellers.yields_first ih m
    (some { cls := c.name, method := m.name, ret := m.ret })
    hBody (B.push ⟨c.name, m.name, false⟩ g) s
    (h.rets s.ret)).weaken
    (fun _ _ hm => hm) (fun _ _ _ _ hm => hm) bodyCut_of_cut
  refine hFirst.bind ?_
  intro a b k k' ⟨hab, hNormal, hm⟩
  subst hab
  subst hNormal
  simp only [bind_assoc]
  have hEnter := (h.entering n j (T.runner p n) (U.runner p j)
    ih.paced ih.invoke c m g s).weaken (fun _ _ hm => hm)
    (fun _ _ _ _ hm => hm) fun c' k k' hc =>
      bodyCut_of_cut (g := B.push ⟨c.name, m.name, false⟩ g)
        (s := s) c' k k' (B.cut_hard hc)
  refine (hEnter.bind fun _ _ => ?_) k k' hm
  have hSite : (Site.mk c.name m.name m.ret []).method = m.name :=
    rfl
  have hRest := (h.guarded ih c m hSite
    (passStmts_splitSuper m hBody).2
    (B.push ⟨c.name, m.name, false⟩ g) s hs).weaken
    (fun _ _ hm => Linked.loose hm) (fun _ _ _ _ hm => hm)
    bodyCut_of_loose
  refine hRest.bind ?_
  intro a b k k' ⟨hab, hm⟩
  subst hab
  refine h.watchedEnd m _ s
    (K := restPost B m (into ⟨c.name, m.name, m.signature⟩
      (B.push ⟨c.name, m.name, false⟩ g))) ?_ ?_ ?_ a k k' hm
  · intro k k' hm
    by_cases hVoid : m.ret = .void
    · simp only [restPost, hVoid, if_true] at hm
      exact .inr (hm.weaken
        (h.endedInto ⟨c.name, m.name, m.signature⟩ _))
    · simp only [restPost, hVoid, if_false] at hm
      rcases hm with ⟨top, hm⟩
      rcases h.stuck m _ _ _ k k' hVoid hm.world with hStop | hDone
      · exact .inl hStop
      · refine .inr ⟨top, ⟨?_, hm.locals⟩⟩
        exact ⟨hm.world.heap, hm.world.statics, hm.world.nextId,
          hm.world.output, hm.world.maxDepth, hDone,
          hm.world.grown⟩
  · intro v a b hEnd
    exact h.endedInto ⟨c.name, m.name, m.signature⟩ _ a b hEnd
  · intro flow hFlow a b hHolds
    apply h.lostInto ⟨c.name, m.name, m.signature⟩
    apply B.lostOfHolds
    cases flow with
    | normal => cases hFlow
    | «return» v => cases hFlow
    | _ => exact hHolds

/- A body of which nothing is told. -/
theorem Retellers.untoldBody
    (h : Retellers S B move into p T U t)
    (ih : Reruns S B p T U t n j)
    (c : ClassDef)
    (m : MethodDef)
    {body : List Stmt}
    (hBody : passStmts t body = true)
    (hOut : T.leavesOut c.name = true)
    (g : B.Ghost)
    (s : Shape)
    (hs : s.outer = []) :
    Sim S (Linked (B.holds g) s)
      (fun a b k k' => a = b ∧
        World (B.inside g a.isEnd) s.since k k')
      (B.bodyCut g fun J => World J s.since)
      (do
        let flow ← T.runBody p (T.runner p n) n c m body
        watchEnd T.observer m flow
        pure flow)
      (do
        let flow ← U.runBody p (U.runner p j) j c m body
        watchEnd U.observer m flow
        pure flow) := by
  have hOut' : U.leavesOut c.name = true := by
    rw [h.leavesOut, hOut]
  unfold Teller.runBody
  simp only [hOut, hOut', if_true]
  have hCut : ∀ c' k k',
      B.cut g (fun J => Loose J s) c' k k' →
        B.bodyCut g (fun J => World J s.since) c' k k' := by
    intro c' k k' hm
    apply bodyCut_of_loose (s := s)
    cases c' with
    | throw v => exact Loose.weaken hm (B.doneOfHolds g)
    | fault cause => exact hm
    | _ => trivial
  have hStmts := ((h.unspoken ih).stmts
    (show (none : Option Site).isSome = false from rfl)
    hBody g s (h.rets s.ret) hs).weaken
    (fun _ _ hm => Linked.loose hm)
    (fun _ _ _ _ hm => hm) hCut
  refine hStmts.bind ?_
  intro a b k k' ⟨hab, hm⟩
  subst hab
  have hHolds : Loose (B.holds g) s k k' := by
    cases a <;> exact hm
  refine h.watchedEnd m g s (K := fun _ => B.holds g)
    ?_ ?_ ?_ a k k' hHolds
  · intro k k' hm
    exact .inr (hm.weaken (B.doneOfHolds g))
  · exact fun _ => B.doneOfHolds g
  · exact fun _ _ => B.lostOfHolds g

/- A method is run alike by both tellers. -/
theorem Retellers.agrees_perform
    (h : Retellers S B move into p T U t)
    (ih : Reruns S B p T U t n j)
    {c d : ClassDef}
    {m m' : MethodDef}
    (hFound : Found (same t) (c, m) (d, m'))
    (self : Option Val)
    (args : List Val) :
    Agrees S B (T.perform p (T.runner p n) n c m self args)
      (U.perform p (U.runner p j) j d m' self args) := by
  have hSame : m' = m := hFound.2.1
  have hPasses : m.passes t = true := hFound.2.2
  have hName : d.name = c.name := hFound.1.name
  subst hSame
  simp only [MethodDef.passes, Bool.and_eq_true] at hPasses
  have hParams : ∀ x ∈ m'.params, hidden x.name = false := by
    intro x hx
    have hAll := hPasses.1
    simp only [MethodDef.visibleParams, List.all_eq_true]
      at hAll
    simpa using hAll x hx
  have hRunBody : ∀ body,
      U.runBody p (U.runner p j) j d m' body
        = U.runBody p (U.runner p j) j c m' body := by
    intro body
    have hEnter : U.entering p (U.runner p j) j d m'
        = U.entering p (U.runner p j) j c m' := by
      simp only [Teller.entering, hName]
    simp only [runBody, hEnter, hName]
  refine Yields.agrees (P := fun _ => True) ?_
  refine agrees_activate (paired_same h.passes) hFound hParams
    self args ?_
  cases hBody : m'.body with
  | none => exact .none
  | some body =>
    have hPass : passStmts t body = true := by
      simpa [hBody] using hPasses.2
    refine .some fun g since => ?_
    have hAbove := (agrees_constructAbove
      (paired_same h.passes) ih.invoke hFound
      (fun _ => (rfl : startsWithSuper body = startsWithSuper body))
      self
      (B.push ⟨c.name, m'.name, false⟩ g)
      (startShape m'.ret since) (h.rets m'.ret)).weaken
      (fun _ _ hm => hm) (fun _ _ _ _ hm => hm) bodyCut_of_cut
    refine hAbove.bind ?_
    rintro _ _ k k' ⟨_, _, hm⟩
    rw [hRunBody]
    cases hOut : T.leavesOut c.name with
    | true =>
      exact h.untoldBody ih c m' hPass hOut _
        (startShape m'.ret since) rfl k k' hm
    | false =>
      exact h.toldBody ih c m' hPass hOut g
        (startShape m'.ret since) rfl k k' hm

------------------------------------------------------------
-- Runs
------------------------------------------------------------

/- Runs without fuel have the same end. -/
theorem agrees_outOfFuel
    {α : Type}
    {P : α → Prop} :
    Yields S B P (throw .outOfFuel) (throw .outOfFuel) :=
  fun _ _ _ _ _ _ => .alike .outOfFuel trivial

/- What is paced is paced with one unit less. -/
theorem Paced.pred
    (h : Paced S (n + 1) (j + 1)) : Paced S n j := by
  rcases h with h | h | h
  · exact .inl (by omega)
  · exact .inr (.inl ⟨h.1, by omega⟩)
  · exact .inr (.inr ⟨h.1, by omega⟩)

/- A first run without fuel, whatever the second one does. -/
theorem yields_spent
    {α : Type}
    {P : α → Prop}
    {y : Nat → Run α}
    (hPaced : Paced S 0 j)
    (hy : y 0 = throw .outOfFuel) :
    Yields S B P (throw .outOfFuel) (y j) := by
  rcases hPaced with h | h | h
  · rw [← h, hy]
    exact agrees_outOfFuel
  · exact fun _ _ _ _ _ _ => .first h.1
  · rw [Nat.le_zero.mp h.2, hy]
    exact agrees_outOfFuel

/- A second run without fuel, whatever the first one does. -/
theorem yields_behind
    {α : Type}
    {P : α → Prop}
    {x : Run α}
    (hPaced : Paced S (n + 1) 0) :
    Yields S B P x (throw .outOfFuel) := by
  have hBehind : S.behind = true := by
    rcases hPaced with h | h | h
    · omega
    · omega
    · exact h.1
  exact fun _ _ _ => Sim.behind hBehind

/- Runs of one program with paced supplies of fuel agree. -/
theorem Retellers.reruns
    (h : Retellers S B move into p T U t)
    (hPaced : Paced S n j) : Reruns S B p T U t n j := by
  induction n generalizing j with
  | zero =>
    exact
      { paced := hPaced
        eval := fun site e _ =>
          yields_spent (y := fun j => U.eval p j site e) hPaced rfl
        exec := fun site s _ => Keeps.ofSteers
          (Steers.ofYields (P := fun _ => False)
            (yields_spent (y := fun j => U.exec p j site s) hPaced
              rfl) fun _ hFalse => hFalse.elim)
        superCall := fun site signature args span _ =>
          yields_spent
            (y := fun j =>
              U.exec p j site ⟨.superCall signature args, span⟩)
            hPaced rfl
        invoke := fun c d m m' _ self args =>
          yields_spent (y := fun j => U.invoke p j d m' self args)
            hPaced rfl }
  | succ n ih =>
    cases j with
    | zero =>
      exact
        { paced := hPaced
          eval := fun _ _ _ => yields_behind hPaced
          exec := fun _ _ _ => Keeps.ofSteers
            (Steers.ofYields (P := fun _ => False)
              (yields_behind hPaced) fun _ hFalse => hFalse.elim)
          superCall := fun _ _ _ _ _ => yields_behind hPaced
          invoke := fun _ _ _ _ _ _ _ => yields_behind hPaced }
    | succ j =>
      replace ih := ih (Paced.pred hPaced)
      refine ⟨hPaced, ?_, ?_, ?_, ?_⟩
      · intro site e he g s hs
        refine ((h.forms ih site).1 e he g s hs).bind ?_
        intro a b k k' ⟨hab, hm⟩
        have hResult : Result T U e.ty a b := by
          cases site with
          | some site => exact hab
          | none =>
            rcases hab with hab | ⟨v, ha, hb⟩
            · exact .inl hab
            · exact .inl (ha.trans hb.symm)
        refine ((h.value e a b hResult g s hs).bind ?_) k k' hm
        intro _ _ k k' ⟨_, ⟨hSame, hHeld⟩, hm⟩
        refine .ok ⟨hSame, ?_, hm⟩
        cases site with
        | some site => exact hHeld
        | none => exact ⟨rfl, fun _ => rfl⟩
      · intro site s hs
        exact (h.forms ih site).2.1 s hs
      · intro site signature args span has
        exact (h.forms ih site).2.2 signature args span has
      · intro c d m m' hFound self args
        exact h.agrees_perform ih hFound self args

end Runs

end Teller

end ExecTrace
