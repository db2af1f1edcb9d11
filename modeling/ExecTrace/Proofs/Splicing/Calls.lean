import ExecTrace.Proofs.Splicing.Assignments

/-
  Spliced calls. The receiver and the arguments are bound to
  hidden variables, the call runs under a handler that reports
  what is thrown and throws it again, and a value is stored in a
  hidden variable until the return has been reported.

  Main declarations:
    * `Spliced.heldAll`
    * `Attuned.sim_guarded`
    * `Spliced.agrees_callStatic`, `Spliced.agrees_new`
    * `Spliced.agrees_voidCall`
-/

namespace ExecTrace

open Run
open Teller (runner)
open Instrument (Site Options Bound CallSite fresh reporting
  probeAt holding rethrowing hidden_fresh)

section Calls

variable {S : Slack}
variable {u w : Observer}
variable {X : Splice}
variable {p q : Program}
variable {n j k : Nat}
variable {site : Site}
variable {s : Shape}
variable {α β : Type}
variable {post : α → β → Machine → Machine → Prop}
variable {c c' : Nat}

------------------------------------------------------------
-- Arguments
------------------------------------------------------------

/- An operand that is read has the value of its expression. -/
theorem gives_of_readLive
    {evaluate : Expr → Run Val}
    {m : Machine}
    {op : Operand}
    {l : Live}
    (h : Gives S m (readLive evaluate op) l) :
    Gives S m (evaluate op.expr) l.value := by
  unfold Gives readLive at h
  rw [bind_apply] at h
  unfold Gives
  generalize evaluate op.expr m = r at h ⊢
  rcases r with ⟨r, m₁⟩
  cases r with
  | ok v =>
    rcases h with h | ⟨_, _, h, _⟩
    · cases h
      exact .inl rfl
    · cases h
  | error cut =>
    rcases h with h | ⟨d, _, h, hExcuse⟩
    · cases h
    · cases h
      exact .inr ⟨_, _, rfl, hExcuse⟩

/- A variable that is read gives its value. -/
theorem Reads.gives
    {e : Expr}
    {v : Val}
    {m m' : Machine}
    (h : Reads s e v)
    (hw : u.Follows S w)
    (hk : Spare S n (j + 2) k)
    (hm : Linked Joint.level s m m') :
    Gives S m' (eval w q k e) v := by
  have hLive := gives_of_readLive
    (gives_live (q := q) hw hk hm h.shows)
  rw [h.live] at hLive
  exact hLive

/- Variables that are read give their values. -/
theorem gives_reads
    {es : List Expr}
    {vs : List Val}
    {m m' : Machine}
    (h : List.Forall₂ (Reads s) es vs)
    (hw : u.Follows S w)
    (hk : Spare S n (j + 2) k)
    (hm : Linked Joint.level s m m') :
    Gives S m' (es.mapM (eval w q k)) vs := by
  induction h with
  | nil => exact .pure _
  | cons hFirst _ ih =>
    rw [List.mapM_cons]
    exact (hFirst.gives hw hk hm).bind (ih.bind (.pure _))

/-
  More variables are hidden: only variables with a hint and a
  number from `c` on.
-/
def Shape.Extends
    (hint : String)
    (c : Nat)
    (s t : Shape) : Prop :=
  ∀ x, (∀ n, c ≤ n → fresh hint n ≠ x) → t.find? x = s.find? x

/- Arguments that are bound to hidden variables with values. -/
structure Bounds
    (s : Shape)
    (args : List Expr)
    (bs : List Bound)
    (vs : List Val) : Prop where
  reads : List.Forall₂ (Reads s) (bs.map Bound.read) vs
  names : ∀ b ∈ bs, ∃ n, b.read.form = .localVar (fresh "arg" n)
  tys : bs.map (fun b => b.read.ty) = args.map Expr.ty

/- A read of a variable does not depend on other variables. -/
theorem Reads.moved
    {t : Shape}
    {e : Expr}
    {v : Val}
    {x : String}
    (h : Reads s e v)
    (hForm : e.form = .localVar x)
    (hx : t.find? x = s.find? x) : Reads t e v where
  shows := by
    have hShows := h.shows
    simp only [Shape.shows, reporting, hForm] at hShows ⊢
    rw [hx]
    exact hShows
  live := by
    have hLive := h.live
    simp only [Shape.live, reporting, hForm] at hLive ⊢
    rw [hx]
    exact hLive

/- Bound arguments do not depend on other variables. -/
theorem Bounds.moved
    {t : Shape}
    {args : List Expr}
    {bs : List Bound}
    {vs : List Val}
    (h : Bounds s args bs vs)
    (ht : ∀ n, t.find? (fresh "arg" n) = s.find? (fresh "arg" n)) :
    Bounds t args bs vs where
  reads := by
    have hReads := h.reads
    have hNames := h.names
    generalize vs = us at hReads ⊢
    clear h
    induction bs generalizing us with
    | nil =>
      cases hReads
      exact .nil
    | cons b rest ih =>
      cases hReads with
      | cons hFirst hMore =>
        rcases hNames b (by simp) with ⟨i, hForm⟩
        exact .cons (hFirst.moved hForm (ht i))
          (ih (fun b hb => hNames b (by simp [hb])) _ hMore)
  names := h.names
  tys := h.tys

/- Arguments are bound to hidden variables one by one. -/
theorem Spliced.heldAll
    (h : Spliced S X w p q n)
    (hk : Spare S n (j + 1) k)
    (hj : j < 8)
    (hs : s.ret = site.ret)
    {args : List Expr}
    {bs : List Bound}
    (hArgs : passExprs Test.source args = true)
    (hPass : Instrument.boundArgs X.options site args c = .ok (bs, c'))
    {f : List Val → Run α}
    {ss : List Stmt}
    {next : Run β}
    {other : Flow → Run β}
    (hRest : ∀ top vs,
      s.Extends "arg" c { s with top := top } →
      Bounds { s with top := top } args bs vs →
      Mirrors S { s with top := top } post (f vs)
        (andThen (ExecTrace.exec w q k) ss next other)) :
    Mirrors S s post
      (args.mapM (X.teller.held
        (X.teller.runner p n) (some site))
          >>= f)
      (andThen (ExecTrace.exec w q k)
        (bs.map Bound.decl ++ ss) next other) := by
  induction args generalizing c s bs f with
  | nil =>
    rcases Instrument.pure_ok.mp hPass with ⟨rfl, _⟩
    rw [List.mapM_nil, pure_bind]
    exact hRest s.top [] (fun _ _ => rfl) ⟨.nil, nofun, rfl⟩
  | cons e rest ih =>
    simp only [passExprs, Bool.and_eq_true] at hArgs
    simp only [Instrument.boundArgs, Instrument.bind_ok,
      Instrument.bindTo_ok, Instrument.pure_ok] at hPass
    rcases hPass with ⟨e', c₁, he', _, _, ⟨rfl, rfl⟩, bs', c₂,
      hRest', rfl, rfl⟩
    have hClimb : c ≤ c₁ :=
      Instrument.climbs_expr X.options site e c e' c₁ he'
    rw [List.mapM_cons, bind_assoc]
    refine h.held hk hj hArgs.1 he' hs _ _ fun v => ?_
    simp only [bind_assoc, pure_bind]
    refine ih (by exact hs) hArgs.2 hRest' fun top vs hExt hBounds => ?_
    -- The variable of the first argument is none of the others.
    refine hRest top (v :: vs) ?_ ?_
    · intro x hx
      have hOut := hExt x fun n hn => hx n (by omega)
      refine hOut.trans (Shape.find?_hide_of_ne ?_)
      exact hx c₁ hClimb
    · refine ⟨.cons (reads_localVar (hidden_fresh _ _) ?_)
        hBounds.reads, ?_, ?_⟩
      · refine (hExt _ fun n hn => ?_).trans Shape.find?_hide
        intro hSame
        have hNumber := (Instrument.fresh_inj (by decide)
          (by decide) hSame).2
        omega
      · intro b hb
        rcases List.mem_cons.mp hb with hb | hb
        · exact ⟨c₁, by rw [hb]; rfl⟩
        · exact hBounds.names b hb
      · simp only [List.map_cons, hBounds.tys]
        rw [← Instrument.ty_of_expr he']
        rfl

/- Values are told by the types of their expressions. -/
theorem shownAll_congr
    {es es' : List Expr}
    (h : es.map Expr.ty = es'.map Expr.ty)
    (vs : List Val) : shownAll es vs = shownAll es' vs := by
  induction es generalizing es' vs with
  | nil =>
    cases es' with
    | nil => rfl
    | cons e' rest' => cases h
  | cons e rest ih =>
    cases es' with
    | nil => cases h
    | cons e' rest' =>
      rw [List.map_cons, List.map_cons, List.cons.injEq] at h
      cases vs with
      | nil => rfl
      | cons v vs =>
        have hRest := ih h.2 vs
        simp only [shownAll] at hRest ⊢
        simp only [List.zipWith_cons_cons, h.1, hRest]

------------------------------------------------------------
-- Handlers
------------------------------------------------------------

/- A statement of the second run is all that it runs. -/
theorem exec_eq_andThen
    (st : Stmt) :
    exec w q k st = andThen (exec w q k) [st] (pure .normal)
      pure := by
  rw [andThen_cons]
  refine Eq.trans (bind_pure _).symm (bind_congr fun flow => ?_)
  cases flow <;> simp

/- A tale stands for a probe on its own. -/
theorem Attuned.sim_said
    (h : Attuned S X w p q n)
    (hk : Spare S n (j + 3) k)
    (hj : j + 2 < 8)
    {a : Action Unit Shown}
    {P : Probe Operand}
    (hPlain : a.ofOperator = false)
    (hTale : Tale s a P)
    (span : Span) :
    Mirrors S s
      (fun _ flow m m' => flow = .normal ∧
        Linked Joint.level s m m')
      (X.teller.say p
        (X.teller.runner p n) n span a)
      (ExecTrace.exec w q k (probeAt P span)) := by
  rw [exec_eq_andThen, ← bind_pure (Teller.say _ _ _ _ _ _)]
  refine h.say hk hj hPlain hTale span ?_
  rw [andThen_nil]
  exact Sim.pure fun _ _ hm => ⟨rfl, hm⟩

/- What the handler of a guard does with an exception. -/
def reported
    (act : Val → Run Unit)
    (v : Val) : Run α := do
  act v
  throw (.throw v)

/- A guard does what it has to with what is thrown. -/
theorem onThrow_apply
    (x : Run α)
    (act : Val → Run Unit)
    (m : Machine) :
    Teller.onThrow x act m =
      match x m with
      | (.error (.throw v), m') => reported act v m'
      | other => other :=
  rfl

/-
  What a guard stands for: the act is done on what is thrown,
  which a hidden variable holds.
-/
abbrev Guards
    (S : Slack)
    (w : Observer)
    (q : Program)
    (n i : Nat)
    (exc : String)
    (act : Val → Run Unit)
    (st : Stmt) : Prop :=
  ∀ k, Spare S n i k → ∀ (t : Shape) v, t.find? exc = some v →
    Mirrors S t
      (fun _ flow m m' => flow = .normal ∧
        Linked Joint.level t m m')
      (act v) (exec w q k st)

/- The handler of a guard reports and throws again. -/
theorem sim_rethrowing
    (hw : u.Follows S w)
    (hk : Spare S n (j + 3) k)
    {act : Val → Run Unit}
    {P : Operand → Probe Operand}
    {span : Span}
    {exc : String}
    (hExc : hidden exc = true)
    (hAct : Guards S w q n (j + 3) exc act
      (probeAt (P (reporting ⟨.localVar exc, Ty.throwable, span⟩))
        span))
    {v : Val}
    (hv : v ≠ .null) :
    Sim S (Linked Joint.level s)
      (fun (_ : α) (_ : Flow) _ _ => False) (levelCut s)
      (reported act v)
      (runHandler q (fun c => runAll (exec w q k) c.body)
        [rethrowing exc P span] v) := by
  have hCatches : ∀ m : Machine,
      [rethrowing exc P span].find?
          (fun c => Call.catches q m.heap v c.ty)
        = some (rethrowing exc P span) := by
    intro m
    rfl
  have hThrown : ∀ k, Spare S n (j + 3) k →
      ∀ t : Shape, t.find? exc = some v →
      Mirrors S t (fun (_ : α) (_ : Flow) _ _ => False)
        (throw (.throw v))
        (exec w q k
          ⟨.throw ⟨.localVar exc, Ty.throwable, span⟩, span⟩) := by
    intro k hk t ht
    refine Sim.execRight hk fun k hk => ?_
    refine Mirrors.readFirst hw hk hExc ht ?_
    have hThrow : throwValue q v = throw (.throw v) := by
      cases v with
      | null => exact absurd rfl hv
      | _ => rfl
    rw [hThrow]
    exact Sim.throw (.throw v hv) fun m n hm => hm.loose
  have hBody : Mirrors S s.opened
      (fun (_ : α) (_ : Flow) m m' => False ∧
        Loose Joint.level s.opened m m')
      (reported act v)
      (do
        declareLocal exc v
        runAll (exec w q k) (rethrowing exc P span).body) := by
    intro m m' hm
    change Outcome S _ _ (reported act v m)
      (runAll (exec w q k) (rethrowing exc P span).body
        { m' with locals := m'.locals.declare exc v })
    rw [runAll_eq_andThen]
    refine Mirrors.step (t := fun _ => s.opened.hide exc v)
      (hAct k hk _ v Shape.find?_hide) (fun _ => ?_) m _
      (hm.hide hExc)
    rw [← exec_eq_andThen]
    refine (hThrown k hk _ Shape.find?_hide).weaken
      (fun _ _ hm => hm) (fun _ _ _ _ hFalse => hFalse.elim) ?_
    exact fun _ _ _ hm => hm
  intro m m' hm
  unfold runHandler
  rw [get_bind_apply]
  simp only [hCatches]
  exact (Sim.scopeRight (R := fun _ => True)
    (fun _ => s) (fun _ => rfl) hBody m m' hm).weaken
    (fun _ _ _ _ hFalse => hFalse.1) Mirrors.levelCut_of_cut

/-
  Code of the second run under a handler. What is known after
  something was thrown is known in front of the handler.
-/
theorem sim_tryRight
    {cut cut' : Cut}
    {pre : Machine → Machine → Prop}
    {post : α → Flow → Machine → Machine → Prop}
    {x : Run α}
    {act : Val → Run Unit}
    {body : List Stmt}
    {handlers : List Catch}
    {span : Span}
    (hk : Spare S n (j + 1) k)
    (hBody : ∀ k, Spare S n j k →
      Sim S pre post cut x (inScope (runAll (exec w q k) body)))
    (hHandler : ∀ k, Spare S n j k → ∀ v, v ≠ .null →
      Sim S (cut (.throw v)) post cut' (reported act v)
        (runHandler q (fun c => runAll (exec w q k) c.body)
          handlers v))
    (hFault : ∀ c m n, cut (.fault c) m n → cut' (.fault c) m n)
    (hHard : ∀ c m n, hard c m n → cut' c m n) :
    Sim S pre post cut' (Teller.onThrow x act)
      (exec w q k ⟨.try body handlers, span⟩) := by
  refine Sim.execRight hk fun k hk => ?_
  intro m m' hm
  have hEnd := hBody k hk m m' hm
  change Outcome S _ _ _ (catching
    (inScope (runAll (exec w q k) body))
    (runHandler q (fun c => runAll (exec w q k) c.body)
      handlers) m')
  rw [onThrow_apply]
  unfold catching
  generalize x m = r at hEnd
  generalize inScope (runAll (exec w q k) body) m' = t at hEnd
  cases hEnd with
  | ok hPost => exact .ok hPost
  | alike hAlike hCut =>
    cases hAlike with
    | throw v hv => exact hHandler k hk v hv _ _ hCut
    | fault c d => exact .alike (.fault c d) (hFault _ _ _ hCut)
    | panic text hText =>
      exact .alike (.panic text hText)
        (hHard _ _ _ ⟨nofun, nofun⟩)
    | outOfFuel =>
      exact .alike .outOfFuel (hHard _ _ _ ⟨nofun, nofun⟩)
    | stopped why hWhy =>
      exact .alike (.stopped why hWhy)
        (hHard _ _ _ ⟨nofun, nofun⟩)
    | answered why text hWhy =>
      exact .alike (.answered why text hWhy)
        (hHard _ _ _ ⟨nofun, nofun⟩)
  | @first c m₁ _ hFirst =>
    cases c with
    | throw v => cases hFirst
    | _ => exact .first hFirst
  | @second d m₁ _ hSecond =>
    cases d with
    | throw v => cases hSecond
    | _ => exact .second hSecond

/-
  Code of the second run under a guard. What the first run does
  is thrown by both, once it has been reported.
-/
theorem sim_guarded
    (hw : u.Follows S w)
    (hk : Spare S n (j + 4) k)
    {pre : Machine → Machine → Prop}
    {post : α → Flow → Machine → Machine → Prop}
    {x : Run α}
    {body : List Stmt}
    {act : Val → Run Unit}
    {P : Operand → Probe Operand}
    {span : Span}
    {exc : String}
    (hExc : hidden exc = true)
    (hBody : ∀ k, Spare S n (j + 3) k →
      Sim S pre post (levelCut s) x
        (inScope (runAll (exec w q k) body)))
    (hAct : Guards S w q n (j + 3) exc act
      (probeAt (P (reporting ⟨.localVar exc, Ty.throwable, span⟩))
        span)) :
    Sim S pre post (levelCut s) (Teller.onThrow x act)
      (exec w q k ⟨.try body [rethrowing exc P span], span⟩) := by
  refine sim_tryRight hk hBody (fun k hk v hv => ?_)
    (fun _ _ _ hm => hm) (fun _ _ _ hHard => Bond.cut_hard hHard)
  intro m m' ⟨top, hl⟩
  refine (sim_rethrowing hw hk hExc hAct hv _ _ hl).weaken
    (fun _ _ _ _ hFalse => hFalse.elim) fun c _ _ hl => ?_
  cases c with
  | throw v => exact hl
  | fault c => exact hl
  | _ => trivial

------------------------------------------------------------
-- Calls for Values
------------------------------------------------------------

/- The second run stores the value of a call behind a scope. -/
theorem Attuned.sim_stored
    (h : Attuned S X w p q n)
    (hk : Spare S n (j + 2) k)
    {result : String}
    {x : Run Val}
    {call : Expr}
    {ty : Ty}
    {span : Span}
    (hResult : hidden result = true)
    (hFound : (Bindings.get? result s.top).isSome = true)
    (hCall : ∀ k, Spare S n j k →
      Mirrors S s.opened (SameValue (fun _ => True) s.opened) x
        (ExecTrace.eval w q k call)) :
    Sim S (Linked Joint.level s)
      (fun v flow m m' => flow = .normal ∧
        Linked Joint.level (s.hide result (v.convert ty)) m m')
      (levelCut s) x
      (inScope (runAll (ExecTrace.exec w q k)
        [Instrument.store ⟨.localVar result, ty, span⟩ call
          span])) := by
  refine (Sim.scopeRight (R := fun _ => True)
    (Q := fun _ flow => flow = .normal)
    (fun v => s.hide result (v.convert ty)) (fun _ => rfl)
    ?_).weaken (fun _ _ hm => hm) (fun _ _ _ _ hm => hm)
      Mirrors.levelCut_of_cut
  rw [runAll_eq_andThen, andThen_cons]
  refine Sim.execRight_bind hk fun k hk => ?_
  suffices Mirrors S s.opened
      (fun v _ m m' =>
        Linked Joint.level (s.hide result (v.convert ty)).opened
          m m')
      x
      (ExecTrace.eval w q k
        ⟨.assign ⟨.localVar result, ty, span⟩ call, ty, span⟩) by
    rw [← bind_pure x]
    change Sim S _ _ _ _ ((do
      let _ ← ExecTrace.eval w q k
        ⟨.assign ⟨.localVar result, ty, span⟩ call, ty, span⟩
      pure Flow.normal) >>= _)
    rw [bind_assoc]
    exact this.bind fun v _ =>
      Sim.pure fun _ _ hm => ⟨rfl, hm.loose⟩
  refine Sim.evalRight h.follows hk fun k hk => ?_
  change Sim S _ _ _ x (do
    let v ← ExecTrace.eval w q k call
    setLocal result (v.convert ty)
    pure (v.convert ty))
  rw [← bind_pure x]
  refine (hCall k hk).bind fun v v' => ?_
  intro m m' ⟨hv, _, hm⟩
  subst hv
  rcases hm.setHidden (v := v.convert ty) hResult hFound with
    ⟨l, hSet, hLinked⟩
  have hStored : setLocal result (v.convert ty) m'
      = (.ok (), { m' with locals := l }) := by
    unfold setLocal
    rw [get_bind_apply, hSet]
    rfl
  rw [bind_ok hStored]
  exact .ok hLinked

/- A call is reported when it goes on in the caller. -/
theorem Attuned.sim_called
    (h : Attuned S X w p q n)
    (hk : Spare S n (j + 6) k)
    (hj : j + 5 < 8)
    {x : Run Val}
    {call : Expr}
    {ty : Ty}
    {span : Span}
    {cls method : String}
    {other : Flow → Run Val}
    (hTy : ty ≠ .void)
    (hCall : ∀ k, Spare S n (j + 1) k → ∀ v,
      Mirrors S (s.hide (fresh "result" c) v).opened
        (SameValue (fun _ => True)
          (s.hide (fresh "result" c) v).opened)
        x (Runner.evalForm w q (fueled w q k) call)) :
    Mirrors S s (SameEnd s)
      (X.teller.called p (X.teller.runner p n) n span cls method
        ty x)
      (andThen (ExecTrace.exec w q k)
        [⟨.declare (fresh "result" c) ty none, span⟩,
          ⟨.try
            [Instrument.store
              ⟨.localVar (fresh "result" c), ty, span⟩ call span]
            [rethrowing (fresh "exc" (c + 1))
              (fun o => .resume cls method (.aborted o)) span],
            span⟩,
          probeAt
            (.resume cls method
              (.returned
                (reporting
                  ⟨.localVar (fresh "result" c), ty, span⟩)))
            span]
        (ExecTrace.eval w q k
          ⟨.localVar (fresh "result" c), ty, span⟩)
        other) := by
  unfold Teller.called
  simp only [Splice.teller_keep, hTy, if_false]
  refine Mirrors.declareDefault hk (hidden_fresh _ _) ?_
  refine Mirrors.step
    (t := fun v => (s.hide (fresh "result" c)
      (Val.defaultOf ty)).hide (fresh "result" c) (v.convert ty))
    ?_ fun v => ?_
  · refine sim_guarded (j := j + 2) h.follows hk (hidden_fresh _ _)
      (fun k hk => ?_) fun k hk t v hv => ?_
    · refine h.sim_stored hk (hidden_fresh _ _) ?_ fun k hk => ?_
      · simp [Shape.hide, Bindings.get?_put]
      · exact Sim.evalRight h.follows hk fun k hk =>
          hCall k (hk.less (by omega) (by omega)) _
    · refine h.sim_said hk (by omega) rfl ?_ span
      exact tale_aborted (reads_localVar (hidden_fresh _ _) hv) _ _
  · refine h.say (j := j + 3) hk (by omega) rfl ?_ _ ?_
    · exact tale_returned
        (reads_localVar (hidden_fresh _ _) Shape.find?_hide) _ _
    · rw [andThen_nil]
      exact Mirrors.readLast h.follows hk (hidden_fresh _ _)
        Shape.find?_hide
        (Sim.pure fun _ _ hm => ⟨rfl, hm.loose⟩)

------------------------------------------------------------
-- What Calls Become
------------------------------------------------------------

/- The probe in front of a call, behind what is bound for it. -/
def beforeCall
    (callee : Callee)
    (receiver : Option Bound)
    (args : List Bound)
    (span : Span) : List Stmt :=
  receiver.toList.map Bound.decl ++ args.map Bound.decl
    ++ [probeAt
      (.call callee ((receiver.map Bound.read).map reporting)
        ((args.map Bound.read).map reporting)) span]

/- A call with its receiver and arguments bound. -/
theorem Instrument.callSite_ok
    {e : Expr}
    {callee : Callee}
    {receiver : Option Bound}
    {args : List Bound}
    {call : CallSite}
    (h : Instrument.callSite e callee receiver args c
      = .ok (call, c')) :
    ⟨beforeCall callee receiver args e.span,
      Instrument.rebuilt e
        (.call callee (receiver.map Bound.read)
          (args.map Bound.read)),
      callee.cls, callee.method⟩ = call ∧ c = c' := by
  simp only [Instrument.callSite, Instrument.bind_ok,
    Instrument.pure_ok] at h
  rcases h with ⟨r, c₁, hReceiver, os, c₂, hArgs, rfl, rfl⟩
  rcases Instrument.operand?_ok hReceiver with ⟨rfl, rfl⟩
  rcases Instrument.operands_ok hArgs with ⟨rfl, rfl⟩
  exact ⟨rfl, rfl⟩

/- A new object, as a call with its arguments bound. -/
theorem Instrument.constructorSite_ok
    {e : Expr}
    {cls signature : String}
    {args : List Bound}
    {call : CallSite}
    (h : Instrument.constructorSite e cls signature args c
      = .ok (call, c')) :
    ⟨beforeCall ⟨cls, constructorName, signature⟩ none args e.span,
      Instrument.rebuilt e
        (.new cls signature (args.map Bound.read)),
      cls, constructorName⟩ = call ∧ c = c' := by
  simp only [Instrument.constructorSite, Instrument.bind_ok,
    Instrument.pure_ok] at h
  rcases h with ⟨os, c₂, hArgs, rfl, rfl⟩
  rcases Instrument.operands_ok hArgs with ⟨rfl, rfl⟩
  exact ⟨rfl, rfl⟩

/- A call for its value, between its declaration and its probe. -/
def storedCall
    (call : CallSite)
    (result exc : String)
    (ty : Ty)
    (span : Span) : List Stmt :=
  [⟨.declare result ty none, span⟩,
    ⟨.try
      [Instrument.store ⟨.localVar result, ty, span⟩ call.call
        span]
      [rethrowing exc
        (fun o => .resume call.cls call.method (.aborted o)) span],
      span⟩,
    probeAt
      (.resume call.cls call.method
        (.returned (reporting ⟨.localVar result, ty, span⟩)))
      span]

/- A call for its value becomes a block. -/
theorem Instrument.valueCall_ok
    {e e' : Expr}
    {call : CallSite}
    (h : Instrument.valueCall e call c = .ok (e', c')) :
    e.ty ≠ .void ∧
      Expr.letIn
        (call.before ++
          storedCall call (fresh "result" c) (fresh "exc" (c + 1))
            e.ty e.span)
        ⟨.localVar (fresh "result" c), e.ty, e.span⟩ = e' := by
  simp only [Instrument.valueCall, CallSite.guarded,
    Instrument.bind_ok, Instrument.freshName_ok,
    Instrument.guarded_ok, Instrument.operand_ok,
    Instrument.pure_ok] at h
  rcases h with ⟨_, _, ⟨rfl, rfl⟩, _, _, ⟨rfl, rfl⟩, _, _,
    ⟨hTy, rfl, rfl⟩, rfl, rfl⟩
  exact ⟨hTy, rfl⟩

/- A call that needs its arguments only is told. -/
theorem Spliced.toldArgs
    (h : Spliced S X w p q n)
    (hk : Spare S n (j + 3) k)
    (hj : j + 2 < 8)
    (hs : s.ret = site.ret)
    {args : List Expr}
    {bs : List Bound}
    (hArgs : passExprs Test.source args = true)
    (hPass : Instrument.boundArgs X.options site args c
      = .ok (bs, c'))
    {receiver : Option Shown}
    {told : Option Operand}
    {callee : Callee}
    {span : Span}
    {f : List Val → Run α}
    {ss : List Stmt}
    {next : Run β}
    {other : Flow → Run β}
    (hTale : ∀ top vs,
      s.Extends "arg" c { s with top := top } →
      Bounds { s with top := top } args bs vs →
      Tale { s with top := top }
        (.call callee receiver
          (shownAll (bs.map Bound.read) vs))
        (.call callee told ((bs.map Bound.read).map reporting)))
    (hRest : ∀ top vs,
      s.Extends "arg" c { s with top := top } →
      Bounds { s with top := top } args bs vs →
      Mirrors S { s with top := top } post (f vs)
        (andThen (ExecTrace.exec w q k) ss next other)) :
    Mirrors S s post
      (do
        let vs ← args.mapM (X.teller.held (X.teller.runner p n)
          (some site))
        X.teller.say p (X.teller.runner p n) n span
          (.call callee receiver (shownAll args vs))
        f vs)
      (andThen (ExecTrace.exec w q k)
        (bs.map Bound.decl ++
          probeAt
            (.call callee told ((bs.map Bound.read).map reporting))
            span :: ss)
        next other) := by
  refine h.heldAll hk (by omega) hs hArgs hPass
    fun top vs hExt hBounds => ?_
  have hTys : args.map Expr.ty
      = (bs.map Bound.read).map Expr.ty := by
    rw [← hBounds.tys, List.map_map]
    rfl
  rw [shownAll_congr hTys vs]
  exact h.say hk hj rfl (hTale top vs hExt hBounds) span
    (hRest top vs hExt hBounds)

------------------------------------------------------------
-- Calls as Expressions
------------------------------------------------------------

/- The variables of a call are found in a scope around it. -/
theorem Bounds.inside
    {args : List Expr}
    {bs : List Bound}
    {vs : List Val}
    (h : Bounds s args bs vs)
    (v : Val) :
    Bounds (s.hide (fresh "result" c) v).opened args bs vs :=
  h.moved fun n => by
    rw [Shape.find?_opened, Shape.find?_hide_fresh (by decide)]

/- A call of a method without a receiver. -/
theorem Spliced.agrees_callStatic
    (h : Spliced S X w p q n)
    {callee : Callee}
    {args : List Expr}
    {e' : Expr}
    {ty : Ty}
    {span : Span}
    (hArgs : passExprs Test.source args = true)
    (hPass : Instrument.exprForm X.options site
      ⟨.call callee none args, ty, span⟩ (.call callee none args) c
        = .ok (e', c')) :
    Mimics S X w p q n site ⟨.call callee none args, ty, span⟩
      e' := by
  intro k hk
  simp only [Instrument.exprForm] at hPass
  split at hPass
  · cases hPass
  simp only [Instrument.boundReceiver, Instrument.bind_ok,
    Instrument.pure_ok] at hPass
  rcases hPass with ⟨_, _, ⟨rfl, rfl⟩, bs, c₁, hBound, call, c₂,
    hSite, hCall⟩
  rcases Instrument.callSite_ok hSite with ⟨rfl, rfl⟩
  rcases Instrument.valueCall_ok hCall with ⟨hTy, rfl⟩
  refine agrees_letIn h.follows hk.spare fun k hk s hs => ?_
  simp only [beforeCall, Option.toList_none, List.map_nil,
    List.nil_append, List.append_assoc, List.singleton_append]
  refine h.toldArgs (j := 4) hk (by decide) hs hArgs hBound
    (fun top vs _ hBounds => tale_callStatic hBounds.reads callee)
    fun top vs _ hBounds => ?_
  refine h.sim_called (j := 1) hk (by decide) hTy
    fun k hk v => ?_
  refine Sim.givesRight (fun m m' hm =>
    gives_reads (hBounds.inside v).reads h.follows hk hm) ?_
  exact Mirrors.ofYields (R := fun _ => True)
    ((agrees_onClass h.paired (h.invoke k (hk.enough (by decide)))
      _ _ vs).bind fun _ _ => Yields.pure trivial) trivial

/- A call of a method of an object. -/
theorem Spliced.agrees_callOn
    (h : Spliced S X w p q n)
    {callee : Callee}
    {receiver : Expr}
    {args : List Expr}
    {e' : Expr}
    {ty : Ty}
    {span : Span}
    (hReceiver : receiver.passes Test.source = true)
    (hArgs : passExprs Test.source args = true)
    (hPass : Instrument.exprForm X.options site
      ⟨.call callee (some receiver) args, ty, span⟩
      (.call callee (some receiver) args) c = .ok (e', c')) :
    Mimics S X w p q n site
      ⟨.call callee (some receiver) args, ty, span⟩ e' := by
  intro k hk
  simp only [Instrument.exprForm] at hPass
  split at hPass
  · cases hPass
  simp only [Instrument.boundReceiver, Instrument.bind_ok,
    Instrument.bindTo_ok, Instrument.pure_ok] at hPass
  rcases hPass with ⟨_, _, ⟨receiver', c₁, hReceiver', _, _,
    ⟨rfl, rfl⟩, rfl, rfl⟩, bs, c₂, hBound, call, c₃, hSite, hCall⟩
  rcases Instrument.callSite_ok hSite with ⟨rfl, rfl⟩
  rcases Instrument.valueCall_ok hCall with ⟨hTy, rfl⟩
  have hTyReceiver := Instrument.ty_of_expr hReceiver'
  refine agrees_letIn h.follows hk.spare fun k hk s hs => ?_
  simp only [beforeCall, Option.toList_some, List.map_cons,
    List.map_nil, List.append_assoc, List.cons_append]
  refine h.held hk (by decide) hReceiver hReceiver' hs _ _
    fun o => ?_
  have hFound : ∀ {top : Bindings String},
      (s.hide (fresh "recv" c₁) o).Extends "arg" (c₁ + 1)
        { s with top := top } →
      ({ s with top := top } : Shape).find? (fresh "recv" c₁)
        = some o := fun hExt =>
    (hExt _ fun n _ => Instrument.fresh_ne n c₁ (by decide)
      (by decide) (by decide)).trans Shape.find?_hide
  refine h.toldArgs (j := 4) hk (by decide) (by exact hs) hArgs
    hBound (fun top vs hExt hBounds => ?_)
    fun top vs hExt hBounds => ?_
  · rw [← hTyReceiver]
    exact tale_callOn
      (reads_localVar (hidden_fresh _ _) (hFound hExt))
      hBounds.reads callee
  · refine h.sim_called (j := 1) hk (by decide) hTy
      fun k hk v => ?_
    refine Mirrors.readFirst (v := o) h.follows hk
      (hidden_fresh _ _) ?_ ?_
    · rw [Shape.find?_opened, Shape.find?_hide_fresh (by decide)]
      exact hFound hExt
    · refine Sim.givesRight (fun m m' hm =>
        gives_reads (hBounds.inside v).reads h.follows hk hm) ?_
      exact Mirrors.ofYields (R := fun _ => True)
        ((agrees_onObject h.paired
          (h.invoke k (hk.enough (by decide))) o _ vs).bind
            fun _ _ => Yields.pure trivial) trivial

/- A new object. -/
theorem Spliced.agrees_new
    (h : Spliced S X w p q n)
    {cls signature : String}
    {args : List Expr}
    {e' : Expr}
    {ty : Ty}
    {span : Span}
    (hArgs : passExprs Test.source args = true)
    (hPass : Instrument.exprForm X.options site
      ⟨.new cls signature args, ty, span⟩ (.new cls signature args)
        c = .ok (e', c')) :
    Mimics S X w p q n site ⟨.new cls signature args, ty, span⟩
      e' := by
  intro k hk
  simp only [Instrument.exprForm, Instrument.bind_ok] at hPass
  rcases hPass with ⟨bs, c₁, hBound, call, c₂, hSite, hCall⟩
  rcases Instrument.constructorSite_ok hSite with ⟨rfl, rfl⟩
  rcases Instrument.valueCall_ok hCall with ⟨hTy, rfl⟩
  refine agrees_letIn h.follows hk.spare fun k hk s hs => ?_
  simp only [beforeCall, Option.toList_none, List.map_nil,
    List.nil_append, List.append_assoc, List.singleton_append]
  refine h.toldArgs (j := 4) hk (by decide) hs hArgs hBound
    (fun top vs _ hBounds => tale_callStatic hBounds.reads _)
    fun top vs _ hBounds => ?_
  refine h.sim_called (j := 1) hk (by decide) hTy
    fun k hk v => ?_
  refine Sim.givesRight (fun m m' hm =>
    gives_reads (hBounds.inside v).reads h.follows hk hm) ?_
  exact Mirrors.ofYields (R := fun _ => True)
    (agrees_construct h.paired (h.invoke k (hk.enough (by decide)))
      cls vs) trivial

------------------------------------------------------------
-- Calls without a Value
------------------------------------------------------------

/- A call of a method without a result becomes a block. -/
theorem Instrument.voidCall_ok
    {span : Span}
    {call : CallSite}
    {st : Stmt}
    (h : Instrument.voidCall span call c = .ok (st, c')) :
    ⟨.block
      (call.before ++
        [⟨.try [⟨.expr call.call, span⟩]
            [rethrowing (fresh "exc" c)
              (fun o => .resume call.cls call.method (.aborted o))
              span],
            span⟩,
          probeAt (.resume call.cls call.method .void) span]),
      span⟩ = st := by
  simp only [Instrument.voidCall, CallSite.guarded,
    Instrument.bind_ok, Instrument.guarded_ok,
    Instrument.pure_ok] at h
  rcases h with ⟨_, _, ⟨rfl, rfl⟩, rfl, rfl⟩
  rfl

/- A call without a value that went on in the caller. -/
theorem tale_resumed
    (s : Shape)
    (cls method : String) :
    Tale s (.resume () cls method .void)
      (.resume cls method .void) :=
  ⟨rfl, nofun, .resume () cls method .void, rfl, fun _ => rfl⟩

/- A call without a value is reported in the caller. -/
theorem Attuned.sim_calledVoid
    (h : Attuned S X w p q n)
    (hk : Spare S n (j + 5) k)
    (hj : j + 4 < 8)
    {x : Run Val}
    {call : Expr}
    {span : Span}
    {cls method : String}
    (hCall : ∀ k, Spare S n (j + 2) k →
      Mirrors S s.opened (SameValue (fun _ => True) s.opened) x
        (Runner.evalForm w q (fueled w q k) call)) :
    Mirrors S s (SameEnd s)
      (do
        let _ ← X.teller.called p (X.teller.runner p n) n span cls
          method .void x
        pure Flow.normal)
      (andThen (ExecTrace.exec w q k)
        [⟨.try [⟨.expr call, span⟩]
            [rethrowing (fresh "exc" c)
              (fun o => .resume cls method (.aborted o)) span],
            span⟩,
          probeAt (.resume cls method .void) span]
        (pure .normal) pure) := by
  unfold Teller.called
  simp only [if_true, bind_assoc, pure_bind]
  refine Mirrors.step (t := fun _ => s) ?_ fun v => ?_
  · refine sim_guarded (j := j + 1) h.follows hk (hidden_fresh _ _)
      (fun k hk => ?_) fun k hk t v hv => ?_
    · refine (Sim.scopeRight (R := fun _ => True)
        (Q := fun _ flow => flow = .normal) (fun _ => s)
        (fun _ => rfl) ?_).weaken (fun _ _ hm => hm)
          (fun _ _ _ _ hm => hm) Mirrors.levelCut_of_cut
      rw [runAll_eq_andThen, andThen_cons]
      refine Sim.execRight_bind hk fun k hk => ?_
      change Sim S _ _ _ x ((do
        let _ ← ExecTrace.eval w q k call
        pure Flow.normal) >>= _)
      rw [bind_assoc, ← bind_pure x]
      refine (Sim.evalRight h.follows hk fun k hk =>
        hCall k hk).bind fun v v' => ?_
      exact Sim.pure fun _ _ hm => ⟨rfl, hm.2.2.loose⟩
    · refine h.sim_said hk (by omega) rfl ?_ span
      exact tale_aborted (reads_localVar (hidden_fresh _ _) hv) _ _
  · refine h.say (f := fun _ => pure Flow.normal) (j := j + 2) hk
      (by omega) rfl (tale_resumed s cls method) span ?_
    rw [andThen_nil]
    exact Sim.pure fun _ _ hm => ⟨rfl, hm.loose⟩

/- A call as a statement. -/
theorem Spliced.agrees_voidCall
    (h : Spliced S X w p q n)
    {callee : Callee}
    {receiver : Option Expr}
    {args : List Expr}
    {st : Stmt}
    {span pos : Span}
    (hReceiver : passOption Test.source receiver = true)
    (hArgs : passExprs Test.source args = true)
    (hPass : Instrument.discarded X.options site span
      ⟨.call callee receiver args, .void, pos⟩ c = .ok (st, c'))
    (hk : Spare S (n + 1) 8 k) :
    Agrees S (Bond.level (· = site.ret))
      (do
        let _ ← X.teller.evalForm p (X.teller.runner p n) n
          (some site) ⟨.call callee receiver args, .void, pos⟩
        pure Flow.normal)
      (ExecTrace.exec w q k st) := by
  simp only [Instrument.discarded, Instrument.bind_ok] at hPass
  rcases hPass with ⟨r, c₁, hBoundReceiver, bs, c₂, hBound, call,
    c₃, hSite, hCall⟩
  rcases Instrument.callSite_ok hSite with ⟨rfl, rfl⟩
  rcases Instrument.voidCall_ok hCall with rfl
  intro g s hs
  refine Sim.execRight hk fun k hk => ?_
  replace hk := (hk.enough (by decide)).spare
  refine agrees_inScopeRight (R := (· = site.ret))
    (fun s hs => ?_) g s hs
  rw [runAll_eq_andThen]
  cases receiver with
  | none =>
    rcases Instrument.pure_ok.mp hBoundReceiver with ⟨rfl, rfl⟩
    simp only [beforeCall, Option.toList_none, List.map_nil,
      List.nil_append, List.append_assoc, List.singleton_append,
      Teller.evalForm, bind_assoc]
    refine h.toldArgs (j := 5) hk (by decide) hs hArgs hBound
      (fun top vs _ hBounds => tale_callStatic hBounds.reads callee)
      fun top vs _ hBounds => ?_
    refine h.sim_calledVoid (j := 3) hk (by decide)
      fun k hk => ?_
    have hInside := hBounds.moved (t := Shape.opened _)
      fun _ => Shape.find?_opened
    refine Sim.givesRight (fun m m' hm =>
      gives_reads hInside.reads h.follows hk hm) ?_
    exact Mirrors.ofYields (R := fun _ => True)
      ((agrees_onClass h.paired
        (h.invoke k (hk.enough (by decide))) _ _ vs).bind
          fun _ _ => Yields.pure trivial) trivial
  | some receiver =>
    simp only [Instrument.boundReceiver, Instrument.bind_ok,
      Instrument.bindTo_ok, Instrument.pure_ok] at hBoundReceiver
    rcases hBoundReceiver with ⟨receiver', c₃, hReceiver', _, _,
      ⟨rfl, rfl⟩, rfl, rfl⟩
    have hTyReceiver := Instrument.ty_of_expr hReceiver'
    simp only [beforeCall, Option.toList_some, List.map_cons,
      List.map_nil, List.append_assoc, List.cons_append,
      Teller.evalForm, bind_assoc]
    refine h.held hk (by decide) hReceiver hReceiver' hs _ _
      fun o => ?_
    have hFound : ∀ {top : Bindings String},
        (s.hide (fresh "recv" c₃) o).Extends "arg" (c₃ + 1)
          { s with top := top } →
        ({ s with top := top } : Shape).find? (fresh "recv" c₃)
          = some o := fun hExt =>
      (hExt _ fun n _ => Instrument.fresh_ne n c₃ (by decide)
        (by decide) (by decide)).trans Shape.find?_hide
    refine h.toldArgs (j := 5) hk (by decide) (by exact hs) hArgs
      hBound (fun top vs hExt hBounds => ?_)
      fun top vs hExt hBounds => ?_
    · rw [← hTyReceiver]
      exact tale_callOn
        (reads_localVar (hidden_fresh _ _) (hFound hExt))
        hBounds.reads callee
    · refine h.sim_calledVoid (j := 3) hk (by decide)
        fun k hk => ?_
      refine Mirrors.readFirst (v := o) h.follows hk
        (hidden_fresh _ _) ?_ ?_
      · rw [Shape.find?_opened]
        exact hFound hExt
      · have hInside := hBounds.moved (t := Shape.opened _)
          fun _ => Shape.find?_opened
        refine Sim.givesRight (fun m m' hm =>
          gives_reads hInside.reads h.follows hk hm) ?_
        exact Mirrors.ofYields (R := fun _ => True)
          ((agrees_onObject h.paired
            (h.invoke k (hk.enough (by decide))) o _ vs).bind
              fun _ _ => Yields.pure trivial) trivial

end Calls

end ExecTrace
