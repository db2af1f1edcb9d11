import ExecTrace.Proofs.Splicing.Bodies

/-
  Runs of spliced programs. Every form of an expression or a
  statement agrees with what it becomes if its parts do, and code
  that is left alone agrees with itself; so, by induction on the
  fuel of the telling run, whole runs agree. A run of the
  instrumented program with a recorder is a run of the source
  program that tells what it does.

  Main declarations:
    * `Spliced.mimics_expr`
    * `Spliced.unheard`
    * `Instrument.stmtForm_ne_nil`
    * `Splice.spliced`
-/

namespace ExecTrace

open Run
open Teller (runner)
open Instrument (Site)

section Runs

variable {S : Slack}
variable {w : Observer}
variable {X : Splice}
variable {p q : Program}
variable {n k : Nat}
variable {site : Site}
variable {c c' : Nat}

------------------------------------------------------------
-- Expressions
------------------------------------------------------------

/- An expression that stays as it is, and has no parts. -/
theorem Attuned.mimics_same
    (h : Attuned S X w p q n)
    {e : Expr}
    (hForm : ∀ k, Agrees S (Bond.level (· = site.ret))
      (X.teller.evalForm p (X.teller.runner p n) n (some site) e)
      (Runner.evalForm w q (fueled w q k) e)) :
    Mimics S X w p q n site e e :=
  fun _ hk g s hs =>
    Sim.evalRight h.follows hk.spare fun k _ => hForm k g s hs

/- Every expression agrees with what it becomes. -/
theorem Spliced.mimics_expr
    (h : Spliced S X w p q n)
    {e e' : Expr}
    (he : e.passes Test.source = true)
    (hPass : Instrument.expr X.options site e c = .ok (e', c')) :
    Mimics S X w p q n site e e' := by
  rcases e with ⟨form, ty, span⟩
  replace hPass := (Instrument.checked_ok.mp hPass).1
  simp only [Expr.passes, Bool.and_eq_true] at he
  rcases he with ⟨hSource, he⟩
  cases form with
  | literal value =>
    rcases Instrument.pure_ok.mp hPass with ⟨rfl, _⟩
    exact h.mimics_same fun _ => Yields.pure trivial
  | self =>
    rcases Instrument.pure_ok.mp hPass with ⟨rfl, _⟩
    exact h.mimics_same fun _ =>
      agrees_currentSelf .noSelf .noSelf
  | letIn ss body => cases hSource
  | localVar name =>
    have hName : hidden name = false := by
      simpa [Test.source, Test.sourceExpr] using hSource
    exact h.agrees_localVar hName hPass
  | staticField cls field => exact h.agrees_staticField hPass
  | instanceField object cls field =>
    exact h.agrees_instanceField he hPass
  | index array index =>
    simp only [ExprForm.passes, Bool.and_eq_true] at he
    exact h.agrees_index he.1 he.2 hPass
  | length array => exact h.agrees_length he hPass
  | unary op arg => exact h.agrees_unary he hPass
  | binary op lhs rhs =>
    simp only [ExprForm.passes, Bool.and_eq_true] at he
    exact h.agrees_binary he.1 he.2 hPass
  | conditional cond onTrue onFalse =>
    simp only [ExprForm.passes, Bool.and_eq_true] at he
    exact h.agrees_conditional he.1.1 he.1.2 he.2 hPass
  | assign target value =>
    simp only [ExprForm.passes, Bool.and_eq_true] at he
    exact h.agrees_assign he.1 he.2 hPass
  | compoundAssign op target value =>
    simp only [ExprForm.passes, Bool.and_eq_true] at he
    exact h.agrees_compoundAssign he.1 he.2 hPass
  | step op target => exact h.agrees_step he hPass
  | call callee receiver args =>
    simp only [ExprForm.passes, Bool.and_eq_true] at he
    cases receiver with
    | none => exact h.agrees_callStatic he.2 hPass
    | some receiver => exact h.agrees_callOn he.1 he.2 hPass
  | new cls signature args => exact h.agrees_new he hPass
  | newArray element length => exact h.agrees_newArray he hPass
  | arrayOf element items => exact h.agrees_arrayOf he hPass
  | cast target arg => exact h.agrees_cast he hPass
  | typeTest arg target => exact h.agrees_typeTest he hPass
  | switch selector arms =>
    simp only [ExprForm.passes, Bool.and_eq_true] at he
    exact h.agrees_switch he.1 he.2 hPass

/- What a telling run does with an expression. -/
theorem Splice.eval_succ
    (site : Option Site)
    (e : Expr) :
    X.teller.eval p (n + 1) site e
      = (do
        let v ← (X.teller.on site).evalForm p
          (X.teller.runner p n) n site e
        watch X.observer (.value e v)
        pure v) :=
  rfl

/- The value of an expression without a value is not watched. -/
theorem Attuned.eval_void
    (h : Attuned S X w p q n)
    (site : Option Site)
    {e : Expr}
    (hTy : e.ty = .void) :
    X.teller.eval p (n + 1) site e
      = (X.teller.on site).evalForm p (X.teller.runner p n) n site
        e := by
  simp only [Splice.eval_succ, h.follows.watch_void hTy, pure_bind,
    bind_pure]

/- A value is watched by the first run if the second admits it. -/
theorem Attuned.agrees_watched
    {R : Ty → Prop}
    (h : Attuned S X w p q n)
    {e e' : Expr}
    (hTy : e'.ty = e.ty)
    {x : Run Val}
    (hForm : Agrees S (Bond.level R) x
      (ExecTrace.eval w q k e')) :
    Agrees S (Bond.level R)
      (do
        let v ← x
        watch X.observer (.value e v)
        pure v)
      (ExecTrace.eval w q k e') := by
  intro g s hs
  rw [← bind_pure (ExecTrace.eval w q k e')]
  refine ((hForm g s hs).trackingRight).bind ?_
  rintro a b m m' ⟨⟨rfl, _, hm⟩, _, _, _, hRun⟩
  rw [h.follows.watch_admitted hTy (admits_of_eval hRun),
    pure_bind]
  exact .ok ⟨rfl, trivial, hm⟩

------------------------------------------------------------
-- Code Left Alone
------------------------------------------------------------

/- The teller of code that is left alone in the second run. -/
def Splice.unheard
    (X : Splice)
    (w : Observer) : Teller :=
  { X.teller.muted with observer := w }

/- The second run of code that is left alone, at any site. -/
def unsited
    (w : Observer)
    (q : Program)
    (k : Nat) : SiteRunner :=
  ⟨fun _ => eval w q k, fun _ => exec w q k, invoke w q k⟩

/- Code that is left alone is told by nobody. -/
theorem Spliced.unheard
    (h : Spliced S X w p q n)
    (hk : Enough S n k) :
    Teller.Retold S (Bond.level fun _ => True) (fun _ _ g => g)
      (splicedPairing X.options X.exclusions) p q X.teller.muted
      (X.unheard w) (X.teller.runner p n) (unsited w q k) n k
      false Test.source where
  ahead := fun hOdd => absurd ⟨rfl, rfl⟩ hOdd
  paired := h.paired
  invokers := h.invoke k hk
  paced := hk.paced
  sourceExpr := fun _ he => he
  sourceStmt := fun _ hs => hs
  compounds := .inl rfl
  lostCalled := fun _ _ _ _ _ hLost => hLost
  tell := fun _ _ _ _ _ => Yields.pure trivial
  tellCall := fun _ _ _ _ _ _ => Sim.pure fun _ _ hm => hm
  tellResume := fun _ _ _ _ _ _ _ _ => Sim.pure fun _ _ hm => hm
  tellLeave := fun site hSite _ _ _ _ => by
    rw [Option.isSome_eq_false_iff, Option.isNone_iff_eq_none]
      at hSite
    rw [hSite]
    exact Sim.pure fun _ _ hm => hm
  lookBack := fun e v g s _ => by
    change Sim S _ _ _
      (watch X.observer (.loaded e v) >>= fun _ => pure ())
      (watch w (.loaded e v) >>= fun _ => pure ())
    rw [h.follows.coarse.watch_loaded]
    exact Sim.watchRight (x := pure ()) (y := pure ()) h.follows
      (rfl : Moment.ofValue (.loaded e v) = true)
      (Sim.pure fun _ _ hm => ⟨rfl, rfl, hm⟩)
  look := fun _ _ => Yields.pure trivial
  eval := fun site hSite e he => by
    rw [Option.isSome_eq_false_iff, Option.isNone_iff_eq_none]
      at hSite
    rw [hSite]
    exact (h.untoldEval k hk e he).weaken fun _ _ =>
      ⟨rfl, fun _ => rfl⟩
  exec := fun site hSite s hs => by
    rw [Option.isSome_eq_false_iff, Option.isNone_iff_eq_none]
      at hSite
    rw [hSite]
    exact h.untoldExec k hk s hs

/- An expression of code that is left alone. -/
theorem Spliced.agrees_untoldExpr
    (h : Spliced S X w p q n)
    (hk : Enough S (n + 1) k)
    {e : Expr}
    (he : e.passes Test.source = true) :
    Agrees S (Bond.level fun _ => True)
      (X.teller.eval p (n + 1) none e) (ExecTrace.eval w q k e) := by
  rw [Splice.eval_succ]
  refine h.agrees_watched rfl fun g s hs => ?_
  refine Sim.evalRight h.follows hk.spare fun k hk => ?_
  have hSite : (none : Option Site).isSome = false := rfl
  have hForm := (h.unheard (hk.enough (by decide))).sim_evalForm
    hSite he g s hs
  have hMute : (X.unheard w).Mute := ⟨rfl, fun _ _ _ _ _ => rfl⟩
  rw [Teller.evalForm_mute hMute
    ⟨fun _ _ => rfl, fun _ _ => rfl⟩] at hForm
  refine hForm.weaken (fun _ _ hm => hm) (fun a b m m' hm => ?_)
    fun _ _ _ hm => hm
  rcases hm with ⟨rfl | ⟨v, rfl, rfl⟩, hm⟩
  · exact ⟨rfl, trivial, hm⟩
  · exact ⟨rfl, trivial, hm⟩

/- A statement of code that is left alone. -/
theorem Spliced.keeps_untoldStmt
    (h : Spliced S X w p q n)
    (hk : Enough S (n + 1) k)
    {s : Stmt}
    (hs : s.passes Test.source = true) :
    Keeps S (Bond.level fun _ => True) none (Flow.told none)
      (X.teller.exec p (n + 1) none s)
      (ExecTrace.exec w q k s) := by
  intro g t ht ho
  refine Sim.execRight hk.spare fun k hk => ?_
  have hSite : (none : Option Site).isSome = false := rfl
  have hForm := (h.unheard (hk.enough (by decide))).keeps_execForm
    hSite hs g t ht ho
  have hMute : (X.unheard w).Mute := ⟨rfl, fun _ _ _ _ _ => rfl⟩
  rw [Teller.execForm_mute hMute
    ⟨fun _ _ => rfl, fun _ _ => rfl⟩] at hForm
  exact hForm

------------------------------------------------------------
-- Runs without Fuel
------------------------------------------------------------

/- A statement becomes one statement at least. -/
theorem Instrument.stmtForm_ne_nil
    {o : Options}
    {span : Span}
    {form : StmtForm}
    {ss : List Stmt}
    (h : Instrument.stmtForm o site span form c = .ok (ss, c')) :
    ss ≠ [] := by
  rintro rfl
  have hMore : ∀ (s : Stmt) (rest : List Stmt),
      (s :: rest = []) = False := by simp
  cases form with
  | declare name ty init =>
    cases init <;>
      simp only [Instrument.stmtForm, Instrument.bind_ok,
        Instrument.pure_ok, hMore, false_and, and_false,
        exists_false] at h
  | «return» value =>
    cases value <;>
      simp only [Instrument.stmtForm, Instrument.bind_ok,
        Instrument.pure_ok, hMore, false_and, and_false,
        exists_false] at h
  | _ =>
    simp only [Instrument.stmtForm, Instrument.looped,
      Instrument.bind_ok, Instrument.pure_ok, hMore, false_and,
      and_false, exists_false] at h

/- The first run has no fuel, and may be short of it. -/
theorem Sim.short
    {α β : Type}
    {pre : Machine → Machine → Prop}
    {post : α → β → Machine → Machine → Prop}
    {cut : Cut}
    {y : Run β}
    (h : S.short = true) :
    Sim S pre post cut
      (MonadExcept.throw Interrupt.outOfFuel : Run α) y :=
  fun m _ _ => .first (c := .outOfFuel) (m := m) h

/- Without fuel one of the runs is excused. -/
theorem Enough.spent
    (h : Enough S 0 k) :
    S.short = true ∨ S.behind = true ∧ k = 0 := by
  rcases h with ⟨hShort, _⟩ | ⟨hBehind, hk⟩
  · exact .inl hShort
  · exact .inr ⟨hBehind, by omega⟩

/- Runs of which the first one has no fuel. -/
theorem yields_unfueled
    {B : Bond}
    {α : Type}
    {P : α → Prop}
    {y : Nat → Run α}
    (hk : Enough S 0 k)
    (hy : y 0 = MonadExcept.throw Interrupt.outOfFuel) :
    Yields S B P (MonadExcept.throw Interrupt.outOfFuel)
      (y k) := by
  intro g s _
  rcases hk.spent with hShort | ⟨hBehind, rfl⟩
  · exact Sim.short hShort
  · rw [hy]
    exact Sim.behind hBehind

/- A block whose statements have no fuel. -/
theorem exec_unfueledBlock
    {ss : List Stmt}
    (hss : ss ≠ [])
    (hk : k ≤ 1)
    (span : Span)
    (m : Machine) :
    ∃ m', ExecTrace.exec w q k ⟨.block ss, span⟩ m
      = (.error .outOfFuel, m') := by
  rcases ss with _ | ⟨s, rest⟩
  · exact absurd rfl hss
  · have hFuel : k = 0 ∨ k = 1 := by omega
    rcases hFuel with rfl | rfl
    · exact ⟨m, rfl⟩
    · exact inScope_error (x := runAll (ExecTrace.exec w q 0)
        (s :: rest)) rfl

/- A call as a statement, of which no run has fuel. -/
theorem agrees_unfueledCall
    {callee : Callee}
    {receiver : Option Expr}
    {args : List Expr}
    {st : Stmt}
    {span pos : Span}
    (hPass : Instrument.discarded X.options site span
      ⟨.call callee receiver args, .void, pos⟩ c = .ok (st, c'))
    (hk : Spare S 0 8 k) :
    Agrees S (Bond.level (· = site.ret))
      (do
        let _ ← (throw .outOfFuel : Run Val)
        pure Flow.normal)
      (ExecTrace.exec w q k st) := by
  intro g s _
  rcases hk with ⟨hShort, _⟩ | ⟨hBehind, hk⟩
  · exact Sim.short (α := Flow) hShort
  · simp only [Instrument.discarded, Instrument.bind_ok] at hPass
    rcases hPass with ⟨r, c₁, _, bs, c₂, _, call, c₃, _, hCall⟩
    rcases Instrument.voidCall_ok hCall with rfl
    intro m m' _
    rcases exec_unfueledBlock (w := w) (q := q) (k := k)
        (List.append_ne_nil_of_right_ne_nil call.before
          (List.cons_ne_nil _ _)) (by omega) pos m' with
      ⟨m'', hRun⟩
    exact hRun ▸ .second hBehind

/- Runs of which the first one has no fuel agree. -/
theorem Splice.spliced_zero
    (hFollows : X.observer.Follows S w)
    (hSharp : S.Sharp)
    (hHalts : S.halts = true)
    (hFair : X.Fair w)
    (hPaired : Paired (splicedPairing X.options X.exclusions) p q) :
    Spliced S X w p q 0 where
  follows := hFollows
  sharp := hSharp
  halts := hHalts
  fair := hFair
  paired := hPaired
  invoke := fun k hk c d m m' _ self args =>
    yields_unfueled (y := fun k => ExecTrace.invoke w q k d m' self args) hk rfl
  eval := fun k hk site e _ c e' c' _ =>
    yields_unfueled (y := fun k => ExecTrace.eval w q k e') hk rfl
  callVoid := fun k hk site callee receiver args span pos _ _ c s
      c' hPass => agrees_unfueledCall hPass hk
  exec := fun k hk site s _ c ss c' hPass => by
    rcases s with ⟨form, span⟩
    cases ss with
    | nil => exact absurd rfl (Instrument.stmtForm_ne_nil hPass)
    | cons s rest =>
      exact Keeps.ofAgrees (yields_unfueled
        (y := fun k => runAll (ExecTrace.exec w q k) (s :: rest))
        hk rfl)
  boxed := fun k hk site s _ c s' c' _ =>
    .keeps (Keeps.ofAgrees (yields_unfueled
      (y := fun k => ExecTrace.exec w q k s')
      (hk.enough (by decide)) rfl))
  untoldEval := fun k hk e _ =>
    yields_unfueled (y := fun k => ExecTrace.eval w q k e) hk rfl
  untoldExec := fun k hk s _ =>
    Keeps.ofAgrees (yields_unfueled
      (y := fun k => ExecTrace.exec w q k s) hk rfl)

------------------------------------------------------------
-- Whole Runs
------------------------------------------------------------

/- Runs agree with one more unit of fuel for the first one. -/
theorem Spliced.succ
    (h : Spliced S X w p q n) : Spliced S X w p q (n + 1) where
  follows := h.follows
  sharp := h.sharp
  halts := h.halts
  fair := h.fair
  paired := h.paired
  invoke := fun _ hk => h.agrees_perform hk
  eval := fun k hk site e he c e' c' hPass => by
    rw [Splice.eval_succ]
    exact h.agrees_watched (Instrument.ty_of_expr hPass)
      (h.mimics_expr he hPass k hk)
  callVoid := fun k hk site callee receiver args span pos
      hReceiver hArgs c s c' hPass => by
    rw [h.eval_void (some site) rfl]
    exact h.agrees_voidCall hReceiver hArgs hPass hk
  exec := fun _ hk _ ⟨_, _⟩ hs _ _ _ hPass =>
    h.keeps_stmt hk hs hPass
  boxed := fun _ hk _ ⟨_, _⟩ hs _ _ _ hPass =>
    h.boxes_single hk hs hPass
  untoldEval := fun _ hk _ he => h.agrees_untoldExpr hk he
  untoldExec := fun _ hk _ hs => h.keeps_untoldStmt hk hs

/-
  A run of a source program that tells what it does agrees with
  a run of the instrumented program, whatever the fuel is.
-/
theorem Splice.spliced
    (hFollows : X.observer.Follows S w)
    (hSharp : S.Sharp)
    (hHalts : S.halts = true)
    (hFair : X.Fair w)
    (hPaired : Paired (splicedPairing X.options X.exclusions) p q)
    (n : Nat) : Spliced S X w p q n := by
  induction n with
  | zero =>
    exact Splice.spliced_zero hFollows hSharp hHalts hFair hPaired
  | succ n ih => exact ih.succ

end Runs

end ExecTrace
