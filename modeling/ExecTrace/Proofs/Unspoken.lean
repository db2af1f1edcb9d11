import ExecTrace.Proofs.Telling

/-
  A run of which nothing is told is the plain run: with a teller
  that says nothing and holds every value as it is, the direct
  semantics is the semantics of the machine.

  Main declarations:
    * `Teller.Mute`
    * `Teller.evalForm_mute`, `Teller.execForm_mute`
    * `Teller.runs_mute`
-/

namespace ExecTrace

open Run
open Instrument (Site)

namespace Teller

/- A teller that says nothing and holds values as they are. -/
structure Mute (T : Teller) : Prop where
  spliced : T.spliced = false
  tell : ∀ p i n span act, T.tell p i n span act = pure ()

/- A muted teller says nothing. -/
theorem mute_muted (T : Teller) : T.muted.Mute where
  spliced := rfl
  tell := fun _ _ _ _ _ => rfl

/- A teller that says nothing says nothing at any site. -/
theorem Mute.on
    {T : Teller}
    (hT : T.Mute)
    (site : Option Site) : (T.on site).Mute := by
  cases site with
  | none => exact T.mute_muted
  | some _ => exact hT

/- The observer of a run does not depend on the site. -/
@[simp] theorem observer_on
    (T : Teller)
    (site : Option Site) : (T.on site).observer = T.observer := by
  cases site <;> rfl

/- Nothing is done when nothing is thrown. -/
theorem onThrow_pure
    {α : Type}
    (x : Run α) : onThrow x (fun _ => pure ()) = x := by
  funext m
  unfold onThrow
  rcases hx : x m with ⟨_ | _, m'⟩
  · rename_i c
    cases c <;> rfl
  · rfl

section Mute

variable {T : Teller}
variable {p : Program}
variable {r : SiteRunner}

/- Runs of the parts of a program that do not use the site. -/
structure Siteless (r : SiteRunner) : Prop where
  eval : ∀ site site', r.eval site = r.eval site'
  exec : ∀ site site', r.exec site = r.exec site'

/- What a teller that says nothing does at each step. -/
theorem Mute.steps
    (hT : T.Mute) :
    (∀ ty v, T.keep ty v = v) ∧
    (∀ e v, T.look e v = pure ()) ∧
    (∀ p r fuel span act, T.say p r fuel span act = pure ()) ∧
    (∀ r site, T.held r site = r.eval site) ∧
    (∀ r site, T.partOfRead r site = r.eval site) ∧
    (∀ p r fuel e place v,
      T.afterRead p r fuel e place v = pure v) ∧
    (∀ p r fuel span method how,
      T.leave p r fuel span method how = pure ()) := by
  have hKeep : ∀ ty v, T.keep ty v = v := by
    intro ty v
    simp [keep, hT.spliced]
  have hLook : ∀ e v, T.look e v = pure () := by
    intro e v
    simp [look, hT.spliced]
  have hSay : ∀ p r fuel span act,
      T.say p r fuel span act = pure () := by
    intro p r fuel span act
    simp [say, hT.tell]
  have hHeld : ∀ r site, T.held r site = r.eval site := by
    intro r site
    funext e
    simp [held, hKeep]
  refine ⟨hKeep, hLook, hSay, hHeld, ?_, ?_, ?_⟩
  · intro r site
    funext e
    simp [partOfRead, hHeld]
  · intro p r fuel e place v
    simp [afterRead, hKeep, hLook, hSay]
  · intro p r fuel span method how
    simp [leave, hT.spliced]

/- An old value is watched, and no more. -/
theorem Mute.lookBack
    (hT : T.Mute)
    (target : Expr)
    (old : Val) :
    T.lookBack target old = watch T.observer (.loaded target old) := by
  rcases hT.steps with ⟨_, hLook, _, _, _, _, _⟩
  simp only [Teller.lookBack, hLook]
  exact bind_pure_unit

/- A condition of which nothing is told. -/
theorem Mute.judge
    (hT : T.Mute)
    (fuel : Nat)
    (site : Option Site)
    (cond : Expr)
    (report : Shown → Action Unit Shown) :
    T.judge p r fuel site cond report
      = truth (r.eval site) cond := by
  rcases hT.steps with ⟨_, _, hSay, hHeld, _, _, _⟩
  simp [Teller.judge, truth, hSay, hHeld]

/- The parts of a target of which nothing is told. -/
theorem Mute.placeOf
    {α : Type}
    {f : Pending × Place Shown → Run α}
    {g : Pending → Run α}
    (hT : T.Mute)
    (site : Option Site)
    (target : Expr)
    (hfg : ∀ x, f x = g x.1) :
    (T.placeOf r site target >>= f)
      = (pendingOf (r.eval site) target >>= g) := by
  rcases hT.steps with ⟨_, _, _, hHeld, _, _, _⟩
  unfold Teller.placeOf pendingOf
  cases target.form <;> simp [hHeld, hfg, Run.fault]

/- A call of which nothing is told. -/
theorem Mute.called
    (hT : T.Mute)
    (fuel : Nat)
    (span : Span)
    (cls method : String)
    (ty : Ty)
    (x : Run Val) :
    T.called p r fuel span cls method ty x = x := by
  rcases hT.steps with ⟨hKeep, _, hSay, _, _, _, _⟩
  simp [Teller.called, hSay, hKeep, onThrow_pure]

/- An expression of which nothing is told. -/
theorem evalForm_mute
    (hT : T.Mute)
    (hr : Siteless r)
    (fuel : Nat)
    (site : Option Site)
    (e : Expr) :
    T.evalForm p r fuel site e
      = Runner.evalForm T.observer p
        ⟨r.eval site, r.exec site, r.invoke⟩ e := by
  rcases hT.steps with ⟨hKeep, hLook, hSay, hHeld, hPart, hRead, _⟩
  rcases e with ⟨form, ty, span⟩
  unfold Teller.evalForm Runner.evalForm
  cases form with
  | localVar name => simp [hRead]
  | staticField cls field => simp [hRead]
  | instanceField object cls field => simp [hRead, hPart]
  | index array index => simp [hRead, hPart]
  | unary op arg => simp [hKeep, hLook, hSay, hHeld]
  | binary op lhs rhs =>
    cases op <;>
      simp [toldBinary, BinaryOp.isShortCircuit, hHeld, hSay,
        hKeep, hLook, shortCircuit, Runner.test, truth, conjunction,
        disjunction]
  | conditional cond onTrue onFalse =>
    simp only [hT.judge, Runner.test]
    congr 1
    funext b
    cases b <;> rfl
  | assign target value =>
    simp only [hSay, pure_bind]
    exact hT.placeOf site target fun _ => rfl
  | compoundAssign op target value =>
    simp only [hSay, hKeep, hHeld, hT.lookBack, combine, hT.spliced,
      pure_bind, Bool.false_eq_true, if_false]
    exact hT.placeOf site target fun _ => rfl
  | step op target =>
    simp only [hT.tell, hKeep, hT.lookBack, pure_bind]
    exact hT.placeOf site target fun _ => rfl
  | call callee receiver args =>
    cases receiver <;> simp [hSay, hHeld, hT.called]
  | new cls signature args => simp [hSay, hHeld, hT.called]
  | cast target arg => simp [hT.tell, hHeld]
  | typeTest arg target => simp [hSay, hHeld]
  | switch selector arms =>
    simp [hSay, hHeld, hr.exec _ site]
  | _ => rfl

/- A loop of which nothing is told. -/
theorem Mute.toldLoop
    (hT : T.Mute)
    (fuel : Nat)
    (kind : LoopKind)
    (span : Span)
    (loop : Run Flow) :
    T.toldLoop p r fuel kind span loop = loop := by
  rcases hT.steps with ⟨_, _, hSay, _, _, _, _⟩
  simp only [Teller.toldLoop, hSay, pure_bind]
  refine Eq.trans (bind_congr fun flow => ?_) (bind_pure loop)
  cases flow <;> rfl

/- A statement of which nothing is told. -/
theorem execForm_mute
    (hT : T.Mute)
    (hr : Siteless r)
    (fuel : Nat)
    (site : Option Site)
    (s : Stmt) :
    T.execForm p r fuel site s
      = Runner.execForm T.observer p
        ⟨r.eval site, r.exec site, r.invoke⟩ fuel s := by
  rcases hT.steps with ⟨hKeep, _, hSay, hHeld, _, _, hLeave⟩
  have hEval := fun s => hr.eval s site
  have hExec := fun s => hr.exec s site
  rcases s with ⟨form, span⟩
  unfold Teller.execForm Runner.execForm
  cases form with
  | declare name ty init => cases init <;> simp [hSay]
  | expr e => simp [hSay]
  | cond cond onTrue onFalse =>
    simp [hT.judge, Runner.test] <;> rfl
  | «while» label cond body =>
    simp [hT.toldLoop, hT.judge, hEval, hExec, Runner.test]
  | doWhile label body cond =>
    simp [hT.toldLoop, hT.judge, hEval, hExec, Runner.test]
  | «for» label init cond update body =>
    simp only [hT.toldLoop, hT.judge, hEval, hExec] <;> rfl
  | forEach label var ty iterable body =>
    simp [hT.toldLoop, hT.tell, hExec]
  | switch selector arms => simp [hSay, hHeld, hExec]
  | «return» value => cases value <;> simp [hSay, hLeave]
  | «break» label => simp [hSay]
  | «continue» label => simp [hSay]
  | yield value => simp [hSay, hHeld]
  | throw exception => simp [hSay, hHeld]
  | «try» body catches => simp [hT.tell]
  | assert cond message =>
    simp [hSay, hHeld, Runner.test, truth] <;> rfl
  | _ => rfl

/- The parts of a body in order are the body. -/
theorem runAll_splitSuper
    (ex : Stmt → Run Flow)
    (m : MethodDef)
    (body : List Stmt) :
    (do
      match ← runAll ex (splitSuper m body).1 with
      | .normal => runAll ex (splitSuper m body).2
      | flow => pure flow) = runAll ex body := by
  unfold splitSuper
  split
  · cases body with
    | nil => simp [runAll]
    | cons s rest =>
      simp only [List.take_succ_cons, List.take_zero,
        List.drop_succ_cons, List.drop_zero, runAll, bind_assoc]
      congr 1
      funext flow
      cases flow <;> simp
  · simp [runAll]

/- A body of which nothing is told. -/
theorem runBody_mute
    (hT : T.Mute)
    (hr : Siteless r)
    (fuel : Nat)
    (c : ClassDef)
    (m : MethodDef)
    (body : List Stmt) :
    T.runBody p r fuel c m body = runAll (r.exec none) body := by
  rcases hT.steps with ⟨_, _, _, _, _, _, hLeave⟩
  have hRest : ∀ site rest,
      T.restOfBody p r fuel site m rest
        = runAll (r.exec site) rest := by
    intro site rest
    simp only [restOfBody, hLeave, ite_self, pure_bind]
    refine Eq.trans (bind_congr fun flow => ?_) (bind_pure _)
    cases flow <;> rfl
  unfold runBody
  split
  · rfl
  · rw [← runAll_splitSuper (r.exec none) m body]
    simp only [entering, hT.spliced, Bool.false_eq_true, if_false,
      hLeave, onThrow_pure, hRest, pure_bind,
      hr.exec _ none] <;>
      exact bind_congr fun flow => by cases flow <;> rfl

end Mute

------------------------------------------------------------
-- Runs
------------------------------------------------------------

/- Runs of which nothing is told are the plain runs. -/
theorem runs_mute
    {T : Teller}
    (hT : T.Mute)
    (p : Program)
    (fuel : Nat) :
    (∀ site, T.eval p fuel site
      = ExecTrace.eval T.observer p fuel) ∧
    (∀ site, T.exec p fuel site
      = ExecTrace.exec T.observer p fuel) ∧
    T.invoke p fuel = ExecTrace.invoke T.observer p fuel := by
  induction fuel with
  | zero => exact ⟨fun _ => rfl, fun _ => rfl, rfl⟩
  | succ fuel ih =>
    rcases ih with ⟨hEval, hExec, hInvoke⟩
    have hr : Siteless
        ⟨T.eval p fuel, T.exec p fuel, T.invoke p fuel⟩ :=
      ⟨fun s s' => by simp only [hEval],
        fun s s' => by simp only [hExec]⟩
    refine ⟨?_, ?_, ?_⟩
    · intro site
      funext e
      rw [Teller.eval, ExecTrace.eval,
        evalForm_mute (hT.on site) hr, observer_on]
      simp only [hEval, hExec, hInvoke]
    · intro site
      funext s
      rw [Teller.exec, ExecTrace.exec,
        execForm_mute (hT.on site) hr, observer_on]
      simp only [hEval, hExec, hInvoke]
    · funext c m self args
      have hBody : T.runBody p
            ⟨T.eval p fuel, T.exec p fuel, T.invoke p fuel⟩ fuel
            c m
          = runAll (ExecTrace.exec T.observer p fuel) := by
        funext body
        rw [runBody_mute hT hr]
        simp only [hExec]
      rw [Teller.invoke, ExecTrace.invoke, Teller.perform,
        Runner.perform, hBody, hInvoke]

end Teller

end ExecTrace
