import ExecTrace.Proofs.Provision
import ExecTrace.Proofs.Retention

/-
  Probes only read finished bindings. In an instrumented source
  program every probe is ready when it is run, so an inspector
  that lets ready probes pass never stops a run.

  Main declarations:
    * `Inspects`
    * `truths_evalForm`
    * `retains_evalForm`, `secures_execForm`, `retains_perform`
    * `inspects_runs`
    * `probes_read_finished_bindings`
-/

namespace ExecTrace

open Run

------------------------------------------------------------
-- Forms
------------------------------------------------------------

/-
  An inspected way to run the parts of a program and the plain
  way: settled trees are run alike. Behind a settled expression
  its truths are known, and a variable is looked up.
-/
structure Inspects
    (p : Program)
    (r r' : Runner) : Prop where
  eval : ∀ Γ e, e.Settled Γ →
    Retains Γ Val (r.eval e) (r'.eval e)
  exec : SecuresAll r.exec r'.exec
  invoke : ∀ Γ, Congruence.Invokers (Retains Γ) p r.invoke r'.invoke
  found : ∀ {name ty span m v m'},
    r'.eval ⟨.localVar name, ty, span⟩ m = (.ok v, m') →
      m' = m ∧ m.locals.get? name = some v
  truths : ∀ {Γ : Known} {e m v m'} name, e.Settled Γ →
    Γ.Binds m.locals → r'.eval e m = (.ok v, m') →
      ∀ x ∈ e.truths name,
        (∃ b, v.asBool? = some b) ∧
          (x = name ∨ m'.locals.Truth x)

------------------------------------------------------------
-- Truths
------------------------------------------------------------

section Truths

variable {Γ : Known}
variable {p : Program}
variable {r r' : Runner}
variable {m m' : Machine}
variable {v : Val}

/- A condition that holds or does not is a truth value. -/
theorem truth_returned
    {ev : Expr → Run Val}
    {e : Expr}
    {b : Bool}
    (h : truth ev e m = (.ok b, m')) :
    ∃ u, ev e m = (.ok u, m') ∧ u.asBool? = some b := by
  rcases bind_returned h with ⟨u, n, hu, hTruth⟩
  unfold truthOf at hTruth
  cases hBool : u.asBool? with
  | none =>
    rw [hBool] at hTruth
    cases hTruth
  | some c =>
    rw [hBool] at hTruth
    cases hTruth
    exact ⟨u, hu, hBool⟩

/- A conjunction has a truth value once its first part has. -/
theorem conjunction_returned
    {l k : Run Bool}
    (h : conjunction l k m = (.ok v, m')) :
    ∃ b n c, l m = (.ok b, n) ∧ v = .bool c ∧
      (n = m' ∨ k n = (.ok c, m')) := by
  rcases bind_returned h with ⟨b, n, hl, hRest⟩
  cases b with
  | true =>
    rcases bind_returned hRest with ⟨c, n', hk, hPure⟩
    cases hPure
    exact ⟨true, n, c, hl, rfl, .inr hk⟩
  | false =>
    cases hRest
    exact ⟨false, m', false, hl, rfl, .inl rfl⟩

/- A disjunction has a truth value once its first part has. -/
theorem disjunction_returned
    {l k : Run Bool}
    (h : disjunction l k m = (.ok v, m')) :
    ∃ b n c, l m = (.ok b, n) ∧ v = .bool c ∧
      (n = m' ∨ k n = (.ok c, m')) := by
  rcases bind_returned h with ⟨b, n, hl, hRest⟩
  cases b with
  | true =>
    cases hRest
    exact ⟨true, m', true, hl, rfl, .inl rfl⟩
  | false =>
    rcases bind_returned hRest with ⟨c, n', hk, hPure⟩
    cases hPure
    exact ⟨false, n, c, hl, rfl, .inr hk⟩

/-
  The left operand of a short-circuit operator that has a value
  is a truth, and stays one while the right one is evaluated.
-/
theorem truths_shortCircuit
    (h : Inspects p r r')
    {lhs rhs : Expr}
    {b c : Bool}
    {n : Machine}
    (name : String)
    (hRight : rhs.Settled Γ)
    (hm : Γ.Binds m.locals)
    (hTest : r'.test lhs m = (.ok b, n))
    (hRest : n = m' ∨ r'.test rhs n = (.ok c, m')) :
    ∀ x ∈ name :: lhs.fixed, x = name ∨ m'.locals.Truth x := by
  intro x hx
  rcases List.mem_cons.mp hx with rfl | hx
  · exact .inl rfl
  rcases lhs with ⟨form, ty, span⟩
  cases form with
  | localVar y =>
    unfold Expr.fixed at hx
    dsimp only at hx
    split at hx
    · rename_i hFixed
      rcases List.mem_singleton.mp hx with rfl
      rcases truth_returned hTest with ⟨u, hu, hBool⟩
      rcases h.found hu with ⟨rfl, hGet⟩
      have hTruth : n.locals.Truth x := ⟨u, b, hGet, hBool⟩
      rcases hRest with rfl | hRest
      · exact .inr hTruth
      · have hKept := (congruence_retains.truth
          (h.eval Γ rhs hRight) n hm).2.1
        rw [show truth r'.eval rhs n = _ from hRest] at hKept
        exact .inr (hTruth.kept hFixed hKept)
    · cases hx
  | _ => cases hx

/- The truths of a settled expression are known behind it. -/
theorem truths_evalForm
    (h : Inspects p r r')
    {e : Expr}
    (name : String)
    (he : e.Settled Γ)
    (hm : Γ.Binds m.locals)
    (hRun : Runner.evalForm .silent p r' e m = (.ok v, m')) :
    ∀ x ∈ e.truths name,
      (∃ b, v.asBool? = some b) ∧
        (x = name ∨ m'.locals.Truth x) := by
  rcases e with ⟨form, ty, span⟩
  cases form with
  | binary op lhs rhs =>
    cases op with
    | and =>
      rcases conjunction_returned hRun with
        ⟨b, n, c, hTest, rfl, hRest⟩
      intro x hx
      exact ⟨⟨c, rfl⟩, truths_shortCircuit h name he.2 hm hTest
        hRest x hx⟩
    | or =>
      rcases disjunction_returned hRun with
        ⟨b, n, c, hTest, rfl, hRest⟩
      intro x hx
      exact ⟨⟨c, rfl⟩, truths_shortCircuit h name he.2 hm hTest
        hRest x hx⟩
    | _ => exact List.forall_mem_nil _
  | typeTest arg target =>
    rcases bind_returned hRun with ⟨u, n, _, hLook⟩
    cases hLook
    intro x hx
    exact ⟨⟨_, rfl⟩, .inl (List.mem_singleton.mp hx)⟩
  | _ => exact List.forall_mem_nil _

end Truths

section Forms

variable {Γ : Known}
variable {p : Program}
variable {r r' : Runner}

/- A settled expression is evaluated. -/
theorem retains_evalForm
    (h : Inspects p r r')
    {e : Expr}
    (he : e.Settled Γ) :
    Retains Γ Val (Runner.evalForm .silent p r e)
      (Runner.evalForm .silent p r' e) := by
  rcases e with ⟨form, ty, span⟩
  cases hNested : form.isNested with
  | false =>
    exact congruence_retains.evalForm (h.invoke Γ) hNested
      (fun x hx => h.eval Γ x (ExprForm.parts_settled he x hx))
      fun name hName =>
        retains_setLocal (ExprForm.assigned_settled he name hName)
  | true =>
    cases form with
    | switch selector arms =>
      refine congruence_retains.bind (h.eval Γ selector he.1)
        fun v => ?_
      exact congruence_retains.map
        (retains_switchValue h.exec v he.2) _
    | letIn stmts body =>
      unfold Runner.evalForm
      refine Grows.inScope ?_
      refine (secures_runAll h.exec he.1).bind
        (h.eval _ body he.2).grows fun flow hFlow => ?_
      cases flow with
      | normal => exact absurd rfl hFlow
      | _ => exact (congruence_retains.faultEscaped _ _).grows
    | _ => cases hNested

/- A variable is found when it is evaluated. -/
theorem evalForm_found
    {name : String}
    {ty : Ty}
    {span : Span}
    {m m' : Machine}
    {v : Val}
    (h : Runner.evalForm .silent p r' ⟨.localVar name, ty, span⟩ m
      = (.ok v, m')) :
    m' = m ∧ m.locals.get? name = some v := by
  change getLocal name m = (.ok v, m') at h
  unfold getLocal at h
  rw [get_bind_apply] at h
  cases hName : m.locals.get? name with
  | none =>
    rw [hName] at h
    cases h
  | some u =>
    rw [hName] at h
    cases h
    exact ⟨rfl, rfl⟩

/- A declaration makes its variable known, and its truths. -/
theorem secures_declare
    (h : Inspects p r r')
    {name : String}
    {ty : Ty}
    {init : Option Expr}
    {span : Span}
    (rounds : Nat)
    (hInit : settledOption Γ init) :
    Secures Γ (Γ.after ⟨.declare name ty init, span⟩)
      (Runner.execForm .silent p r rounds
        ⟨.declare name ty init, span⟩)
      (Runner.execForm .silent p r' rounds
        ⟨.declare name ty init, span⟩) := by
  have hDeclare : ∀ v, Grows Γ Flow
      (declareLocal name v >>= fun _ => pure .normal)
      (declareLocal name v >>= fun _ => pure .normal) :=
    fun v => Grows.declare (congruence_retains.pure _).grows
  cases init with
  | none =>
    refine ⟨hDeclare _, ?_⟩
    rintro m _ hm ⟨⟩
    exact hm.plus name _
  | some init =>
    refine ⟨(h.eval Γ init hInit).grows.bind fun v => ?_, ?_⟩
    · exact Grows.declare (congruence_retains.pure _).grows
    · intro m m' hm hRun
      rcases bind_returned hRun with ⟨v, n, hv, hRest⟩
      cases hRest
      have hKept := (h.eval Γ init hInit m hm.binds).2.1
      rw [hv] at hKept
      refine (hm.kept hKept).declare fun x hx => ?_
      rcases h.truths name hInit hm.binds hv x hx with
        ⟨⟨b, hb⟩, hKnown⟩
      exact ⟨⟨b, Val.asBool?_convert ty hb⟩, hKnown⟩

/- Whether a condition of a loop holds, or there is none. -/
theorem retains_goesOn
    (h : Inspects p r r')
    {cond : Option Expr}
    (hCond : settledOption Γ cond) :
    Retains Γ Bool (goesOn r.test cond) (goesOn r'.test cond) := by
  refine congruence_retains.goesOn fun e he => ?_
  cases he
  exact h.eval Γ e hCond

/- Expressions are evaluated for their effects. -/
theorem retains_performAll
    (h : Inspects p r r')
    {es : List Expr}
    (hes : settledExprs Γ es) :
    Retains Γ Bool (performAll r.eval es) (performAll r'.eval es) :=
  congruence_retains.performAll fun e he =>
    h.eval Γ e (settled_of_settledExprs hes e he)

/- A settled statement that is no declaration. -/
theorem retains_execForm
    (h : Inspects p r r')
    {s : Stmt}
    (rounds : Nat)
    (hs : s.Settled Γ)
    (hOther : s.form.isDeclare = false) :
    Retains Γ Flow (Runner.execForm .silent p r rounds s)
      (Runner.execForm .silent p r' rounds s) := by
  rcases s with ⟨form, span⟩
  cases hPlain : form.isPlain with
  | true =>
    exact congruence_retains.execForm (h.invoke Γ) hPlain
      (fun x hx =>
        h.eval Γ x (StmtForm.parts_settled hPlain hs x hx)) rounds
  | false =>
    unfold Runner.execForm
    cases form with
    | block stmts => exact retains_block h.exec hs
    | cond cond onTrue onFalse =>
      refine congruence_retains.bind
        (congruence_retains.truth (h.eval Γ cond hs.1)) fun b => ?_
      cases b with
      | true => exact retains_scoped h.exec hs.2.1
      | false =>
        cases onFalse with
        | none => exact congruence_retains.pure _
        | some onFalse => exact retains_scoped h.exec hs.2.2
    | «while» label cond body =>
      exact congruence_retains.iterate
        (fun _ => congruence_retains.roundWhile
          (congruence_retains.truth (h.eval Γ cond hs.1))
          (retains_loopRound h.exec label hs.2)) rounds 0
    | doWhile label body cond =>
      exact congruence_retains.iterate
        (fun _ => congruence_retains.roundUntil
          (retains_loopRound h.exec label hs.1)
          (congruence_retains.truth (h.eval Γ cond hs.2))) rounds 0
    | «for» label init cond update body =>
      refine retains_initialized h.exec hs.1 ?_
      exact congruence_retains.iterate
        (fun _ => congruence_retains.roundWhile
          (retains_goesOn h hs.2.1)
          (congruence_retains.roundUntil
            (retains_loopRound h.exec label hs.2.2.2)
            (retains_performAll h hs.2.2.1))) rounds 0
    | forEach label var ty iterable body =>
      refine congruence_retains.bind (h.eval Γ iterable hs.1)
        fun v => ?_
      refine congruence_retains.bind (congruence_retains.iterated v)
        fun address => ?_
      exact congruence_retains.iterate
        (retains_roundOver address ty
          (retains_loopRound h.exec label hs.2)) rounds 0
    | switch selector arms =>
      exact congruence_retains.bind (h.eval Γ selector hs.1)
        fun v => retains_switchOn h.exec v hs.2
    | «break» label => exact congruence_retains.pure _
    | «continue» label => exact congruence_retains.pure _
    | yield value =>
      exact congruence_retains.map (h.eval Γ value hs) _
    | «try» body catches =>
      exact retains_catching (retains_block h.exec hs.1)
        fun v => retains_runHandler h.exec hs.2 v
    | probe probe =>
      refine congruence_retains.bind ?_ fun _ => ?_
      · cases probe <;> exact congruence_retains.pure _
      · refine congruence_retains.bind (retains_report
          (fun e he => h.eval Γ e he) (h.invoke Γ) rounds hs span)
          fun _ => ?_
        refine congruence_retains.bind ?_
          fun _ => congruence_retains.pure _
        cases probe <;> exact congruence_retains.pure _
    | declare name ty init => cases hOther
    | _ => cases hPlain

/- A settled statement is run. -/
theorem secures_execForm
    (h : Inspects p r r')
    {s : Stmt}
    (rounds : Nat)
    (hs : s.Settled Γ) :
    Secures Γ (Γ.after s) (Runner.execForm .silent p r rounds s)
      (Runner.execForm .silent p r' rounds s) := by
  rcases s with ⟨form, span⟩
  cases hDeclare : form.isDeclare with
  | true =>
    cases form with
    | declare name ty init => exact secures_declare h rounds hs
    | _ => cases hDeclare
  | false =>
    have hAfter : Γ.after ⟨form, span⟩ = Γ.forget := by
      cases form with
      | declare name ty init => cases hDeclare
      | _ => rfl
    rw [hAfter]
    exact (retains_execForm h rounds hs hDeclare).secures

/- A call starts with a scope for its variables. -/
theorem holds_startLocals
    (owner : ClassDef)
    (m : MethodDef)
    (self : Option Val)
    (args : List Val) :
    Known.Holds {} (startLocals owner m self args) := by
  refine List.foldlRecOn _ _ ?_
    fun l hl pair _ => hl.grown Locals.grown_declare
  exact ⟨List.cons_ne_nil _ _, List.forall_mem_nil _,
    List.forall_mem_nil _⟩

/- A method with a settled body is run. -/
theorem retains_perform
    (h : Inspects p r r')
    {owner : ClassDef}
    {m : MethodDef}
    (hm : Instrument.Provided m)
    (self : Option Val)
    (args : List Val) :
    Retains Γ Val (Runner.perform .silent p r owner m self args)
      (Runner.perform .silent p r' owner m self args) := by
  refine congruence_retains.activate fun body hBody => ?_
  refine congruence_retains.bind ?_
    fun flow => congruence_retains.resultOf owner m flow
  refine congruence_retains.inFrame _ rfl ?_
  refine Grows.withLocals ?_ (holds_startLocals owner m self args)
  refine Grows.bind (congruence_retains.constructAbove
    (h.invoke _) owner m body self).grows fun _ => ?_
  refine (secures_runAll h.exec (hm body hBody _)).grows.bind
    fun flow => ?_
  refine Retains.grows ?_
  cases flow <;> exact congruence_retains.pure _

end Forms

------------------------------------------------------------
-- Instrumented Programs
------------------------------------------------------------

section Programs

variable {o : Instrument.Options}
variable {p q : Program}
variable {k : Inspector}

/- An inspector that lets ready probes pass. -/
def Inspector.Lenient
    (k : Inspector)
    (p : Program) : Prop :=
  ∀ probe m, Probe.Ready p probe m → k probe m = none

/- A settled statement passes a lenient inspector. -/
theorem inspect_settled
    {Γ : Known}
    {s : Stmt}
    {m : Machine}
    (hk : k.Lenient q)
    (hs : s.Settled Γ)
    (hm : Γ.Holds m.locals) : inspect k s m = (.ok (), m) := by
  rcases s with ⟨form, span⟩
  cases form with
  | probe probe =>
    unfold inspect
    dsimp only
    rw [hk probe m (Probe.ready_of_settled hm hs)]
  | _ => rfl

/- Inspected runs with some fuel are plain runs. -/
theorem inspects_runs
    (hk : k.Lenient q)
    (hq : ∀ c m, q.Declares c m → Instrument.Provided m)
    (fuel : Nat) :
    Inspects q
      ⟨evalInspected k q fuel, execInspected k q fuel,
        invokeInspected k q fuel⟩
      ⟨eval .silent q fuel, exec .silent q fuel,
        invoke .silent q fuel⟩ := by
  induction fuel with
  | zero =>
    refine ⟨fun _ _ _ => congruence_retains.cut _ rfl,
      fun Γ _ _ => ⟨(congruence_retains.cut _ rfl).grows, ?_⟩,
      fun _ _ _ _ _ _ => congruence_retains.cut _ rfl, ?_, ?_⟩
    · intro m m' _ h
      cases h
    · intro name ty span m v m' h
      cases h
    · intro Γ e m v m' name _ _ h
      cases h
  | succ fuel ih =>
    refine ⟨?_, ?_, ?_, ?_, ?_⟩
    · intro Γ e he
      simp only [eval, evalInspected, watch_silent, pure_bind,
        bind_pure]
      exact retains_evalForm ih he
    · intro Γ s hs
      have hForm := secures_execForm ih fuel hs
      simp only [exec, execInspected]
      refine ⟨fun m hm => ?_, hForm.known⟩
      rw [bind_ok (inspect_settled hk hs hm)]
      exact hForm.grows m hm
    · intro Γ c m hm self args
      exact retains_perform ih (hq c m hm) self args
    · intro name ty span m v m' h
      simp only [eval, watch_silent, pure_bind, bind_pure] at h
      exact evalForm_found h
    · intro Γ e m v m' name he hm h
      simp only [eval, watch_silent, pure_bind, bind_pure] at h
      exact truths_evalForm ih name he hm h

/-
  What an inspected run has to do with the plain run: they are
  one run, and the inspector has not stopped it.
-/
structure Passed
    {α : Type}
    (inspected plain : End α) : Prop where
  same : inspected = plain
  unstopped : ∀ why, inspected.1 ≠ .error (.stopped why)

/- Runs that are one without any knowledge pass inspection. -/
theorem Retains.passed
    {β : Type}
    {x y : Run β}
    (h : Retains {} β x y)
    (m : Machine) : Passed (x m) (y m) := by
  rcases h m (List.forall_mem_nil _) with ⟨hSame, _, hRunning⟩
  refine ⟨hSame, fun why hStop => ?_⟩
  rw [hSame] at hStop
  cases hRunning _ hStop

/-
  In an instrumented source program every probe is ready when it
  is run, by a call of a host or for the text of a value, whether
  anything is recorded or not: all its operands have values, its
  flags are truth values, and to find them leaves the machine as
  it is. So an inspector that stops a run at probes that are not
  ready only never stops a run.
-/
theorem probes_read_finished_bindings
    (hSource : p.passes Test.source = true)
    (hInstrument : instrument o p = .ok q)
    (hk : k.Lenient q) :
    (∀ fuel cls method args m,
      Passed (Machine.requestInspected k q fuel cls method args m)
        (Machine.request .silent q fuel cls method args m)) ∧
    ∀ fuel via v m,
      Passed (Call.textOf q (invokeInspected k q fuel) via v m)
        (Call.textOf q (invoke .silent q fuel) via v m) := by
  have hRuns := inspects_runs hk
    (provided_of_instrument hSource hInstrument)
  refine ⟨fun fuel cls method args m => ?_,
    fun fuel via v m => ?_⟩
  · exact Retains.passed (congruence_retains.inFrame _ rfl
      (congruence_retains.onClass ((hRuns fuel).invoke {}) cls
        method args)) m
  · exact Retains.passed
      (congruence_retains.textOf ((hRuns fuel).invoke {}) via v) m

/- The inspector that tries to take the action of a probe. -/
def Inspector.trying (p : Program) : Inspector :=
  fun probe m =>
    match probe.take (eval .silent p 2) m with
    | (.ok _, _) => none
    | (.error _, _) => some "unready"

/- The action of a ready probe can be taken. -/
theorem lenient_trying
    (p : Program) : (Inspector.trying p).Lenient p := by
  rintro probe m ⟨action, hAction⟩
  unfold Inspector.trying
  rw [hAction 0]

end Programs

/-
  A program with a cast, a test for a type and a call in the
  right operand of a conjunction.
-/
def checkingProgram : Program :=
  let o := Expr.localVar "o" (.cls "Object")
  let flip := Expr.callStatic "Main" "flip" [.bool false] .bool
  ⟨[{ name := "Main"
      methods := [
        { name := "main"
          kind := .static
          ret := .bool
          body := some [
            .declare "o" (.cls "Object")
              (some (.literal (.str "text"))),
            .declare "s" .str (some (.cast .str o)),
            .ofForm (.return (some
              (.binary .and (.typeTest o .str) flip)))] },
        { name := "flip"
          kind := .static
          params := [⟨"b", .bool⟩]
          ret := .bool
          body := some [
            .ofForm (.return (some
              (.unary .not (.localVar "b" .bool))))] }] }]⟩

/-
  Its probes are inspected, and while a recorder is attached no
  run is stopped where their actions can be taken.
-/
theorem probes_read_finished_bindings_checking :
    ∃ q, instrument {} checkingProgram = .ok q ∧
      (Machine.requestInspected (fun _ _ => some "seen") q 40
        "Main" "main" [] {}).1 = .error (.stopped "seen") ∧
      (Machine.requestInspected (.trying q) q 40 "Main" "main" []
        { recorder := some {} }).1 = .ok (.bool true) := by
  have hInstrument : ∃ q, instrument {} checkingProgram = .ok q :=
    ⟨_, rfl⟩
  rcases hInstrument with ⟨q, hq⟩
  have hMapped : (instrument {} checkingProgram).toOption.map
      (fun q =>
        ((Machine.requestInspected (fun _ _ => some "seen") q 40
          "Main" "main" [] {}).1,
        (Machine.request .silent q 40 "Main" "main" []
          { recorder := some {} }).1))
      = some (.error (.stopped "seen"), .ok (.bool true)) := by
    decide +kernel
  rw [hq] at hMapped
  have hRuns := Option.some.inj hMapped
  have hPassed := (probes_read_finished_bindings
    (p := checkingProgram) (by decide) hq (lenient_trying q)).1 40
      "Main" "main" [] { recorder := some {} }
  refine ⟨q, hq, congrArg Prod.fst hRuns, ?_⟩
  rw [hPassed.same]
  exact congrArg Prod.snd hRuns

end ExecTrace
