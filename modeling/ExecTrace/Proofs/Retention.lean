import ExecTrace.Proofs.Reporting

/-
  Runs that retain what is known. Two runs are compared that are
  one run, and never stopped, on the machines where something is
  known of the local variables. An expression keeps every scope,
  a statement may also declare variables in the innermost one,
  and behind a statement that ends normally more may be known.

  Main declarations:
    * `Retains`, `Grows` and `Secures`
    * `congruence_retains`
    * `secures_runAll` and `Grows.inScope`
    * `retains_loopRound` and other constructs
    * `reporting_retains` and `retains_report`
-/

namespace ExecTrace

open Run

------------------------------------------------------------
-- Runs that Keep Variables
------------------------------------------------------------

/- An end of a run that is no stop. -/
def Running
    {β : Type}
    (r : Except Interrupt β) : Prop :=
  ∀ c, r = .error c → c.isStop = false

/-
  Two runs that are one where some variables are bound. They
  keep every scope and are not stopped.
-/
def Retains
    (Γ : Known)
    (β : Type)
    (x y : Run β) : Prop :=
  ∀ m, Γ.Binds m.locals →
    x m = y m ∧ m.locals.Kept (y m).2.locals ∧ Running (y m).1

/-
  Two runs that are one where something is known. They may
  declare variables in the innermost scope.
-/
def Grows
    (Γ : Known)
    (β : Type)
    (x y : Run β) : Prop :=
  ∀ m, Γ.Holds m.locals →
    x m = y m ∧ m.locals.Grown (y m).2.locals ∧ Running (y m).1

/-
  Two runs that are one where something is known, and behind
  which something is known if they end normally.
-/
structure Secures
    (Γ Δ : Known)
    (x y : Run Flow) : Prop where
  grows : Grows Γ Flow x y
  known : ∀ m m', Γ.Holds m.locals →
    y m = (.ok .normal, m') → Δ.Holds m'.locals

section Relations

variable {Γ Δ : Known}
variable {α β : Type}

/- A result is no stop. -/
theorem running_ok
    (b : β) : Running (.ok b : Except Interrupt β) :=
  fun _ h => by cases h

/-
  What a sequence does to the local variables on a machine, from
  what its first part does, and its second part behind it.
-/
theorem bind_same
    {L : Locals → Locals → Prop}
    (hTrans : ∀ {j k l}, L j k → L k l → L j l)
    {x y : Run α}
    {f g : α → Run β}
    {m : Machine}
    (hx : x m = y m ∧ L m.locals (y m).2.locals ∧
      Running (y m).1)
    (hf : ∀ a m', y m = (.ok a, m') → L m.locals m'.locals →
      f a m' = g a m' ∧ L m'.locals (g a m').2.locals ∧
        Running (g a m').1) :
    (x >>= f) m = (y >>= g) m ∧
      L m.locals ((y >>= g) m).2.locals ∧
      Running ((y >>= g) m).1 := by
  rcases hx with ⟨hSame, hFirst, hRunning⟩
  rw [bind_apply, bind_apply, hSame]
  rcases hy : y m with ⟨r, m'⟩
  rw [hy] at hFirst hRunning
  cases r with
  | error c =>
    refine ⟨rfl, hFirst, ?_⟩
    rintro _ ⟨⟩
    exact hRunning c rfl
  | ok a =>
    rcases hf a m' hy hFirst with ⟨hNext, hSecond, hEnd⟩
    exact ⟨hNext, hTrans hFirst hSecond, hEnd⟩

/- What follows runs that keep variables. -/
theorem Retains.bind
    {x y : Run α}
    {f g : α → Run β}
    (hx : Retains Γ α x y)
    (hf : ∀ a, Retains Γ β (f a) (g a)) :
    Retains Γ β (x >>= f) (y >>= g) :=
  fun m hm =>
    bind_same (L := Locals.Kept) ScopesKept.trans (hx m hm)
      fun a m' _ hKept => hf a m' (hm.kept hKept)

/- A step of the machine that keeps the variables. -/
theorem retains_step
    {x : Run β}
    (hKept : ∀ m : Machine, m.locals.Kept (x m).2.locals)
    (hRunning : ∀ m, Running (x m).1) : Retains Γ β x x :=
  fun m _ => ⟨rfl, hKept m, hRunning m⟩

/- Runs that keep variables are a congruence. -/
theorem congruence_retains : Congruence (Retains Γ) where
  pure b := retains_step (fun _ => .refl) fun _ => running_ok b
  bind hx hf := hx.bind hf
  look hf := fun m hm => hf m m hm
  cut c hc := by
    refine retains_step (fun _ => .refl) fun _ => ?_
    rintro _ ⟨⟩
    exact Interrupt.isStop_of_isOwn hc
  alter f hf := by
    refine retains_step (fun m => ?_) fun m => running_ok _
    have hSame : (f m).2.locals = m.locals := hf.locals m
    exact hSame ▸ Locals.Kept.refl
  inFrame {β x y} frame _ h := by
    intro m hm
    rcases h { m with frames := frame :: m.frames } hm with
      ⟨hSame, hKept, hRunning⟩
    unfold ExecTrace.inFrame
    rw [hSame]
    generalize y { m with frames := frame :: m.frames } = r
      at hKept hRunning ⊢
    rcases r with ⟨r, m'⟩
    cases r with
    | error c => cases c <;> exact ⟨rfl, hKept, hRunning⟩
    | ok b => exact ⟨rfl, hKept, hRunning⟩

/- More variables may be bound. -/
theorem Retains.weaken
    {x y : Run β}
    (h : Retains Γ β x y)
    (hBound : Γ.bound ⊆ Δ.bound) : Retains Δ β x y :=
  fun m hm => h m fun x hx => hm x (hBound hx)

/- Runs that keep variables declare none. -/
theorem Retains.grows
    {x y : Run β}
    (h : Retains Γ β x y) : Grows Γ β x y := by
  intro m hm
  rcases h m hm.binds with ⟨hSame, hKept, hRunning⟩
  exact ⟨hSame, hKept.grown, hRunning⟩

/- What is bound is known behind runs that keep variables. -/
theorem Retains.secures
    {x y : Run Flow}
    (h : Retains Γ Flow x y) : Secures Γ Γ.forget x y where
  grows := h.grows
  known m m' hm hy := by
    have hKept := (h m hm.binds).2.1
    rw [hy] at hKept
    exact hm.kept hKept

/- What follows runs that may declare variables. -/
theorem Grows.bind
    {x y : Run α}
    {f g : α → Run β}
    (hx : Grows Γ α x y)
    (hf : ∀ a, Grows Γ.forget β (f a) (g a)) :
    Grows Γ β (x >>= f) (y >>= g) :=
  fun m hm =>
    bind_same (L := Locals.Grown) ScopesGrown.trans (hx m hm)
      fun a m' _ hGrown => hf a m' (hm.grown hGrown)

/- What follows a normal end, and what follows another one. -/
theorem Secures.bind
    {x y : Run Flow}
    {f g : Flow → Run β}
    (hx : Secures Γ Δ x y)
    (hNormal : Grows Δ β (f .normal) (g .normal))
    (hOther : ∀ flow, flow ≠ .normal →
      Grows Γ.forget β (f flow) (g flow)) :
    Grows Γ β (x >>= f) (y >>= g) := by
  intro m hm
  refine bind_same (L := Locals.Grown) ScopesGrown.trans
    (hx.grows m hm) fun flow m' hy hGrown => ?_
  by_cases hFlow : flow = .normal
  · subst hFlow
    exact hNormal m' (hx.known m m' hm hy)
  · exact hOther flow hFlow m' (hm.grown hGrown)

/- What is declared in a scope is gone behind it. -/
theorem Grows.inScope
    {x y : Run β}
    (h : Grows Γ.forget β x y) :
    Retains Γ β (ExecTrace.inScope x) (ExecTrace.inScope y) := by
  intro m hm
  rcases h
      { m with
        locals := { m.locals with scopes := [] :: m.locals.scopes } }
      hm.enter with
    ⟨hSame, hGrown, hRunning⟩
  unfold ExecTrace.inScope
  dsimp only
  rw [hSame]
  exact ⟨rfl, kept_of_left hGrown, hRunning⟩

/- A variable is declared. -/
theorem Grows.declare
    {f g : Unit → Run β}
    {name : String}
    {v : Val}
    (h : Grows (Γ.plus name) β (f ()) (g ())) :
    Grows Γ β (declareLocal name v >>= f)
      (declareLocal name v >>= g) := by
  intro m hm
  rcases h { m with locals := m.locals.declare name v }
      (hm.plus name v) with
    ⟨hSame, hGrown, hRunning⟩
  exact ⟨hSame, ScopesGrown.trans Locals.grown_declare hGrown,
    hRunning⟩

/- Other local variables are gone behind a run with them. -/
theorem Grows.withLocals
    {locals : Locals}
    {x y : Run β}
    (h : Grows Δ β x y)
    (hLocals : Δ.Holds locals) :
    Retains Γ β (ExecTrace.withLocals locals x)
      (ExecTrace.withLocals locals y) := by
  intro m _
  rcases h { m with locals := locals } hLocals with
    ⟨hSame, _, hRunning⟩
  unfold ExecTrace.withLocals
  rw [hSame]
  exact ⟨rfl, .refl, hRunning⟩

/- A variable that is not fixed may be set. -/
theorem retains_setLocal
    {name : String}
    (h : isFixed name = false) :
    Congruence.Sets (Retains Γ) name := by
  intro v m hm
  unfold setLocal
  rw [get_bind_apply]
  cases hSet : m.locals.set? name v with
  | none =>
    refine ⟨rfl, .refl, ?_⟩
    rintro _ ⟨⟩
    rfl
  | some locals =>
    exact ⟨rfl, Locals.kept_set h hSet, running_ok _⟩

end Relations

------------------------------------------------------------
-- Sequences and Loops
------------------------------------------------------------

section Sequences

variable {Γ Δ : Known}
variable {ex ex' : Stmt → Run Flow}

/- Statements are run alike where they are settled. -/
def SecuresAll (ex ex' : Stmt → Run Flow) : Prop :=
  ∀ Γ s, s.Settled Γ → Secures Γ (Γ.after s) (ex s) (ex' s)

/- Settled statements are run one after the other. -/
theorem secures_runAll
    (hEx : SecuresAll ex ex')
    {ss : List Stmt}
    (h : settledAll Γ ss) :
    Secures Γ (Γ.afterAll ss) (runAll ex ss) (runAll ex' ss) := by
  induction ss generalizing Γ with
  | nil =>
    refine ⟨(congruence_retains.pure _).grows, ?_⟩
    rintro m _ hm ⟨⟩
    exact hm
  | cons s rest ih =>
    have hFirst := hEx Γ s h.1
    have hRest := ih h.2
    refine ⟨hFirst.bind hRest.grows fun flow hFlow => ?_, ?_⟩
    · cases flow with
      | normal => exact absurd rfl hFlow
      | _ => exact (congruence_retains.pure _).grows
    · intro m m' hm hRun
      rcases bind_returned hRun with ⟨flow, m'', hy, hNext⟩
      cases flow with
      | normal =>
        exact hRest.known m'' m' (hFirst.known m m'' hm hy) hNext
      | _ => cases hNext

/- Settled statements are run in a scope of their own. -/
theorem retains_block
    (hEx : SecuresAll ex ex')
    {ss : List Stmt}
    (h : settledAll Γ.forget ss) :
    Retains Γ Flow (inScope (runAll ex ss))
      (inScope (runAll ex' ss)) :=
  (secures_runAll hEx h).grows.inScope

/- A settled statement is run in a scope of its own. -/
theorem retains_scoped
    (hEx : SecuresAll ex ex')
    {s : Stmt}
    (h : s.Settled Γ.forget) :
    Retains Γ Flow (inScope (ex s)) (inScope (ex' s)) :=
  (hEx _ s h).grows.inScope

/- The body of a loop is run once. -/
theorem retains_loopRound
    (hEx : SecuresAll ex ex')
    (label : Option String)
    {body : Stmt}
    (h : body.Settled Γ.forget) :
    Retains Γ (Option Flow) (loopRound ex label body)
      (loopRound ex' label body) :=
  congruence_retains.loopRound (retains_scoped hEx h) label

/- A round with an item of an array in a variable. -/
theorem retains_roundOver
    {var : String}
    {round round' : Run (Option Flow)}
    (address : Nat)
    (ty : Ty)
    (h : Retains (Γ.plus var) (Option Flow) round round')
    (i : Nat) :
    Retains Γ (Option Flow) (roundOver address var ty round i)
      (roundOver address var ty round' i) :=
  congruence_retains.roundOver
    (fun _ => (Grows.declare h.grows).inScope) address ty i

/- Statements in front of a loop are run in its scope. -/
theorem retains_initialized
    (hEx : SecuresAll ex ex')
    {init : List Stmt}
    {loop loop' : Run Flow}
    (hInit : settledAll Γ.forget init)
    (hLoop : Retains Γ Flow loop loop') :
    Retains Γ Flow (initialized ex init loop)
      (initialized ex' init loop') := by
  have hInner : Retains Γ.forget.forget Flow loop loop' :=
    hLoop.weaken fun _ hx => hx
  refine Grows.inScope ?_
  refine (secures_runAll hEx hInit).grows.bind fun flow => ?_
  cases flow with
  | normal => exact hInner.grows
  | _ => exact (congruence_retains.fault _).grows

end Sequences

------------------------------------------------------------
-- Switches and Handlers
------------------------------------------------------------

section Switches

variable {Γ Δ : Known}
variable {p : Program}
variable {ex ex' : Stmt → Run Flow}
variable {arms : List Arm}

/- Arms may declare variables in the scope of their switch. -/
theorem carries_grows : Carries Run Run (Grows Γ.forget) where
  pure _ := (congruence_retains.pure _).grows
  bind hx hf := hx.bind hf

/- The arms of a switch statement are run. -/
theorem grows_runArms
    (hEx : SecuresAll ex ex')
    (h : ∀ arm ∈ arms, settledAll Γ.forget arm.body) :
    Grows Γ.forget Flow (runArms (runAll ex) arms)
      (runArms (runAll ex') arms) :=
  carries_grows.runArms fun arm harm =>
    (secures_runAll hEx (h arm harm)).grows

/- The arms of a switch expression are run. -/
theorem grows_yieldFromArms
    (hEx : SecuresAll ex ex')
    (h : ∀ arm ∈ arms, settledAll Γ.forget arm.body) :
    Grows Γ.forget Val (yieldFromArms (runAll ex) arms)
      (yieldFromArms (runAll ex') arms) :=
  carries_grows.yieldFromArms (congruence_retains.fault _).grows
    (fun _ => (congruence_retains.faultEscaped _ _).grows)
    fun arm harm => (secures_runAll hEx (h arm harm)).grows

/- A switch statement is run on a value. -/
theorem retains_switchOn
    (hEx : SecuresAll ex ex')
    (selector : Val)
    (h : settledArms Γ arms) :
    Retains Γ Flow (switchOn p ex selector arms)
      (switchOn p ex' selector arms) := by
  refine congruence_retains.switchOn
    (fun selected hSelected => ?_) selector
  exact (grows_runArms hEx fun arm harm =>
    settledAll_of_settledArms h arm (hSelected arm harm)).inScope

/- A switch expression on a value. -/
theorem retains_switchValue
    (hEx : SecuresAll ex ex')
    (selector : Val)
    (h : settledArms Γ arms) :
    Retains Γ Val (switchValue p ex selector arms)
      (switchValue p ex' selector arms) := by
  refine congruence_retains.switchValue
    (fun selected hSelected => ?_) selector
  exact (grows_yieldFromArms hEx fun arm harm =>
    settledAll_of_settledArms h arm (hSelected arm harm)).inScope

/- A handler is run if something is thrown. -/
theorem retains_catching
    {body body' : Run Flow}
    {handle handle' : Val → Run Flow}
    (hBody : Retains Γ Flow body body')
    (hHandle : ∀ v, Retains Γ Flow (handle v) (handle' v)) :
    Retains Γ Flow (catching body handle)
      (catching body' handle') := by
  intro m hm
  rcases hBody m hm with ⟨hSame, hKept, hRunning⟩
  unfold catching
  rw [hSame]
  generalize body' m = r at hKept hRunning ⊢
  rcases r with ⟨r, m'⟩
  cases r with
  | ok flow => exact ⟨rfl, hKept, hRunning⟩
  | error c =>
    cases c with
    | throw v =>
      rcases hHandle v m' (hm.kept hKept) with
        ⟨hNext, hNextKept, hEnd⟩
      exact ⟨hNext, hKept.trans hNextKept, hEnd⟩
    | _ => exact ⟨rfl, hKept, hRunning⟩

/- The handler for an exception is run. -/
theorem retains_runHandler
    (hEx : SecuresAll ex ex')
    {catches : List Catch}
    (h : settledCatches Γ catches)
    (exception : Val) :
    Retains Γ Flow
      (runHandler p (fun c => runAll ex c.body) catches exception)
      (runHandler p (fun c => runAll ex' c.body) catches
        exception) := by
  refine congruence_retains.runHandler fun c hc => ?_
  exact (Grows.declare (secures_runAll hEx
    (settledAll_of_settledCatches h c hc)).grows).inScope

end Switches

------------------------------------------------------------
-- Reports
------------------------------------------------------------

section Reports

variable {Γ : Known}
variable {p : Program}
variable {i j : Invoker}

/- A text that the program may fail to give. -/
theorem retains_textUnlessThrown
    {x y : Run String}
    (h : Retains Γ String x y) :
    Retains Γ (Option String) (textUnlessThrown x)
      (textUnlessThrown y) := by
  intro m hm
  rcases h m hm with ⟨hSame, hKept, hRunning⟩
  unfold textUnlessThrown
  rw [hSame]
  generalize y m = r at hKept hRunning ⊢
  rcases r with ⟨r, m'⟩
  cases r with
  | ok text => exact ⟨rfl, hKept, running_ok _⟩
  | error c =>
    cases c with
    | throw v => exact ⟨rfl, hKept, running_ok _⟩
    | fault cause => exact ⟨rfl, hKept, running_ok _⟩
    | stopped why => cases hRunning _ rfl
    | _ =>
      refine ⟨rfl, hKept, ?_⟩
      rintro _ ⟨⟩
      rfl

/- The recorder refuses an action, which is no stop. -/
theorem running_misuse
    {β : Type}
    (r : Recorder.Misuse) :
    Running (.error (misuse r) : Except Interrupt β) := by
  rintro _ ⟨⟩
  rfl

/- An action is recorded. -/
theorem retains_record
    {capture capture' : Live → Run Snapshot}
    (h : ∀ l, Retains Γ Snapshot (capture l) (capture' l))
    (a : Action Unit Live)
    (span : Span) :
    Retains Γ (Option EventId)
      (record Machine.slot misuse capture a span)
      (record Machine.slot misuse capture' a span) := by
  intro m hm
  unfold record
  cases hSlot : (Machine.slot.get m).bind Recorder.suspend? with
  | none => exact ⟨rfl, .refl, running_ok _⟩
  | some r =>
    rcases congruence_retains.mapAction a h (Machine.slot.set r m) hm
      with ⟨hSame, hKept, hRunning⟩
    simp only [ExceptT.run]
    rw [hSame]
    generalize a.mapM capture' (Machine.slot.set r m) = e
      at hKept hRunning
    rcases e with ⟨captured, m'⟩
    have hReleased : m.locals.Kept
        (Machine.slot.update .release m').locals := by
      rw [locals_update]
      exact hKept
    cases captured with
    | error c =>
      refine ⟨rfl, hReleased, ?_⟩
      rintro _ ⟨⟩
      exact hRunning c rfl
    | ok b =>
      dsimp only
      split
      · exact ⟨rfl, hKept, running_ok _⟩
      · split
        · exact ⟨rfl, hReleased, running_misuse _⟩
        · exact ⟨rfl, hKept, running_ok _⟩

/- Runs that keep variables report alike. -/
theorem reporting_retains : Reporting (Retains Γ) where
  toCongruence := congruence_retains
  panic _ := retains_step (fun _ => .refl) fun _ => by
    rintro _ ⟨⟩
    rfl
  textUnlessThrown := retains_textUnlessThrown
  record := retains_record

/- The current activation is marked. -/
theorem retains_markInstrumented :
    Retains Γ Unit markInstrumented markInstrumented :=
  retains_step (fun m => by
    unfold markInstrumented
    rw [modify_apply]
    split <;> exact .refl) fun _ => running_ok _

/- A probe is run whose operands are evaluated alike. -/
theorem retains_report
    {ev ev' : Expr → Run Val}
    (hEval : ∀ e, e.Settled Γ → Retains Γ Val (ev e) (ev' e))
    (hi : Congruence.Invokers (Retains Γ) p i j)
    (fuel : Nat)
    {probe : Probe Operand}
    (hProbe : probe.Settled Γ)
    (span : Span) :
    Retains Γ Unit (report .silent p ev i fuel probe span)
      (report .silent p ev' j fuel probe span) :=
  reporting_retains.report (fun _ => retains_markInstrumented)
    (fun o ho => hEval o.expr
      (Operand.expr_settled (hProbe.operands o ho)))
    hi fuel span

end Reports

end ExecTrace
