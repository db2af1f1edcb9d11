import ExecTrace.Instrument.Program
import ExecTrace.Machine.Host
import ExecTrace.Proofs.Source

/-
  Directed runs. A source program is run at the sites at which
  it is instrumented. A jump is aimed, when it is executed, at
  the construct that resolution selects at its site: the aim
  tells how many constructs lie between the jump and that one,
  and the target that is reported. On its way out the jump is
  absorbed by the rules of the plain interpreter, which know of
  no aims. A run is stopped as misdirected if a construct absorbs
  a jump that is not aimed at it, or lets one pass that is, and
  as stray if a jump is executed that has no landing.

  Main declarations:
    * `Aim`, `aim?` and `aim?_eq_some`
    * `Aimed`, `Aimed.land` and `Aimed.leave`
    * `AimedRunner.evalForm` and `AimedRunner.execForm`
    * `evalAt`, `execAt` and `invokeAt`
    * `Test.unspliced`
-/

namespace ExecTrace

open Run
open Instrument

------------------------------------------------------------
-- Aims
------------------------------------------------------------

/-
  Where a jump leads: the number of constructs between it and
  the one on which it lands, and the target that is reported.
-/
structure Aim where
  between : Nat
  target : JumpTarget
  deriving DecidableEq

/- The aim of a jump by its resolution. -/
def aim?
    (around : List Landing)
    (jump : Jump)
    (label : Option String) : Option Aim :=
  (resolve? around jump label).map fun target =>
    ⟨around.findIdx fun l => l.accepts jump label, target⟩

/- A jump lands on the innermost construct or further out. -/
theorem aim?_cons
    (l : Landing)
    (around : List Landing)
    (jump : Jump)
    (label : Option String) :
    aim? (l :: around) jump label =
      if l.accepts jump label then some ⟨0, l.target label⟩
      else (aim? around jump label).map fun a =>
        ⟨a.between + 1, a.target⟩ := by
  unfold aim? resolve?
  rw [List.find?_cons]
  cases hAccepts : l.accepts jump label with
  | true => simp [List.findIdx_cons, hAccepts]
  | false =>
    simp [List.findIdx_cons, hAccepts, Function.comp_def]

/-
  The construct at which a jump is aimed is the innermost one
  that accepts it, and its kind and position are reported.
-/
theorem aim?_eq_some
    {around : List Landing}
    {jump : Jump}
    {label : Option String}
    {aim : Aim}
    (h : aim? around jump label = some aim) :
    ∃ l, around[aim.between]? = some l ∧
      l.accepts jump label = true ∧
      aim.target = l.target label ∧
      ∀ outer ∈ around.take aim.between,
        outer.accepts jump label = false := by
  induction around generalizing aim with
  | nil => cases h
  | cons l around ih =>
    rw [aim?_cons] at h
    cases hAccepts : l.accepts jump label with
    | true =>
      rw [hAccepts, if_pos rfl] at h
      cases h
      exact ⟨l, rfl, hAccepts, rfl, by simp⟩
    | false =>
      simp only [hAccepts, Bool.false_eq_true, if_false,
        Option.map_eq_some_iff] at h
      rcases h with ⟨inner, hInner, rfl⟩
      rcases ih hInner with ⟨k, hAt, hk, hTarget, hBefore⟩
      refine ⟨k, by simpa using hAt, hk, hTarget, ?_⟩
      simpa [hAccepts] using hBefore

/- How a statement ends, and where the jump is aimed at. -/
structure Aimed where
  flow : Flow
  aim : Option Aim := none

/- Why a run is stopped at a jump without a landing. -/
def stray : String := "stray"

/- Why a run is stopped where a jump misses its aim. -/
def misdirected : String := "misdirected"

namespace Aimed

/- A statement that is done. -/
def done : Aimed := ⟨.normal, none⟩

/- A jump is executed at a site. -/
def start
    (site : Site)
    (jump : Jump)
    (label : Option String)
    (flow : Flow) : Run Aimed :=
  match aim? site.around jump label with
  | some aim => pure ⟨flow, some aim⟩
  | none => throw (.stopped stray)

/- A construct absorbs a jump that should be aimed at it. -/
def land
    (l : Landing)
    (label : Option String)
    (a : Aimed) : Run Unit :=
  if a.aim = some ⟨0, l.target label⟩ then pure ()
  else throw (.stopped misdirected)

/- A construct lets pass what should not be aimed at it. -/
def leave (a : Aimed) : Run Aimed :=
  match a.aim with
  | none => pure a
  | some ⟨0, _⟩ => throw (.stopped misdirected)
  | some ⟨n + 1, target⟩ => pure ⟨a.flow, some ⟨n, target⟩⟩

/- A method ends, which no jump should be aimed across. -/
def finish (a : Aimed) : Run Flow :=
  match a.aim with
  | none => pure a.flow
  | some _ => throw (.stopped misdirected)

end Aimed

------------------------------------------------------------
-- Control Flow
------------------------------------------------------------

/- Run statements one after the other. -/
def runAllAt
    (execute : Stmt → Run Aimed) : List Stmt → Run Aimed
  | [] => pure .done
  | s :: rest => do
    let a ← execute s
    match a.flow with
    | .normal => runAllAt execute rest
    | _ => pure a

/- Run the rounds of a loop until one of them ends it. -/
def iterateAt
    (round : Nat → Run (Option Aimed)) :
    Nat → Nat → Run Aimed
  | 0, _ => throw .outOfFuel
  | fuel + 1, i => do
    match ← round i with
    | some a => pure a
    | none => iterateAt round fuel (i + 1)

/- Run the body of a loop once. -/
def loopRoundAt
    (execute : Stmt → Run Aimed)
    (l : Landing)
    (body : Stmt) : Run (Option Aimed) := do
  let a ← inScope (execute body)
  match a.flow with
  | .normal => pure none
  | .continue label =>
    if landsOn label l.label then do
      a.land l label
      pure none
    else do
      pure (some (← a.leave))
  | .break label =>
    if landsOn label l.label then do
      a.land l label
      pure (some .done)
    else do
      pure (some (← a.leave))
  | _ => do
    pure (some (← a.leave))

/- A round that is run only while a condition holds. -/
def roundWhileAt
    (cond : Run Bool)
    (round : Run (Option Aimed)) : Run (Option Aimed) := do
  if ← cond then round else pure (some .done)

/- A round that is followed by a condition for the next one. -/
def roundUntilAt
    (round : Run (Option Aimed))
    (cond : Run Bool) : Run (Option Aimed) := do
  match ← round with
  | some a => pure (some a)
  | none => if ← cond then pure none else pure (some .done)

/- A round with the item of an array at an index. -/
def roundOverAt
    (address : Nat)
    (var : String)
    (ty : Ty)
    (round : Run (Option Aimed))
    (i : Nat) : Run (Option Aimed) := do
  match ((← get).heap.itemsOf address)[i]? with
  | none => pure (some .done)
  | some item =>
    inScope do
      declareLocal var (item.convert ty)
      round

/- Run some statements in front of a loop in its scope. -/
def initializedAt
    (execute : Stmt → Run Aimed)
    (init : List Stmt)
    (loop : Run Aimed) : Run Aimed :=
  inScope do
    match (← runAllAt execute init).flow with
    | .normal => loop
    | _ => fault .initializer

/- Run arms of a switch statement until a jump leaves it. -/
def runArmsAt
    (execute : List Stmt → Run Aimed)
    (l : Landing) : List Arm → Run Aimed
  | [] => pure .done
  | arm :: rest => do
    let a ← execute arm.body
    match a.flow with
    | .normal => runArmsAt execute l rest
    | .break none => do
      a.land l none
      pure .done
    | _ => a.leave

/- Run arms of a switch expression until one yields a value. -/
def yieldFromArmsAt
    (execute : List Stmt → Run Aimed)
    (l : Landing) : List Arm → Run Val
  | [] => fault .noYield
  | arm :: rest => do
    let a ← execute arm.body
    match a.flow with
    | .normal => yieldFromArmsAt execute l rest
    | .yield v => do
      a.land l none
      pure v
    | flow => faultEscaped .escapedSwitch flow

/- Run a switch statement on a value. -/
def switchOnAt
    (p : Program)
    (execute : Stmt → Run Aimed)
    (l : Landing)
    (selector : Val)
    (arms : List Arm) : Run Aimed := do
  let selected ← selectArm p selector arms
  if selected.isEmpty then pure .done
  else inScope (runArmsAt (runAllAt execute) l selected)

/- The value of a switch expression on a value. -/
def switchValueAt
    (p : Program)
    (execute : Stmt → Run Aimed)
    (l : Landing)
    (selector : Val)
    (arms : List Arm) : Run Val := do
  let selected ← selectArm p selector arms
  if selected.isEmpty then
    raise p "MatchException"
      ("no arm for " ++ (← get).heap.text selector)
  else inScope (yieldFromArmsAt (runAllAt execute) l selected)

/- Run something, and a handler if it throws. -/
def catchingAt
    (body : Run Aimed)
    (handle : Val → Run Aimed) : Run Aimed := fun m =>
  match body m with
  | (.error (.throw exception), m) => handle exception m
  | other => other

/- Run the first handler for an exception, or throw it again. -/
def runHandlerAt
    (p : Program)
    (execute : Catch → Run Aimed)
    (catches : List Catch)
    (exception : Val) : Run Aimed := do
  let h := (← get).heap
  match catches.find? fun c => Call.catches p h exception c.ty with
  | none => throw (.throw exception)
  | some c =>
    inScope do
      declareLocal c.param exception
      execute c

------------------------------------------------------------
-- Forms
------------------------------------------------------------

/- A way to run the parts of a program at sites. -/
structure AimedRunner where
  eval : Site → Expr → Run Val
  exec : Site → Stmt → Run Aimed
  invoke : Invoker

namespace AimedRunner

/- The parts of a program at a site, without aims. -/
def on
    (r : AimedRunner)
    (site : Site) : Runner where
  eval := r.eval site
  exec s := do pure (← r.exec site s).flow
  invoke := r.invoke

/- Evaluate an expression at a site. -/
def evalForm
    (p : Program)
    (r : AimedRunner)
    (site : Site)
    (e : Expr) : Run Val :=
  match e.form with
  | .switch selector arms => do
    let l : Landing := ⟨.switchExpr, none, e.span⟩
    let selector ← r.eval site selector
    let v ←
      switchValueAt p (r.exec (site.inside l)) l selector arms
    pure (v.convert e.ty)
  | _ => Runner.evalForm .silent p (r.on site) e

/- The rounds of a loop, whose landing is `l`, run at a site. -/
def loopAt
    (r : AimedRunner)
    (site : Site)
    (l : Landing)
    (rounds : Nat)
    (round : Runner → Run (Option Aimed) → Nat → Run (Option Aimed))
    (body : Stmt) : Run Aimed :=
  let inner := site.inside l
  iterateAt
    (round (r.on inner) (loopRoundAt (r.exec inner) l body))
    rounds 0

/- Run a statement at a site. -/
def execForm
    (p : Program)
    (r : AimedRunner)
    (rounds : Nat)
    (site : Site)
    (s : Stmt) : Run Aimed :=
  match s.form with
  | .block stmts => inScope (runAllAt (r.exec site) stmts)
  | .cond cond onTrue onFalse => do
    if ← truth (r.eval site) cond then
      inScope (r.exec site onTrue)
    else
      match onFalse with
      | some onFalse => inScope (r.exec site onFalse)
      | none => pure .done
  | .while label cond body =>
    r.loopAt site ⟨.loop .while, label, s.span⟩ rounds
      (fun inner round _ => roundWhileAt (inner.test cond) round)
      body
  | .doWhile label body cond =>
    r.loopAt site ⟨.loop .doWhile, label, s.span⟩ rounds
      (fun inner round _ => roundUntilAt round (inner.test cond))
      body
  | .for label init cond update body =>
    initializedAt (r.exec site) init
      (r.loopAt site ⟨.loop .for, label, s.span⟩ rounds
        (fun inner round _ =>
          roundWhileAt (goesOn inner.test cond)
            (roundUntilAt round (performAll inner.eval update)))
        body)
  | .forEach label var ty iterable body => do
    let address ← iterated p (← r.eval site iterable)
    r.loopAt site ⟨.loop .forEach, label, s.span⟩ rounds
      (fun _ round => roundOverAt address var ty round)
      body
  | .switch selector arms => do
    let l : Landing := ⟨.switch, none, s.span⟩
    let selector ← r.eval site selector
    switchOnAt p (r.exec (site.inside l)) l selector arms
  | .break label => Aimed.start site .break label (.break label)
  | .continue label =>
    Aimed.start site .continue label (.continue label)
  | .yield value => do
    let v ← r.eval site value
    Aimed.start site .yield none (.yield v)
  | .try body catches =>
    catchingAt (inScope (runAllAt (r.exec site) body))
      (runHandlerAt p (fun c => runAllAt (r.exec site) c.body)
        catches)
  | _ => do
    let flow ← Runner.execForm .silent p (r.on site) rounds s
    pure ⟨flow, none⟩

end AimedRunner

------------------------------------------------------------
-- Directed Runs
------------------------------------------------------------

/- The site of the body of a method. -/
def bodySite
    (owner : ClassDef)
    (m : MethodDef) : Site :=
  { cls := owner.name, method := m.name, ret := m.ret }

mutual

/- Evaluate an expression at a site. -/
def evalAt
    (p : Program) : Nat → Site → Expr → Run Val
  | 0, _, _ => throw .outOfFuel
  | fuel + 1, site, e =>
    AimedRunner.evalForm p
      ⟨evalAt p fuel, execAt p fuel, invokeAt p fuel⟩ site e

/- Run a statement at a site. -/
def execAt
    (p : Program) : Nat → Site → Stmt → Run Aimed
  | 0, _, _ => throw .outOfFuel
  | fuel + 1, site, s =>
    AimedRunner.execForm p
      ⟨evalAt p fuel, execAt p fuel, invokeAt p fuel⟩ fuel site s

/- Run a method at the site of its body. -/
def invokeAt
    (p : Program) : Nat → Invoker
  | 0, _, _, _, _ => throw .outOfFuel
  | fuel + 1, owner, m, self, args =>
    activate .silent p (invokeAt p fuel)
      (fun body => do
        let a ← runAllAt (execAt p fuel (bodySite owner m)) body
        a.finish)
      owner m self args

end

namespace Test

end Test

end ExecTrace
