import ExecTrace.Machine.Location
import ExecTrace.Machine.Observer
import ExecTrace.Machine.Report

/-
  This file runs programs. Expressions, statements and calls
  run with a supply of fuel that every step inwards and every
  round of a loop draws on, so that a run always ends; what a
  run does never depends on the supply otherwise. What the
  forms of the language do is defined for any way of running
  their parts.

  Key definitions include:
    * `Runner`
    * `iterate`
    * `runAll`
    * `loopRound`
    * `selectArm`
    * `Runner.evalForm`
    * `Runner.execForm`
    * `Runner.perform`
    * `eval`
    * `exec`
    * `invoke`
-/

namespace ExecTrace

open Run

------------------------------------------------------------
-- Conditions and loops
------------------------------------------------------------

/- The truth value that the condition `e` came to. -/
def truthOf
    (e : Expr)
    (v : Val) : Run Bool :=
  match v.asBool? with
  | some b => pure b
  | none => faultShowing (.condition e.text) v

/- Whether a condition holds. -/
def truth
    (evaluate : Expr → Run Val)
    (e : Expr) : Run Bool := do
  let v ← evaluate e
  truthOf e v

/-
  Run the rounds of a loop, counted from `i`, until one of them
  ends the loop.
-/
def iterate
    (round : Nat → Run (Option Flow)) :
    Nat → Nat → Run Flow
  | 0, _ => throw .outOfFuel
  | fuel + 1, i => do
    match ← round i with
    | some flow => pure flow
    | none => iterate round fuel (i + 1)

/- Run statements one after the other. -/
def runAll
    (execute : Stmt → Run Flow) : List Stmt → Run Flow
  | [] => pure .normal
  | s :: rest => do
    match ← execute s with
    | .normal => runAll execute rest
    | flow => pure flow

/- Whether a jump with a label lands on a loop with a label. -/
def landsOn : Option String → Option String → Bool
  | none, _ => true
  | some jump, label => label == some jump

/-
  Run the body of a loop once. There is no result if the loop
  goes on.
-/
def loopRound
    (execute : Stmt → Run Flow)
    (label : Option String)
    (body : Stmt) : Run (Option Flow) := do
  match ← inScope (execute body) with
  | .normal => pure none
  | .continue jump =>
    if landsOn jump label then pure none
    else pure (some (.continue jump))
  | .break jump =>
    if landsOn jump label then pure (some .normal)
    else pure (some (.break jump))
  | flow => pure (some flow)

/- A round that is run only while a condition holds. -/
def roundWhile
    (cond : Run Bool)
    (round : Run (Option Flow)) : Run (Option Flow) := do
  if ← cond then round else pure (some .normal)

/- A round that is followed by a condition for the next one. -/
def roundUntil
    (round : Run (Option Flow))
    (cond : Run Bool) : Run (Option Flow) := do
  match ← round with
  | some flow => pure (some flow)
  | none => if ← cond then pure none else pure (some .normal)

/- A round with the item of an array at an index. -/
def roundOver
    (address : Nat)
    (var : String)
    (ty : Ty)
    (round : Run (Option Flow))
    (i : Nat) : Run (Option Flow) := do
  match ((← get).heap.itemsOf address)[i]? with
  | none => pure (some .normal)
  | some item =>
    inScope do
      declareLocal var (item.convert ty)
      round

/- The address of the array that a loop goes over. -/
def iterated
    (p : Program) : Val → Run Nat
  | .arr a => pure a
  | .null => raiseNull p "iterate over"
  | v => faultNaming .iterated v

/- Run some statements in front of a loop in its scope. -/
def initialized
    (execute : Stmt → Run Flow)
    (init : List Stmt)
    (loop : Run Flow) : Run Flow :=
  inScope do
    match ← runAll execute init with
    | .normal => loop
    | _ => fault .initializer

/- Whether a loop with such a condition goes on. -/
def goesOn
    (test : Expr → Run Bool) : Option Expr → Run Bool
  | some cond => test cond
  | none => pure true

/- Evaluate expressions for their effects. -/
def performAll
    (evaluate : Expr → Run Val)
    (es : List Expr) : Run Bool := do
  let _ ← es.mapM evaluate
  pure true

------------------------------------------------------------
-- Switches and handlers
------------------------------------------------------------

/- The arms of a switch from the one that a value selects. -/
def selectArm
    (p : Program)
    (selector : Val)
    (arms : List Arm) : Run (List Arm) := do
  if selector.isNull then raiseNull p "switch on"
  else
    let matching := arms.dropWhile fun arm =>
      !arm.labels.any selector.matchesLabel
    if matching.isEmpty then
      pure (arms.dropWhile fun arm => !arm.isDefault)
    else pure matching

/- Run arms of a switch statement until a jump leaves it. -/
def runArms
    (execute : List Stmt → Run Flow) : List Arm → Run Flow
  | [] => pure .normal
  | arm :: rest => do
    match ← execute arm.body with
    | .normal => runArms execute rest
    | .break none => pure .normal
    | flow => pure flow

/- Run arms of a switch expression until one yields a value. -/
def yieldFromArms
    (execute : List Stmt → Run Flow) : List Arm → Run Val
  | [] => fault .noYield
  | arm :: rest => do
    match ← execute arm.body with
    | .normal => yieldFromArms execute rest
    | .yield v => pure v
    | flow => faultEscaped .escapedSwitch flow

/- Run a switch statement on a value. -/
def switchOn
    (p : Program)
    (execute : Stmt → Run Flow)
    (selector : Val)
    (arms : List Arm) : Run Flow := do
  let selected ← selectArm p selector arms
  if selected.isEmpty then pure .normal
  else inScope (runArms (runAll execute) selected)

/- The value of a switch expression on a value. -/
def switchValue
    (p : Program)
    (execute : Stmt → Run Flow)
    (selector : Val)
    (arms : List Arm) : Run Val := do
  let selected ← selectArm p selector arms
  if selected.isEmpty then
    raise p "MatchException"
      ("no arm for " ++ (← get).heap.text selector)
  else inScope (yieldFromArms (runAll execute) selected)

/- Run something, and a handler if it throws. -/
def catching
    (body : Run Flow)
    (handle : Val → Run Flow) : Run Flow := fun m =>
  match body m with
  | (.error (.throw exception), m) => handle exception m
  | other => other

/- Run the first handler for an exception, or throw it again. -/
def runHandler
    (p : Program)
    (execute : Catch → Run Flow)
    (catches : List Catch)
    (exception : Val) : Run Flow := do
  let h := (← get).heap
  match catches.find? fun c => Call.catches p h exception c.ty with
  | none => throw (.throw exception)
  | some c =>
    inScope do
      declareLocal c.param exception
      execute c

/- Throw a value. -/
def throwValue
    (p : Program)
    (v : Val) : Run Flow :=
  match v with
  | .null => raiseNull p "throw"
  | v => throw (.throw v)

------------------------------------------------------------
-- Operators and arrays
------------------------------------------------------------

/- The parts of a target, evaluated. -/
def pendingOf
    (evaluate : Expr → Run Val)
    (target : Expr) : Run Pending :=
  match target.form with
  | .localVar name => pure (.localVar name)
  | .staticField cls field => pure (.static cls field)
  | .instanceField object _ field => do
    pure (.member (← evaluate object) field)
  | .index array index => do
    let array ← evaluate array
    let index ← evaluate index
    pure (.element array index)
  | _ => fault (.notAssignable target.text)

/-
  Apply an operator; the static type of the result tells whether
  texts are joined.
-/
def applyBinary
    (p : Program)
    (invoke : Invoker)
    (op : BinaryOp)
    (l r : Val)
    (ty : Ty) : Run Val := do
  if op = .add ∧ ty = .str then
    let left ← Call.textOf p invoke "concat" l
    let right ← Call.textOf p invoke "concat" r
    pure (.str (left ++ right))
  else ofOperator p (Val.binary op l r)

/- Whether two conditions hold, the second one if it matters. -/
def conjunction (l r : Run Bool) : Run Val := do
  if ← l then pure (.bool (← r)) else pure (.bool false)

/- Whether one of two conditions holds. -/
def disjunction (l r : Run Bool) : Run Val := do
  if ← l then pure (.bool true) else pure (.bool (← r))

/- The value that a step moves to from a value. -/
def stepped
    (p : Program)
    (invoke : Invoker)
    (op : StepOp)
    (ty : Ty)
    (old : Val) : Run Val :=
  applyBinary p invoke (if op.isIncrement then .add else .sub) old
    (.int 1) ty.promoteUnary

/- The number of items of an array. -/
def lengthOf
    (p : Program) : Val → Run Val
  | .arr a => do
    let n := ((← get).heap.itemsOf a).size
    pure (.int (Int32.ofNat n))
  | .null => raiseNull p "read the length of"
  | v => faultNaming .lengthOf v

/- A new array with a length. -/
def arrayOfLength
    (p : Program)
    (element : Ty)
    (length : Val) : Run Val :=
  match length.asInt? with
  | none => faultShowing .arrayLength length
  | some n =>
    if n.toInt < 0 then
      raise p "NegativeArraySizeException" (toString n.toInt)
    else
      newArray element
        (List.replicate n.toInt.toNat (Val.defaultOf element))

/- The object that the current method was called on. -/
def currentSelf (cause : Fault) : Run Val := do
  match (← get).locals.self with
  | some v => pure v
  | none => fault cause

------------------------------------------------------------
-- Probes
------------------------------------------------------------

/- Watch a method that is about to report its end. -/
def watchBefore
    (w : Observer) : Probe Operand → Run Unit
  | .exit method _ => watch w (.leaving method)
  | _ => pure ()

/- Watch a method that has started to report. -/
def watchBehind
    (w : Observer) : Probe Operand → Run Unit
  | .enter method => watch w (.entered method)
  | _ => pure ()

------------------------------------------------------------
-- Calls
------------------------------------------------------------

/- Whether a constructor says which one it delegates to. -/
def startsWithSuper : List Stmt → Bool
  | ⟨.superCall _ _, _⟩ :: _ => true
  | _ => false

/- The local variables at the start of a call. -/
def startLocals
    (owner : ClassDef)
    (m : MethodDef)
    (self : Option Val)
    (args : List Val) : Locals :=
  let start : Locals :=
    { self := self, cls := owner.name, ret := m.ret }
  (m.params.zip args).foldl
    (fun l (param, arg) =>
      l.declare param.name (arg.convert param.ty))
    start

/- Run the constructors above a class, unless a body does. -/
def constructAbove
    (p : Program)
    (invoke : Invoker)
    (owner : ClassDef)
    (m : MethodDef)
    (body : List Stmt)
    (self : Option Val) : Run Unit :=
  match m.isConstructor && !startsWithSuper body, self with
  | true, some self => Call.implicitSuper p invoke owner self
  | _, _ => pure ()

/- What a call returns, by the end of the body. -/
def resultOf
    (owner : ClassDef)
    (m : MethodDef)
    (flow : Flow) : Run Val :=
  match flow with
  | .return v => pure v
  | .normal => pure .void
  | flow =>
    faultEscaped (fun f => .escapedMethod f owner.name m.name) flow

/- Watch a body that has returned nothing. -/
def watchEnd
    (w : Observer)
    (m : MethodDef) : Flow → Run Unit
  | .normal => watch w (.ended m)
  | _ => pure ()

/-
  Run a method whose body is run by `run`. The checks come
  before the frame, and the result is judged after it.
-/
def activate
    (w : Observer)
    (p : Program)
    (invoke : Invoker)
    (run : List Stmt → Run Flow) : Invoker :=
  fun owner m self args =>
    match m.body with
    | none => fault (.abstractMethod owner.name m.name)
    | some body => do
      let machine ← get
      if args.length ≠ m.arity then
        fault (.arity owner.name m.name m.arity args.length)
      else if machine.maxDepth ≤ machine.frames.length then
        raise p "StackOverflowError"
          ("more than " ++ toString machine.maxDepth
            ++ " nested activations")
      else
        let flow ←
          inFrame ⟨owner.name, m.name, false⟩ <|
            withLocals (startLocals owner m self args) do
              constructAbove p invoke owner m body self
              let flow ← run body
              watchEnd w m flow
              pure flow
        resultOf owner m flow

------------------------------------------------------------
-- Forms
------------------------------------------------------------

/- A way to run the parts of a program. -/
structure Runner where
  eval : Expr → Run Val
  exec : Stmt → Run Flow
  invoke : Invoker

namespace Runner

/- Whether a condition holds. -/
def test
    (r : Runner)
    (e : Expr) : Run Bool :=
  truth r.eval e

/- Evaluate an expression whose parts are run by `r`. -/
def evalForm
    (w : Observer)
    (p : Program)
    (r : Runner)
    (e : Expr) : Run Val :=
  match e.form with
  | .literal value => pure (Val.ofLiteral value)
  | .localVar name => getLocal name
  | .self => currentSelf .noSelf
  | .staticField cls field => getStatic p cls field
  | .instanceField object _ field => do
    let object ← r.eval object
    (Pending.member object field).read p
  | .index array index => do
    let array ← r.eval array
    let index ← r.eval index
    (Pending.element array index).read p
  | .length array => do
    lengthOf p (← r.eval array)
  | .unary op operand => do
    let v ← r.eval operand
    ofOperator p (v.unary op)
  | .binary .and lhs rhs => conjunction (r.test lhs) (r.test rhs)
  | .binary .or lhs rhs => disjunction (r.test lhs) (r.test rhs)
  | .binary op lhs rhs => do
    let left ← r.eval lhs
    let right ← r.eval rhs
    applyBinary p r.invoke op left right e.ty
  | .conditional cond onTrue onFalse => do
    let v ←
      if ← r.test cond then r.eval onTrue else r.eval onFalse
    pure (v.convert e.ty)
  | .assign target value => do
    let pending ← pendingOf r.eval target
    let v ← r.eval value
    let v := v.convert target.ty
    pending.write p v
    pure v
  | .compoundAssign op target value => do
    let pending ← pendingOf r.eval target
    let place ← pending.locate p
    let old ← place.load p
    watch w (.loaded target old)
    let rhs ← r.eval value
    let combined := op.resultTy target.ty value.ty
    let new ← applyBinary p r.invoke op old rhs combined
    let new := new.convert target.ty
    place.store p new
    pure new
  | .step op target => do
    let pending ← pendingOf r.eval target
    let place ← pending.locate p
    let old ← place.load p
    watch w (.loaded target old)
    let new ← stepped p r.invoke op target.ty old
    let new := new.convert target.ty
    place.store p new
    pure (if op.isPrefix then new else old)
  | .call callee none args => do
    let args ← args.mapM r.eval
    let v ← Call.onClass p r.invoke callee.cls callee.method args
    pure (v.convert e.ty)
  | .call callee (some receiver) args => do
    let receiver ← r.eval receiver
    let args ← args.mapM r.eval
    let v ← Call.onObject p r.invoke receiver callee.method args
    pure (v.convert e.ty)
  | .new cls _ args => do
    let args ← args.mapM r.eval
    Call.construct p r.invoke cls args
  | .newArray element length => do
    arrayOfLength p element (← r.eval length)
  | .arrayOf element items => do
    let items ← items.mapM r.eval
    newArray element (items.map fun v => v.convert element)
  | .cast target operand => do
    Call.cast p (← r.eval operand) target
  | .typeTest operand target => do
    let v ← r.eval operand
    pure (.bool (Call.instanceOf p (← get).heap v target))
  | .switch selector arms => do
    let selector ← r.eval selector
    let v ← switchValue p r.exec selector arms
    pure (v.convert e.ty)
  | .letIn stmts body =>
    inScope do
      match ← runAll r.exec stmts with
      | .normal => r.eval body
      | flow => faultEscaped .escapedBlock flow

/-
  Run a statement whose parts are run by `r`. A loop has at most
  `rounds` rounds, and captures grow with `rounds`.
-/
def execForm
    (w : Observer)
    (p : Program)
    (r : Runner)
    (rounds : Nat)
    (s : Stmt) : Run Flow :=
  match s.form with
  | .declare name ty none => do
    declareLocal name (Val.defaultOf ty)
    pure .normal
  | .declare name ty (some init) => do
    let v ← r.eval init
    declareLocal name (v.convert ty)
    pure .normal
  | .expr e => do
    let _ ← r.eval e
    pure .normal
  | .block stmts => inScope (runAll r.exec stmts)
  | .cond cond onTrue onFalse => do
    if ← r.test cond then inScope (r.exec onTrue)
    else
      match onFalse with
      | some onFalse => inScope (r.exec onFalse)
      | none => pure .normal
  | .while label cond body =>
    let round :=
      roundWhile (r.test cond) (loopRound r.exec label body)
    iterate (fun _ => round) rounds 0
  | .doWhile label body cond =>
    let round :=
      roundUntil (loopRound r.exec label body) (r.test cond)
    iterate (fun _ => round) rounds 0
  | .for label init cond update body =>
    let round :=
      roundWhile (goesOn r.test cond)
        (roundUntil (loopRound r.exec label body)
          (performAll r.eval update))
    initialized r.exec init (iterate (fun _ => round) rounds 0)
  | .forEach label var ty iterable body => do
    let address ← iterated p (← r.eval iterable)
    let round := loopRound r.exec label body
    iterate (roundOver address var ty round) rounds 0
  | .switch selector arms => do
    let selector ← r.eval selector
    switchOn p r.exec selector arms
  | .return none => pure (.return .void)
  | .return (some value) => do
    let v ← r.eval value
    pure (.return (v.convert (← get).locals.ret))
  | .break label => pure (.break label)
  | .continue label => pure (.continue label)
  | .yield value => do
    pure (.yield (← r.eval value))
  | .throw exception => do
    throwValue p (← r.eval exception)
  | .try body catches =>
    catching (inScope (runAll r.exec body))
      (runHandler p (fun c => runAll r.exec c.body) catches)
  | .assert cond message => do
    if ← r.test cond then pure .normal
    else
      let text ←
        match message with
        | none => pure none
        | some message => do
          let v ← r.eval message
          let text ← Call.textOf p r.invoke "concat" v
          pure (some text)
      throw (.throw (← Run.exception p "AssertionError" text))
  | .superCall _ args => do
    let self ← currentSelf .superOutside
    let args ← args.mapM r.eval
    let cls := (← get).locals.cls
    Call.superCall p r.invoke cls self args
    pure .normal
  | .probe probe => do
    watchBefore w probe
    report w p r.eval r.invoke rounds probe s.span
    watchBehind w probe
    pure .normal

/- Run a method whose body is run by `r`. -/
def perform
    (w : Observer)
    (p : Program)
    (r : Runner) : Invoker :=
  activate w p r.invoke (runAll r.exec)

end Runner

------------------------------------------------------------
-- Running programs
------------------------------------------------------------

mutual

/- Evaluate an expression under an observer. -/
def eval
    (w : Observer)
    (p : Program) : Nat → Expr → Run Val
  | 0, _ => throw .outOfFuel
  | fuel + 1, e => do
    let v ←
      Runner.evalForm w p
        ⟨eval w p fuel, exec w p fuel, invoke w p fuel⟩ e
    watch w (.value e v)
    pure v

/- Run a statement under an observer. -/
def exec
    (w : Observer)
    (p : Program) : Nat → Stmt → Run Flow
  | 0, _ => throw .outOfFuel
  | fuel + 1, s =>
    Runner.execForm w p
      ⟨eval w p fuel, exec w p fuel, invoke w p fuel⟩ fuel s

/- Run a method under an observer. -/
def invoke
    (w : Observer)
    (p : Program) : Nat → Invoker
  | 0, _, _, _, _ => throw .outOfFuel
  | fuel + 1, owner, m, self, args =>
    Runner.perform w p
      ⟨eval w p fuel, exec w p fuel, invoke w p fuel⟩
      owner m self args

end

end ExecTrace
