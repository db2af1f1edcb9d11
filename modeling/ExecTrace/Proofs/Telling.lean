import ExecTrace.Instrument.Program
import ExecTrace.Machine.Eval

/-
  Runs that tell what they do: a direct semantics of source
  programs in which every action is told where it happens. No
  probe is spliced and no variable is added, so the order of the
  actions can be read off the rules. A teller says what becomes
  of an action; one that says nothing runs a program as it is.

  Main declarations:
    * `Shown` and `Teller`
    * `Teller.muted` and `Teller.traced`
    * `Teller.keep`, `Teller.look` and `Teller.lookBack`
    * `Teller.evalForm`, `Teller.execForm`, `Teller.perform`
    * `Teller.eval`, `Teller.exec`, `Teller.invoke`
-/

namespace ExecTrace

open Run
open Instrument (Site Jump Options excludes)

------------------------------------------------------------
-- Tellers
------------------------------------------------------------

/- A value that is told, and the kind of its snapshot. -/
structure Shown where
  kind : Kind
  value : Val

/- A value of a type as it is told. -/
def shown
    (ty : Ty)
    (v : Val) : Shown :=
  ⟨ty.kind?.getD .reference, v⟩

/- The values of some expressions as they are told. -/
def shownAll
    (es : List Expr)
    (vs : List Val) : List Shown :=
  List.zipWith (fun e v => shown e.ty v) es vs

/- The parts of a program, run at a site if they are told. -/
structure SiteRunner where
  eval : Option Site → Expr → Run Val
  exec : Option Site → Stmt → Run Flow
  invoke : Invoker

/-
  What is told of a run: whether reads and operators are, in
  which classes nothing is, and what telling an action does. The
  values that are told are values of the types of their
  expressions only if the probes are as good as `spliced`.
-/
structure Teller where
  observer : Observer
  reads : Bool
  operators : Bool
  leavesOut : String → Bool
  spliced : Bool
  tell :
    Program → Invoker → Nat → Span →
    (Machine → Action Unit Shown) → Run Unit

namespace Teller

/- A teller that says nothing. -/
def muted (T : Teller) : Teller :=
  { T with spliced := false, tell := fun _ _ _ _ _ => pure () }

/- The teller at a site; nothing is told without a site. -/
def on (T : Teller) : Option Site → Teller
  | some _ => T
  | none => T.muted

/- The teller whose actions are recorded. -/
def traced
    (w : Observer)
    (o : Options)
    (exclusions : List Pattern) : Teller where
  observer := w
  reads := o.recordReads
  operators := o.recordOperators
  leavesOut := excludes exclusions
  spliced := true
  tell p invoke fuel span action := do
    if ← isRecording then
      let action := action (← get)
      let _ ←
        record Machine.slot misuse
          (fun s => captureValue w p invoke fuel s.kind s.value)
          action span
      watch w .recorded

/- A value as it is held while its expression is told. -/
def keep
    (T : Teller)
    (ty : Ty)
    (v : Val) : Val :=
  if T.spliced then v.convert ty else v

/-
  Look at a value before it is held as a value of the type of its
  expression. Spliced code evaluates an expression that is told
  by itself, and holds the value afterwards.
-/
def look
    (T : Teller)
    (e : Expr)
    (v : Val) : Run Unit :=
  if T.spliced then watch T.observer (.value e v) else pure ()

/- Look at the old value of a target that is changed. -/
def lookBack
    (T : Teller)
    (target : Expr)
    (old : Val) : Run Unit := do
  watch T.observer (.loaded target old)
  T.look target old

------------------------------------------------------------
-- Parts
------------------------------------------------------------

section Parts

variable (T : Teller) (p : Program) (r : SiteRunner)
variable (fuel : Nat) (site : Option Site)

/- Tell an action that does not depend on the state. -/
def say
    (span : Span)
    (action : Action Unit Shown) : Run Unit :=
  T.tell p r.invoke fuel span fun _ => action

/- Tell that the current method ends. -/
def leave
    (span : Span)
    (method : String)
    (how : Exit Shown) : Run Unit :=
  if T.spliced then do
    watch T.observer (.leaving method)
    T.say p r fuel span (.exit () method how)
  else pure ()

/- The value of an expression, held for its action. -/
def held (e : Expr) : Run Val := do
  let v ← r.eval site e
  pure (T.keep e.ty v)

/- Tell the value that was read from a place. -/
def afterRead
    (e : Expr)
    (place : Place Shown)
    (v : Val) : Run Val :=
  if T.reads then do
    T.look e v
    let v := T.keep e.ty v
    T.say p r fuel e.span
      (.operation (.read place (shown e.ty v)))
    pure v
  else pure v

/- A part of a place, held if reading the place is told. -/
def partOfRead (e : Expr) : Run Val :=
  if T.reads then T.held r site e else r.eval site e

/- Whether a condition holds; its outcome is told first. -/
def judge
    (cond : Expr)
    (report : Shown → Action Unit Shown) : Run Bool := do
  let v ← T.held r site cond
  T.say p r fuel cond.span (report (shown cond.ty v))
  truthOf cond v

/- The parts of a target, and the place as it is told. -/
def placeOf (target : Expr) : Run (Pending × Place Shown) :=
  match target.form with
  | .localVar name => pure (.localVar name, .localVar name)
  | .staticField cls field =>
    pure (.static cls field, .staticField cls field)
  | .instanceField object cls field => do
    let o ← T.held r site object
    pure
      (.member o field,
        .instanceField cls (shown object.ty o) field)
  | .index array index => do
    let a ← T.held r site array
    let i ← T.held r site index
    pure
      (.element a i,
        .element (shown array.ty a) (shown index.ty i))
  | _ => fault (.notAssignable target.text)

/- An operator on two values, as spliced code applies it. -/
def applied
    (op : BinaryOp)
    (lhs rhs : Expr)
    (left right : Val)
    (ty : Ty) : Run Val :=
  match op with
  | .and => conjunction (truthOf lhs left) (truthOf rhs right)
  | .or => disjunction (truthOf lhs left) (truthOf rhs right)
  | op => applyBinary p r.invoke op left right ty

/-
  The new value of a compound assignment before it is converted.
  Spliced code evaluates a short-circuit operator as such, and
  casts the result to the type of the target.
-/
def combine
    (op : BinaryOp)
    (target value : Expr)
    (old rhs : Val) : Run Val :=
  let ty := op.resultTy target.ty value.ty
  if T.spliced then do
    let v ← applied p r op target value old rhs ty
    if ty = target.ty then pure v else Call.cast p v target.ty
  else applyBinary p r.invoke op old rhs ty

end Parts

/- Run something else when something is thrown, then go on. -/
def onThrow
    {α : Type}
    (x : Run α)
    (act : Val → Run Unit) : Run α := fun m =>
  match x m with
  | (.error (.throw v), m) =>
    (do
      act v
      throw (.throw v) : Run α) m
  | other => other

section Forms

variable (T : Teller) (p : Program) (r : SiteRunner)
variable (fuel : Nat) (site : Option Site)

/- The value of a call; how the caller goes on is told. -/
def called
    (span : Span)
    (cls method : String)
    (ty : Ty)
    (call : Run Val) : Run Val := do
  let v ← onThrow call fun e =>
    T.say p r fuel span
      (.resume () cls method (.aborted (shown Ty.throwable e)))
  let v := T.keep ty v
  T.say p r fuel span
    (.resume () cls method
      (if ty = .void then .void else .returned (shown ty v)))
  pure v

/- A short-circuit operator whose left operand has a value. -/
def shortCircuit
    (op : BinaryOp)
    (lhs rhs : Expr)
    (left : Val) : Run Val :=
  match op with
  | .and =>
    conjunction (truthOf lhs left) (truth (r.eval site) rhs)
  | _ =>
    disjunction (truthOf lhs left) (truth (r.eval site) rhs)

/- Whether the left operand decided a short-circuit operator. -/
def decided
    (op : BinaryOp)
    (left : Val) : Bool :=
  match op with
  | .and => left.asBool? == some false
  | _ => left.asBool? == some true

/- A binary operator whose operands and result are told. -/
def toldBinary
    (e : Expr)
    (op : BinaryOp)
    (lhs rhs : Expr) : Run Val := do
  let left ← T.held r site lhs
  if op.isShortCircuit then
    let v ← shortCircuit r site op lhs rhs left
    T.look e v
    let v := T.keep e.ty v
    let result := shown e.ty v
    T.say p r fuel e.span
      (.binary op.symbol (shown lhs.ty left)
        (if decided op left then none else some result) result)
    pure v
  else
    let right ← T.held r site rhs
    let v ← applyBinary p r.invoke op left right e.ty
    T.look e v
    let v := T.keep e.ty v
    T.say p r fuel e.span
      (.binary op.symbol (shown lhs.ty left)
        (some (shown rhs.ty right)) (shown e.ty v))
    pure v

/- The value in a place of a state. -/
def peek
    (place : Location)
    (m : Machine) : Val :=
  match place.load p m with
  | (.ok v, _) => v
  | (.error _, _) => .void

/- Evaluate an expression and tell what it does. -/
def evalForm (e : Expr) : Run Val :=
  match e.form with
  | .localVar name => do
    let v ← getLocal name
    T.afterRead p r fuel e (.localVar name) v
  | .staticField cls field => do
    let v ← getStatic p cls field
    T.afterRead p r fuel e (.staticField cls field) v
  | .instanceField object cls field => do
    let o ← T.partOfRead r site object
    let v ← (Pending.member o field).read p
    T.afterRead p r fuel e
      (.instanceField cls (shown object.ty o) field) v
  | .index array index => do
    let a ← T.partOfRead r site array
    let i ← T.partOfRead r site index
    let v ← (Pending.element a i).read p
    T.afterRead p r fuel e
      (.element (shown array.ty a) (shown index.ty i)) v
  | .unary op arg =>
    if T.operators then do
      let a ← T.held r site arg
      let v ← ofOperator p (a.unary op)
      T.look e v
      let v := T.keep e.ty v
      T.say p r fuel e.span
        (.operation
          (.unary op.symbol (shown arg.ty a) (shown e.ty v)))
      pure v
    else do
      let a ← r.eval site arg
      ofOperator p (a.unary op)
  | .binary op lhs rhs =>
    if T.operators then T.toldBinary p r fuel site e op lhs rhs
    else
      Runner.evalForm T.observer p
        ⟨r.eval site, r.exec site, r.invoke⟩ e
  | .conditional cond onTrue onFalse => do
    let b ←
      T.judge p r fuel site cond fun o =>
        .operation (.ternaryCondition o)
    let v ← r.eval site (if b then onTrue else onFalse)
    pure (v.convert e.ty)
  | .assign target value => do
    let (pending, place) ← T.placeOf r site target
    let v ← r.eval site value
    let v := v.convert target.ty
    pending.write p v
    T.say p r fuel e.span
      (.operation (.assign place (shown target.ty v)))
    pure v
  | .compoundAssign op target value => do
    let (pending, place) ← T.placeOf r site target
    let location ← pending.locate p
    let old ← location.load p
    T.lookBack target old
    let old := T.keep target.ty old
    let rhs ← T.held r site value
    let new ← T.combine p r op target value old rhs
    let new := new.convert target.ty
    location.store p new
    T.say p r fuel e.span
      (.operation
        (.compoundAssign place (op.symbol ++ "=")
          (shown target.ty old) (shown value.ty rhs)
          (shown target.ty new)))
    pure new
  | .step op target => do
    let (pending, place) ← T.placeOf r site target
    let location ← pending.locate p
    let old ← location.load p
    T.lookBack target old
    let new ← stepped p r.invoke op target.ty old
    let new := new.convert target.ty
    location.store p new
    let result := T.keep e.ty (if op.isPrefix then new else old)
    T.tell p r.invoke fuel e.span fun m =>
      .operation
        (.incDec place op.describe
          (shown target.ty (T.keep target.ty old))
          (shown target.ty (T.keep target.ty (peek p location m)))
          (shown e.ty result))
    pure result
  | .call callee none args => do
    let vs ← args.mapM (T.held r site)
    T.say p r fuel e.span
      (.call callee none (shownAll args vs))
    T.called p r fuel e.span callee.cls callee.method e.ty do
      let v ← Call.onClass p r.invoke callee.cls callee.method vs
      pure (v.convert e.ty)
  | .call callee (some receiver) args => do
    let o ← T.held r site receiver
    let vs ← args.mapM (T.held r site)
    T.say p r fuel e.span
      (.call callee (some (shown receiver.ty o))
        (shownAll args vs))
    T.called p r fuel e.span callee.cls callee.method e.ty do
      let v ← Call.onObject p r.invoke o callee.method vs
      pure (v.convert e.ty)
  | .new cls signature args => do
    let vs ← args.mapM (T.held r site)
    T.say p r fuel e.span
      (.call ⟨cls, constructorName, signature⟩ none
        (shownAll args vs))
    T.called p r fuel e.span cls constructorName e.ty
      (Call.construct p r.invoke cls vs)
  | .cast target arg =>
    if target.isReference && arg.ty.isReference then do
      let v ← T.held r site arg
      T.tell p r.invoke fuel e.span fun m =>
        .castAttempt (shown arg.ty v) target.text
          (v.isNull || Call.instanceOf p m.heap v target)
      Call.cast p v target
    else do
      Call.cast p (← r.eval site arg) target
  | .typeTest arg target => do
    let v ← T.held r site arg
    let b := Call.instanceOf p (← get).heap v target
    T.say p r fuel e.span
      (.typeTest (shown arg.ty v) target.text b)
    pure (.bool b)
  | .switch selector arms => do
    let v ← T.held r site selector
    T.say p r fuel e.span
      (.operation (.switch (shown selector.ty v)))
    let inner := site.map fun s =>
      s.inside ⟨.switchExpr, none, e.span⟩
    let v ← switchValue p (r.exec inner) v arms
    pure (v.convert e.ty)
  | _ =>
    Runner.evalForm T.observer p
      ⟨r.eval site, r.exec site, r.invoke⟩ e

------------------------------------------------------------
-- Statements
------------------------------------------------------------

/- Tell that a loop starts and that it was left normally. -/
def toldLoop
    (kind : LoopKind)
    (span : Span)
    (loop : Run Flow) : Run Flow := do
  T.say p r fuel span (.operation (.loopEnter kind))
  match ← loop with
  | .normal =>
    T.say p r fuel span.ending (.operation (.loopExit kind))
    pure .normal
  | flow => pure flow

/- The value of a variable in a state. -/
def valueOf
    (name : String)
    (m : Machine) : Val :=
  (m.locals.get? name).getD .void

/- The landing of a jump, as it is told. -/
def landing
    (site : Option Site)
    (jump : Jump)
    (label : Option String) : JumpTarget :=
  (site.bind fun s =>
    Instrument.resolve? s.around jump label).getD default

/- The name of the method around a site. -/
def methodName (site : Option Site) : String :=
  (site.map Site.method).getD ""

/- Run a statement and tell what it does. -/
def execForm (s : Stmt) : Run Flow :=
  match s.form with
  | .declare name ty none => do
    T.say p r fuel s.span (.statement (.declare name ty.text))
    declareLocal name (Val.defaultOf ty)
    pure .normal
  | .declare name ty (some init) => do
    T.say p r fuel s.span (.statement (.declare name ty.text))
    let v ← r.eval site init
    let v := v.convert ty
    T.say p r fuel init.span
      (.operation (.assign (.localVar name) (shown ty v)))
    declareLocal name v
    pure .normal
  | .expr e => do
    T.say p r fuel s.span (.statement .exec)
    let _ ← r.eval site e
    pure .normal
  | .cond cond onTrue onFalse => do
    let b ←
      T.judge p r fuel site cond fun o =>
        .statement (.ifCondition o)
    if b then inScope (r.exec site onTrue)
    else
      match onFalse with
      | some onFalse => inScope (r.exec site onFalse)
      | none => pure .normal
  | .while label cond body =>
    let inner := site.map (·.inLoop .while label s.span)
    let round :=
      roundWhile
        (T.judge p r fuel inner cond fun o =>
          .statement (.loopCondition o .while))
        (loopRound (r.exec inner) label body)
    T.toldLoop p r fuel .while s.span
      (iterate (fun _ => round) fuel 0)
  | .doWhile label body cond =>
    let inner := site.map (·.inLoop .doWhile label s.span)
    let round :=
      roundUntil (loopRound (r.exec inner) label body)
        (T.judge p r fuel inner cond fun o =>
          .statement (.loopCondition o .doWhile))
    T.toldLoop p r fuel .doWhile s.span
      (iterate (fun _ => round) fuel 0)
  | .for label init cond update body =>
    let inner := site.map (·.inLoop .for label s.span)
    let test := fun c =>
      T.judge p r fuel inner c fun o =>
        .statement (.loopCondition o .for)
    let round :=
      roundWhile (goesOn test cond)
        (roundUntil (loopRound (r.exec inner) label body)
          (performAll (r.eval inner) update))
    T.toldLoop p r fuel .for s.span
      (initialized (r.exec site) init
        (iterate (fun _ => round) fuel 0))
  | .forEach label var ty iterable body =>
    let inner := site.map (·.inLoop .forEach label s.span)
    let turn := fun body => do
      T.tell p r.invoke fuel s.span fun m =>
        .operation (.nextElement (shown ty (valueOf var m)))
      r.exec inner body
    let round := loopRound turn label body
    T.toldLoop p r fuel .forEach s.span do
      let address ← iterated p (← r.eval site iterable)
      iterate (roundOver address var ty round) fuel 0
  | .switch selector arms => do
    let v ← T.held r site selector
    T.say p r fuel s.span
      (.statement (.switch (shown selector.ty v)))
    let inner := site.map (·.inside ⟨.switch, none, s.span⟩)
    switchOn p (r.exec inner) v arms
  | .return none => do
    T.say p r fuel s.span
      (.statement (.return (methodName site)))
    T.leave p r fuel s.span (methodName site) (.explicit none)
    pure (.return .void)
  | .return (some value) => do
    let v ← r.eval site value
    let ret := (← get).locals.ret
    let v := v.convert ret
    T.say p r fuel s.span
      (.statement (.return (methodName site)))
    T.leave p r fuel s.span (methodName site)
      (.explicit (some (shown ret v)))
    pure (.return v)
  | .break label => do
    T.say p r fuel s.span
      (.statement (.break (landing site .break label)))
    pure (.break label)
  | .continue label => do
    T.say p r fuel s.span
      (.statement (.continue (landing site .continue label)))
    pure (.continue label)
  | .yield value => do
    let v ← T.held r site value
    T.say p r fuel s.span
      (.statement
        (.yield (shown value.ty v) (landing site .yield none)))
    pure (.yield v)
  | .throw exception => do
    let v ← T.held r site exception
    T.say p r fuel s.span
      (.statement (.throw (shown exception.ty v)))
    throwValue p v
  | .try body catches =>
    let handle := fun (c : Catch) => do
      T.tell p r.invoke fuel c.span fun m =>
        .statement (.caught (shown c.ty (valueOf c.param m)))
      runAll (r.exec site) c.body
    catching (inScope (runAll (r.exec site) body))
      (runHandler p handle catches)
  | .assert cond message => do
    let v ← T.held r site cond
    T.say p r fuel s.span
      (.statement (.assertion (shown cond.ty v) cond.text))
    if ← truthOf cond v then pure .normal
    else
      let text ←
        match message with
        | none => pure none
        | some message => do
          let v ← r.eval site message
          let text ← Call.textOf p r.invoke "concat" v
          pure (some text)
      throw (.throw (← Run.exception p "AssertionError" text))
  | _ =>
    Runner.execForm T.observer p
      ⟨r.eval site, r.exec site, r.invoke⟩ fuel s

------------------------------------------------------------
-- Bodies
------------------------------------------------------------

/- The super call in front of a body, and what follows it. -/
def splitSuper
    (m : MethodDef)
    (body : List Stmt) : List Stmt × List Stmt :=
  if m.isConstructor && startsWithSuper body then
    (body.take 1, body.drop 1)
  else ([], body)

/- Tell that a method starts. -/
def entering
    (c : ClassDef)
    (m : MethodDef) : Run Unit :=
  if T.spliced then do
    let callee : Callee := ⟨c.name, m.name, m.signature⟩
    markInstrumented
    T.tell p r.invoke fuel m.span fun k =>
      .enter callee (enclosingFrames k.frames)
    watch T.observer (.entered callee)
  else pure ()

/- Run the rest of a body, and tell if its end is reached. -/
def restOfBody
    (m : MethodDef)
    (body : List Stmt) : Run Flow := do
  match ← runAll (r.exec site) body with
  | .normal => do
    if m.ret = .void then
      T.leave p r fuel m.span.ending m.name .endOfBody
    pure .normal
  | flow => pure flow

/- Run the body of a method and tell how it starts and ends. -/
def runBody
    (c : ClassDef)
    (m : MethodDef)
    (body : List Stmt) : Run Flow :=
  if T.leavesOut c.name then runAll (r.exec none) body
  else do
    let site : Option Site :=
      some { cls := c.name, method := m.name, ret := m.ret }
    let (first, rest) := splitSuper m body
    match ← runAll (r.exec site) first with
    | .normal => do
      T.entering p r fuel c m
      onThrow (T.restOfBody p r fuel site m rest) fun e =>
        T.leave p r fuel m.span m.name
          (.exceptional (shown Ty.throwable e))
    | flow => pure flow

/- Run a method and tell what it does. -/
def perform : Invoker :=
  fun c m =>
    activate T.observer p r.invoke (T.runBody p r fuel c m) c m

end Forms

------------------------------------------------------------
-- Runs
------------------------------------------------------------

mutual

/- Evaluate an expression at a site. -/
def eval
    (T : Teller)
    (p : Program) : Nat → Option Site → Expr → Run Val
  | 0, _, _ => throw .outOfFuel
  | fuel + 1, site, e => do
    let v ←
      (T.on site).evalForm p
        ⟨eval T p fuel, exec T p fuel, invoke T p fuel⟩ fuel
        site e
    watch T.observer (.value e v)
    pure v

/- Run a statement at a site. -/
def exec
    (T : Teller)
    (p : Program) : Nat → Option Site → Stmt → Run Flow
  | 0, _, _ => throw .outOfFuel
  | fuel + 1, site, s =>
    (T.on site).execForm p
      ⟨eval T p fuel, exec T p fuel, invoke T p fuel⟩ fuel site s

/- Run a method. -/
def invoke
    (T : Teller)
    (p : Program) : Nat → Invoker
  | 0, _, _, _, _ => throw .outOfFuel
  | fuel + 1, c, m, self, args =>
    T.perform p
      ⟨eval T p fuel, exec T p fuel, invoke T p fuel⟩ fuel
      c m self args

end

end Teller

end ExecTrace
