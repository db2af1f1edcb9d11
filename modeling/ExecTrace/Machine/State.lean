import ExecTrace.Machine.Hierarchy
import ExecTrace.Machine.Val
import ExecTrace.Trace.Recorder

/-
  This file defines the state of a run and the ways in which an
  evaluation is cut short. A frame lies on the stack for every
  activation; only a panic leaves frames behind.

  Key definitions include:
    * `Flow`
    * `Fault`
    * `Interrupt`
    * `Frame`
    * `Locals`
    * `Machine`
    * `Run`
    * `inScope`
    * `inFrame`
    * `withLocals`
    * `Run.raise`
-/

namespace ExecTrace

------------------------------------------------------------
-- Ends of an evaluation
------------------------------------------------------------

/- How a statement ends when nothing is thrown. -/
inductive Flow where
  | normal
  | break (label : Option String)
  | continue (label : Option String)
  | return (value : Val)
  | yield (value : Val)
  deriving DecidableEq, Repr

/- The inspection text of a label. -/
def shownLabel : Option String → String
  | none => "None"
  | some l => "Some(" ++ Quoted.string l ++ ")"

/- The inspection text of an end. -/
def Flow.shown
    (h : Heap) : Flow → String
  | .normal => "Normal"
  | .break label => "Break(" ++ shownLabel label ++ ")"
  | .continue label => "Continue(" ++ shownLabel label ++ ")"
  | .return value => "Return(" ++ h.shown value ++ ")"
  | .yield value => "Yield(" ++ h.shown value ++ ")"

/-
  Why a program cannot be executed. Values and ends are given
  by their inspection texts.
-/
inductive Fault where
  | abstractMethod (cls method : String)
  | arity (cls method : String) (expected given : Nat)
  | escapedMethod (flow cls method : String)
  | escapedBlock (flow : String)
  | escapedSwitch (flow : String)
  | noYield
  | unknownClass (cls : String)
  | noConstructor (cls : String) (given : Nat)
  | noStaticMethod (cls method : String) (given : Nat)
  | noMethod (method : String) (given : Nat) (cls : String)
  | unboundLocal (name : String)
  | undeclaredLocal (name : String)
  | noSelf
  | superOutside
  | condition (text value : String)
  | unsupported (what : String)
  | notAssignable (text : String)
  | fieldOf (field cls : String)
  | noField (cls field : String)
  | unknownStatic (cls field : String)
  | lengthOf (cls : String)
  | arrayLength (value : String)
  | arrayIndex (value : String)
  | indexOf (cls : String)
  | noElement (index : Nat)
  | iterated (cls : String)
  | initializer
  | magnitudeOf (value : String)
  | extreme (method error : String)
  | pastEnd
  deriving DecidableEq, Repr

/- The text of a fault. -/
def Fault.text : Fault → String
  | .abstractMethod cls method =>
    "abstract method " ++ cls ++ "." ++ method ++ " invoked"
  | .arity cls method expected given =>
    cls ++ "." ++ method ++ " expects " ++ toString expected
      ++ " arguments, got " ++ toString given
  | .escapedMethod flow cls method =>
    flow ++ " escaped " ++ cls ++ "." ++ method
  | .escapedBlock flow => flow ++ " escaped an expression block"
  | .escapedSwitch flow => flow ++ " escaped a switch expression"
  | .noYield => "switch expression completed without yield"
  | .unknownClass cls => "unknown class " ++ cls
  | .noConstructor cls given =>
    cls ++ " has no constructor taking " ++ toString given
      ++ " arguments"
  | .noStaticMethod cls method given =>
    "no static method " ++ cls ++ "." ++ method ++ "/"
      ++ toString given
  | .noMethod method given cls =>
    "no method " ++ method ++ "/" ++ toString given ++ " on "
      ++ cls
  | .unboundLocal name => "unbound local `" ++ name ++ "`"
  | .undeclaredLocal name =>
    "assignment to undeclared local `" ++ name ++ "`"
  | .noSelf => "`this` used in a static context"
  | .superOutside => "super call outside a constructor"
  | .condition text value =>
    "condition `" ++ text ++ "` produced " ++ value
  | .unsupported what => "unsupported operation " ++ what
  | .notAssignable text => "`" ++ text ++ "` is not assignable"
  | .fieldOf field cls =>
    "field " ++ field ++ " of non-object " ++ cls
  | .noField cls field => cls ++ " has no field " ++ field
  | .unknownStatic cls field =>
    "unknown static field " ++ cls ++ "." ++ field
  | .lengthOf cls => "length of non-array " ++ cls
  | .arrayLength value => "array length " ++ value
  | .arrayIndex value => "array index " ++ value
  | .indexOf cls => "indexing non-array " ++ cls
  | .noElement index =>
    "element " ++ toString index ++ " vanished"
  | .iterated cls => "iterating non-array " ++ cls
  | .initializer =>
    "abrupt completion in for-loop initializer"
  | .magnitudeOf value => "Math.abs of " ++ value
  | .extreme method error => "Math." ++ method ++ ": " ++ error
  | .pastEnd => "charAt past end"

/-
  What cuts an evaluation short: an exception of the program, a
  program that cannot be executed, a defect of the tracer, the
  end of the fuel, or an observer that has seen enough.
-/
inductive Interrupt where
  | throw (exception : Val)
  | fault (cause : Fault)
  | panic (message : String)
  | outOfFuel
  | stopped (why : String)
  deriving DecidableEq, Repr

------------------------------------------------------------
-- State
------------------------------------------------------------

/- An activation on the stack. -/
structure Frame where
  cls : String
  method : String
  instrumented : Bool := false
  deriving DecidableEq, Repr

/-
  The local variables of an activation, innermost scope first,
  the object it was called on, its class and its result type.
-/
structure Locals where
  scopes : List (Bindings String) := [[]]
  self : Option Val := none
  cls : String := ""
  ret : Ty := .void
  deriving DecidableEq, Repr

namespace Locals

/- Declare a variable in the innermost scope. -/
def declare
    (l : Locals)
    (name : String)
    (v : Val) : Locals :=
  match l.scopes with
  | [] => l
  | scope :: rest => { l with scopes := scope.put name v :: rest }

/- The innermost variable with a name. -/
def get?
    (l : Locals)
    (name : String) : Option Val :=
  l.scopes.findSome? fun scope => scope.get? name

/- Set the innermost variable with a name. -/
@[grind] def setIn?
    (name : String)
    (v : Val) :
    List (Bindings String) → Option (List (Bindings String))
  | [] => none
  | scope :: rest =>
    if (scope.get? name).isSome then
      some (scope.put name v :: rest)
    else (setIn? name v rest).map (scope :: ·)

/- Set a variable, if it is declared. -/
def set?
    (l : Locals)
    (name : String)
    (v : Val) : Option Locals :=
  (setIn? name v l.scopes).map fun scopes =>
    { l with scopes := scopes }

end Locals

/- The state of a run; the innermost frame comes first. -/
structure Machine where
  heap : Heap := {}
  statics : Bindings (String × String) := []
  frames : List Frame := []
  locals : Locals := {}
  nextId : UInt64 := 1
  output : String := ""
  recorder : Option Recorder := none
  maxDepth : Nat := 64
  deriving Repr

/- A computation on the state that may be cut short. -/
abbrev Run := ExceptT Interrupt (StateM Machine)

namespace Machine

/- Where a recorder is attached to a machine. -/
def slot : Slot Machine where
  get m := m.recorder
  set r m := { m with recorder := some r }

end Machine

------------------------------------------------------------
-- Brackets
------------------------------------------------------------

section Brackets

variable {α : Type}

/- Run in a scope of its own, which is gone afterwards. -/
def inScope (body : Run α) : Run α := fun m =>
  let depth := m.locals.scopes.length
  let inner :=
    { m with
      locals :=
        { m.locals with scopes := [] :: m.locals.scopes } }
  let (result, m) := body inner
  let scopes := m.locals.scopes
  (result,
    { m with
      locals :=
        { m.locals with
          scopes := scopes.drop (scopes.length - depth) } })

/- Run inside a frame. Only a panic leaves the frame behind. -/
def inFrame
    (frame : Frame)
    (body : Run α) : Run α := fun m =>
  match body { m with frames := frame :: m.frames } with
  | (.error (.panic message), m) => (.error (.panic message), m)
  | (result, m) => (result, { m with frames := m.frames.tail })

/- Run with other local variables. -/
def withLocals
    (locals : Locals)
    (body : Run α) : Run α := fun m =>
  let (result, after) := body { m with locals := locals }
  (result, { after with locals := m.locals })

end Brackets

------------------------------------------------------------
-- Steps
------------------------------------------------------------

namespace Run

variable {α : Type}

/- Give up on a program that cannot be executed. -/
def fault (cause : Fault) : Run α :=
  throw (.fault cause)

/- A fault that shows a value. -/
def faultShowing
    (cause : String → Fault)
    (v : Val) : Run α := do
  fault (cause ((← get).heap.shown v))

/- A fault that names the class of a value. -/
def faultNaming
    (cause : String → Fault)
    (v : Val) : Run α := do
  fault (cause ((← get).heap.className v))

/- A fault that shows an end. -/
def faultEscaped
    (cause : String → Fault)
    (flow : Flow) : Run α := do
  fault (cause (flow.shown (← get).heap))

/- The next number for an object or an array. -/
def freshId : Run UInt64 := fun m =>
  (.ok m.nextId, { m with nextId := m.nextId + 1 })

/- Change the heap and get what the change returns. -/
def onHeap (f : Heap → Heap × Val) : Run Val := fun m =>
  let (heap, v) := f m.heap
  (.ok v, { m with heap := heap })

/- The fields of new objects of some classes, with defaults. -/
def initialFields (lineage : List ClassDef) : Bindings String :=
  lineage.foldl
    (fun fields c =>
      c.fields.foldl
        (fun fields f =>
          if f.isStatic then fields
          else fields.putNew f.name (Val.defaultOf f.ty))
        fields)
    []

/- A new object; what can be thrown has a message field. -/
def allocate
    (p : Program)
    (cls : String) : Run Val := do
  let fields := initialFields (p.lineage cls)
  let fields :=
    if p.isSubclass cls throwableClass then
      fields.putNew "message" .null
    else fields
  let id ← freshId
  onHeap fun h => h.addObject ⟨id, cls, fields⟩

/- A new array. -/
def newArray
    (element : Ty)
    (items : List Val) : Run Val := do
  let id ← freshId
  onHeap fun h => h.addArray ⟨id, element, items.toArray⟩

/- A new exception. -/
def exception
    (p : Program)
    (cls : String)
    (message : Option String) : Run Val := do
  let e ← allocate p cls
  match e, message with
  | .obj a, some text =>
    modify fun m =>
      { m with heap := m.heap.setField a "message" (.str text) }
    pure e
  | e, _ => pure e

/- Throw a new exception. -/
def raise
    (p : Program)
    (cls message : String) : Run α := do
  throw (.throw (← exception p cls (some message)))

/- Throw the exception for something done to null. -/
def raiseNull
    (p : Program)
    (action : String) : Run α :=
  raise p "NullPointerException" ("cannot " ++ action ++ " null")

/- Throw or give up because an operator has no result. -/
def operatorError
    (p : Program)
    (e : OperatorError) : Run α := do
  match e.unsupported? (← get).heap with
  | none => raise p "ArithmeticException" "/ by zero"
  | some what => fault (.unsupported what)

/- The result of an operator. -/
def ofOperator
    (p : Program)
    (result : Except OperatorError Val) : Run Val :=
  match result with
  | .ok v => pure v
  | .error e => operatorError p e

------------------------------------------------------------
-- Variables
------------------------------------------------------------

/- Declare a local variable. -/
def declareLocal
    (name : String)
    (v : Val) : Run Unit :=
  modify fun m => { m with locals := m.locals.declare name v }

/- The value of a local variable. -/
def getLocal (name : String) : Run Val := do
  match (← get).locals.get? name with
  | some v => pure v
  | none => fault (.unboundLocal name)

/- Set a local variable. -/
def setLocal
    (name : String)
    (v : Val) : Run Unit := do
  match (← get).locals.set? name v with
  | some locals => modify fun m => { m with locals := locals }
  | none => fault (.undeclaredLocal name)

/- The value of a static field. -/
def getStatic
    (p : Program)
    (cls field : String) : Run Val := do
  match p.findStatic? cls field with
  | none => fault (.unknownStatic cls field)
  | some (owner, f) =>
    match (← get).statics.get? (owner, field) with
    | some v => pure v
    | none => pure (Val.defaultOf f.ty)

/- Set a static field. -/
def setStatic
    (p : Program)
    (cls field : String)
    (v : Val) : Run Unit := do
  match p.findStatic? cls field with
  | none => fault (.unknownStatic cls field)
  | some (owner, f) =>
    modify fun m =>
      { m with
        statics := m.statics.put (owner, field) (v.convert f.ty) }

/- Write to the output. -/
def write (text : String) : Run Unit :=
  modify fun m => { m with output := m.output ++ text }

end Run

end ExecTrace
