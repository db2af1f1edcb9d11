import ExecTrace.Machine.State

/-
  This file defines what calls do around the body of a method:
  finding the method, running the constructors above a class,
  and the methods that exist without a declaration. How a body
  is run is a parameter of all of them.

  Key definitions include:
    * `Invoker`
    * `Call.textOf`
    * `Call.builtinStatic?`
    * `Call.builtinInstance?`
    * `Call.onClass`
    * `Call.onObject`
    * `Call.construct`
    * `Call.superCall`
    * `Call.instanceOf`
    * `Call.cast`
-/

namespace ExecTrace

/-
  A way to run a method of a class on an object, if it has one,
  with some arguments.
-/
abbrev Invoker :=
  ClassDef → MethodDef → Option Val → List Val → Run Val

namespace Call

open Run

------------------------------------------------------------
-- Texts
------------------------------------------------------------

/- The class of the frames that conversions to text run in. -/
def runtimeFrame : String := "<runtime>"

/-
  The text of an object that does not define it: something
  thrown shows its message.
-/
def plainText
    (p : Program)
    (h : Heap)
    (a : Nat) : String :=
  let cls := h.classOf a
  if p.isSubclass cls throwableClass then
    match (h.fieldsOf a).get? "message" with
    | none | some .null => cls
    | some message => cls ++ ": " ++ h.text message
  else h.text (.obj a)

/-
  The text of a value as the program gets it: an object may
  define it. `via` tells which conversion asks for it.
-/
def textOf
    (p : Program)
    (invoke : Invoker)
    (via : String)
    (v : Val) : Run String := do
  let h := (← get).heap
  match v with
  | .obj a =>
    match p.findMethod? (h.classOf a) "toString" 0 with
    | some (owner, method) =>
      if method.isStatic then pure (plainText p h a)
      else
        let result ←
          inFrame ⟨runtimeFrame, via, false⟩
            (invoke owner method (some v) [])
        pure ((← get).heap.text result)
    | none => pure (plainText p h a)
  | v => pure (h.text v)

------------------------------------------------------------
-- Methods without a declaration
------------------------------------------------------------

section Builtin

variable (p : Program) (invoke : Invoker)

/- Write the text of a value and something behind it. -/
def print
    (v : Val)
    (behind : String) : Run Val := do
  let text ← textOf p invoke "print" v
  write (text ++ behind)
  pure .void

/- The second value if an operator holds, else the first. -/
def extreme
    (method : String)
    (op : BinaryOp)
    (a b : Val) : Run Val := do
  match Val.binary op a b with
  | .ok v => pure (if v.asBool? == some true then b else a)
  | .error e =>
    fault (.extreme method (e.shown (← get).heap))

/- The static methods that need no declaration. -/
def builtinStatic?
    (cls method : String)
    (args : List Val) : Option (Run Val) :=
  match cls, method, args with
  | "Math", "abs", [x] =>
    match x.number? with
    | some n => some (pure (.scalar n.magnitude.scalar))
    | none => some (faultShowing .magnitudeOf x)
  | "Math", "max", [a, b] => some (extreme method .lt a b)
  | "Math", "min", [a, b] => some (extreme method .gt a b)
  | "Sys", "println", [] =>
    some do
      write "\n"
      pure .void
  | "Sys", "println", [v] => some (print p invoke v "\n")
  | "Sys", "print", [v] => some (print p invoke v "")
  | "String", "valueOf", [v] =>
    some do pure (.str (← textOf p invoke "valueOf" v))
  | _, _, _ => none

/- The code units of 16 bits that a character takes. -/
def codeUnits (c : Char) : List Nat :=
  if c.toNat < 0x10000 then [c.toNat]
  else
    let n := c.toNat - 0x10000
    [0xD800 + n / 0x400, 0xDC00 + n % 0x400]

/- The hash of a string, from its code units. -/
def hashOf (s : String) : Int32 :=
  (s.toList.flatMap codeUnits).foldl
    (fun h unit => h * 31 + Int32.ofNat unit) 0

/- Throw the exception for an index outside of a string. -/
def raiseOutside
    (length : Nat)
    (index : Val) : Run Val := do
  raise p "StringIndexOutOfBoundsException"
    ("index " ++ (← get).heap.text index
      ++ " out of bounds for length " ++ toString length)

/- The character of a string at an index. -/
def charAt
    (s : String)
    (index : Val) : Run Val :=
  let cs := s.toList
  match index.asInt? with
  | some i =>
    if 0 ≤ i.toInt ∧ i.toInt < cs.length then
      match cs[i.toInt.toNat]? with
      | some c => pure (.scalar (.char c))
      | none => fault .pastEnd
    else raiseOutside p cs.length index
  | none => raiseOutside p cs.length index

/- The methods of strings. -/
def stringMethod?
    (s : String)
    (method : String)
    (args : List Val) : Option (Run Val) :=
  match method, args with
  | "length", [] =>
    some (pure (.int (Int32.ofNat s.toList.length)))
  | "isEmpty", [] => some (pure (.bool s.isEmpty))
  | "charAt", [index] => some (charAt p s index)
  | "equals", [other] =>
    some (pure (.bool (Val.same (.str s) other)))
  | "hashCode", [] => some (pure (.int (hashOf s)))
  | _, _ => none

/- The low bits of a number as an integer of 32 bits. -/
def lowInt32 (n : UInt64) : Int32 :=
  n.toUInt32.toInt32

/- The methods of every value. -/
def anyMethod?
    (receiver : Val)
    (method : String)
    (args : List Val) : Option (Run Val) :=
  match method, args, receiver with
  | "toString", [], v =>
    some do pure (.str (← textOf p invoke "toString" v))
  | "getMessage", [], .obj a =>
    some do
      match ((← get).heap.fieldsOf a).get? "message" with
      | some message => pure message
      | none => pure .null
  | "hashCode", [], v =>
    some do pure (.int (lowInt32 ((← get).heap.identity v)))
  | "equals", [other], v => some (pure (.bool (v.same other)))
  | _, _, _ => none

/- The methods of a value that need no declaration. -/
def builtinInstance?
    (receiver : Val)
    (method : String)
    (args : List Val) : Option (Run Val) :=
  let fromString :=
    match receiver with
    | .str s => stringMethod? p s method args
    | _ => none
  match fromString with
  | some r => some r
  | none => anyMethod? p invoke receiver method args

------------------------------------------------------------
-- Calls
------------------------------------------------------------

/- Call a method of a class. -/
def onClass
    (cls method : String)
    (args : List Val) : Run Val :=
  let builtin : Run Val :=
    (builtinStatic? p invoke cls method args).getD
      (fault (.noStaticMethod cls method args.length))
  match p.findMethod? cls method args.length with
  | some (owner, m) =>
    if m.isStatic then invoke owner m none args else builtin
  | none => builtin

/- Call a method of an object, by the class of the object. -/
def onObject
    (receiver : Val)
    (method : String)
    (args : List Val) : Run Val := do
  if receiver.isNull then
    raiseNull p ("invoke " ++ method ++ " on")
  else
    let h := (← get).heap
    let builtin : Run Val :=
      (builtinInstance? p invoke receiver method args).getD
        (fault
          (.noMethod method args.length (h.className receiver)))
    match receiver with
    | .obj a =>
      match p.findMethod? (h.classOf a) method args.length with
      | some (owner, m) =>
        if m.isStatic then builtin
        else invoke owner m (some receiver) args
      | none => builtin
    | _ => builtin

------------------------------------------------------------
-- Constructors
------------------------------------------------------------

/-
  Run the nearest constructor without parameters above a class;
  it runs those above itself.
-/
def implicitSuper
    (cls : ClassDef)
    (self : Val) : Run Unit := do
  let above := p.lineageWithin p.classes.length cls.superclass
  match Program.methodIn? constructorName 0 above with
  | some (owner, m) =>
    let _ ← invoke owner m (some self) []
    pure ()
  | none => pure ()

/- Run a constructor of a class for some arguments. -/
def runConstructor
    (cls : ClassDef)
    (name : String)
    (self : Val)
    (args : List Val) : Run Unit := do
  match cls.method? constructorName args.length with
  | some m =>
    let _ ← invoke cls m (some self) args
    pure ()
  | none =>
    if args.isEmpty then implicitSuper p invoke cls self
    else fault (.noConstructor name args.length)

/- The message that an exception is made from. -/
def messageOf : List Val → Option String
  | .str s :: _ => some s
  | _ => none

/- Make an object of a class. -/
def construct
    (name : String)
    (args : List Val) : Run Val := do
  match p.class? name with
  | some cls =>
    let self ← allocate p name
    runConstructor p invoke cls name self args
    pure self
  | none =>
    if (builtinSuperclass? name).isSome then
      exception p name (messageOf args)
    else fault (.unknownClass name)

/- The superclass of a class that may have no declaration. -/
def parentOf (cls : String) : String :=
  match p.class? cls with
  | some c => c.superclass.getD rootClass
  | none => rootClass

/-
  Run the constructor that a constructor of a class delegates
  to. A class without a declaration only keeps a message.
-/
def superCall
    (cls : String)
    (self : Val)
    (args : List Val) : Run Unit :=
  let parent := parentOf p cls
  match p.class? parent with
  | some c => runConstructor p invoke c parent self args
  | none =>
    match self, messageOf args with
    | .obj a, some message =>
      modify fun m =>
        { m with
          heap := m.heap.setField a "message" (.str message) }
    | _, _ => pure ()

end Builtin

------------------------------------------------------------
-- Types at run time
------------------------------------------------------------

/- Whether a value is of a type. -/
def instanceOf
    (p : Program)
    (h : Heap)
    (v : Val)
    (ty : Ty) : Bool :=
  match v, ty with
  | .str _, .str => true
  | .str _, .cls c => c == rootClass
  | .obj a, .cls c => p.isSubclass (h.classOf a) c
  | .arr _, .cls c => c == rootClass
  | .arr a, .array element =>
    h.elementOf a == element
      || ((h.elementOf a).isReference && element == .cls rootClass)
  | _, _ => false

/- Whether a handler for a type accepts an exception. -/
def catches
    (p : Program)
    (h : Heap)
    (exception : Val)
    (ty : Ty) : Bool :=
  ty == .throwable || instanceOf p h exception ty

/- A value as a value of a type, if it is one. -/
def cast
    (p : Program)
    (v : Val)
    (target : Ty) : Run Val := do
  let h := (← get).heap
  if target.isPrimitive then pure (v.convert target)
  else if v.isNull || instanceOf p h v target then pure v
  else
    raise p "ClassCastException"
      (h.className v ++ " cannot be cast to " ++ target.text)

end Call

end ExecTrace
