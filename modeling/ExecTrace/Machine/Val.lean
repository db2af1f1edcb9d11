import ExecTrace.Number.Arithmetic
import ExecTrace.Syntax.Tree

/-
  This file defines the values of a running program and the
  heap that objects and arrays live in. An object or an array
  is known by its address; the number it carries is only what
  its texts show.

  Key definitions include:
    * `Val`
    * `Bindings`
    * `Object`
    * `ArrayCell`
    * `Heap`
    * `Val.convert`
    * `Val.same`
    * `Heap.className`
    * `Heap.text`
    * `Heap.shown`
-/

namespace ExecTrace

------------------------------------------------------------
-- Values
------------------------------------------------------------

/- A value; calls without a result return `void`. -/
inductive Val where
  | void
  | scalar (value : Scalar)
  | null
  | str (value : String)
  | obj (address : Nat)
  | arr (address : Nat)
  deriving DecidableEq, Repr, Inhabited

namespace Val

/- A truth value. -/
def bool (b : Bool) : Val :=
  .scalar (.bool b)

/- An integer of 32 bits. -/
def int (v : Int32) : Val :=
  .scalar (.int v)

/- The value of a literal. -/
def ofLiteral : Literal → Val
  | .bool b => .scalar (.bool b)
  | .int v => .scalar (.int v)
  | .long v => .scalar (.long v)
  | .float bits => .scalar (.float bits)
  | .double bits => .scalar (.double bits)
  | .char c => .scalar (.char c)
  | .str s => .str s
  | .null => .null

/- The value that a place of a type holds at first. -/
def defaultOf : Ty → Val
  | .void => .void
  | .bool => .scalar (.bool false)
  | .byte => .scalar (.byte 0)
  | .short => .scalar (.short 0)
  | .int => .scalar (.int 0)
  | .long => .scalar (.long 0)
  | .float => .scalar (.float 0)
  | .double => .scalar (.double 0)
  | .char => .scalar (.char '\x00')
  | .str | .null | .cls _ | .array _ => .null

/- The truth value that a value is. -/
def asBool? : Val → Option Bool
  | .scalar (.bool b) => some b
  | _ => none

/- The number that a value is. -/
def number? : Val → Option Number
  | .scalar s => s.number?
  | _ => none

/- The integer that a value is, characters included. -/
def asInt? (v : Val) : Option Int64 :=
  match v.number? with
  | some (.int n) => some n.toInt64
  | some (.long n) => some n
  | _ => none

/- Whether a value is null. -/
def isNull : Val → Bool
  | .null => true
  | _ => false

/- A value as it is stored in a place of a type. -/
def convert
    (v : Val)
    (ty : Ty) : Val :=
  match v with
  | .scalar s => .scalar (s.convert ty)
  | v => v

/-
  Whether two values are one: strings by content, objects and
  arrays by address. Numbers are never one.
-/
def same : Val → Val → Bool
  | .null, .null => true
  | .str a, .str b => a == b
  | .obj a, .obj b => a == b
  | .arr a, .arr b => a == b
  | .scalar (.bool a), .scalar (.bool b) => a == b
  | _, _ => false

/- The class of the object that a scalar can be wrapped in. -/
def boxedClass? : Val → Option String
  | .scalar (.bool _) => some "Boolean"
  | .scalar (.byte _) => some "Byte"
  | .scalar (.short _) => some "Short"
  | .scalar (.int _) => some "Integer"
  | .scalar (.long _) => some "Long"
  | .scalar (.float _) => some "Float"
  | .scalar (.double _) => some "Double"
  | .scalar (.char _) => some "Character"
  | _ => none

end Val

------------------------------------------------------------
-- Bindings
------------------------------------------------------------

/- Values under names, each name once. -/
abbrev Bindings (κ : Type) := List (κ × Val)

namespace Bindings

variable {κ : Type} [DecidableEq κ]

/- The value under a name. -/
@[grind] def get? (name : κ) : Bindings κ → Option Val
  | [] => none
  | (n, v) :: rest => if n = name then some v else get? name rest

/- Put a value under a name, in place of the one before. -/
@[grind] def put
    (name : κ)
    (v : Val) : Bindings κ → Bindings κ
  | [] => [(name, v)]
  | (n, w) :: rest =>
    if n = name then (n, v) :: rest
    else (n, w) :: put name v rest

/- Put a value under a name that has none yet. -/
def putNew
    (name : κ)
    (v : Val)
    (b : Bindings κ) : Bindings κ :=
  if (b.get? name).isSome then b else b.put name v

end Bindings

------------------------------------------------------------
-- The heap
------------------------------------------------------------

/- An object: its number, its class and its fields. -/
structure Object where
  id : UInt64
  cls : String
  fields : Bindings String
  deriving DecidableEq, Repr

/- An array: its number, the type and the list of its items. -/
structure ArrayCell where
  id : UInt64
  element : Ty
  items : Array Val
  deriving DecidableEq, Repr

/- All objects and arrays, at their addresses. -/
structure Heap where
  objects : Array Object := #[]
  arrays : Array ArrayCell := #[]
  deriving DecidableEq, Repr

namespace Heap

/- The number of the object or array that a value refers to. -/
def identity
    (h : Heap) : Val → UInt64
  | .obj a =>
    match h.objects[a]? with
    | some o => o.id
    | none => 0
  | .arr a =>
    match h.arrays[a]? with
    | some c => c.id
    | none => 0
  | _ => 0

/- The class of an object. -/
def classOf
    (h : Heap)
    (a : Nat) : String :=
  match h.objects[a]? with
  | some o => o.cls
  | none => ""

/- The type of the items of an array. -/
def elementOf
    (h : Heap)
    (a : Nat) : Ty :=
  match h.arrays[a]? with
  | some c => c.element
  | none => .void

/- The items of an array. -/
def itemsOf
    (h : Heap)
    (a : Nat) : Array Val :=
  match h.arrays[a]? with
  | some c => c.items
  | none => #[]

/- The fields of an object. -/
def fieldsOf
    (h : Heap)
    (a : Nat) : Bindings String :=
  match h.objects[a]? with
  | some o => o.fields
  | none => []

/- Put an object on the heap. -/
def addObject
    (h : Heap)
    (o : Object) : Heap × Val :=
  ({ h with objects := h.objects.push o }, .obj h.objects.size)

/- Put an array on the heap. -/
def addArray
    (h : Heap)
    (c : ArrayCell) : Heap × Val :=
  ({ h with arrays := h.arrays.push c }, .arr h.arrays.size)

/- Set a field of an object. -/
def setField
    (h : Heap)
    (a : Nat)
    (field : String)
    (v : Val) : Heap :=
  { h with
    objects :=
      h.objects.modify a fun o =>
        { o with fields := o.fields.put field v } }

/- Set an item of an array, converted to the type of items. -/
def setItem
    (h : Heap)
    (a i : Nat)
    (v : Val) : Heap :=
  { h with
    arrays :=
      h.arrays.modify a fun c =>
        { c with
          items := c.items.setIfInBounds i (v.convert c.element) } }

------------------------------------------------------------
-- Texts
------------------------------------------------------------

/- The static type of a scalar. -/
def scalarTy : Scalar → Ty
  | .bool _ => .bool
  | .byte _ => .byte
  | .short _ => .short
  | .int _ => .int
  | .long _ => .long
  | .float _ => .float
  | .double _ => .double
  | .char _ => .char

/- The name of the class of a value. -/
def className
    (h : Heap) : Val → String
  | .void => Ty.void.text
  | .scalar s => (scalarTy s).text
  | .null => Snapshot.nullType
  | .str _ => Ty.str.text
  | .obj a => h.classOf a
  | .arr a => (h.elementOf a).text ++ "[]"

/- A class and a number in hexadecimal. -/
def addressText
    (name : String)
    (id : UInt64) : String :=
  name ++ "@" ++ Quoted.hexDigits id.toNat

/-
  The text of a value, where an object or an array only shows
  its class and its number.
-/
def text
    (h : Heap)
    (v : Val) : String :=
  match v with
  | .void => "void"
  | .scalar s => s.programText
  | .null => "null"
  | .str s => s
  | .obj _ | .arr _ => addressText (h.className v) (h.identity v)

/- The inspection text of a type. -/
def shownTy : Ty → String
  | .void => "Void"
  | .bool => "Bool"
  | .byte => "Byte"
  | .short => "Short"
  | .int => "Int"
  | .long => "Long"
  | .float => "Float"
  | .double => "Double"
  | .char => "Char"
  | .str => "Str"
  | .null => "Null"
  | .cls name => "Class(" ++ Quoted.string name ++ ")"
  | .array element => "Array(" ++ shownTy element ++ ")"

/- The inspection text of a scalar. -/
def shownScalar : Scalar → String
  | .bool b => "Bool(" ++ Scalar.boolText b ++ ")"
  | .byte v => "Byte(" ++ toString v.toInt ++ ")"
  | .short v => "Short(" ++ toString v.toInt ++ ")"
  | .int v => "Int(" ++ toString v.toInt ++ ")"
  | .long v => "Long(" ++ toString v.toInt ++ ")"
  | .float bits =>
    "Float(" ++ Decimal.literalText .single bits.toNat ++ ")"
  | .double bits =>
    "Double(" ++ Decimal.literalText .double bits.toNat ++ ")"
  | .char c => "Char(" ++ Quoted.char c ++ ")"

/-
  The inspection text of a value with everything it refers to,
  down to a number of levels.
-/
def shownAt
    (h : Heap) : Nat → Val → String
  | _, .void => "Void"
  | _, .scalar s => shownScalar s
  | _, .null => "Null"
  | _, .str s => "Str(" ++ Quoted.string s ++ ")"
  | 0, .obj _ => ""
  | 0, .arr _ => ""
  | levels + 1, .obj a =>
    let field := fun (p : String × Val) =>
      Quoted.string p.1 ++ ": " ++ shownAt h levels p.2
    "Object(Object \x7b id: " ++ toString (h.identity (.obj a))
      ++ ", class: " ++ Quoted.string (h.classOf a)
      ++ ", fields: RefCell \x7b value: \x7b"
      ++ String.intercalate ", " ((h.fieldsOf a).map field)
      ++ "\x7d \x7d \x7d)"
  | levels + 1, .arr a =>
    "Array(ArrayObject \x7b id: "
      ++ toString (h.identity (.arr a)) ++ ", element: "
      ++ shownTy (h.elementOf a)
      ++ ", items: RefCell \x7b value: ["
      ++ String.intercalate ", "
        ((h.itemsOf a).toList.map (shownAt h levels))
      ++ "] \x7d \x7d)"

/-
  The inspection text of a value. Unless the heap has a cycle,
  no chain of references is longer than the heap is large.
-/
def shown
    (h : Heap)
    (v : Val) : String :=
  h.shownAt (h.objects.size + h.arrays.size + 1) v

end Heap

------------------------------------------------------------
-- Operators
------------------------------------------------------------

/- Why an operator has no result for some values. -/
inductive OperatorError where
  | number (error : NumberError)
  | unary (op : UnaryOp) (v : Val)
  | binary (op : BinaryOp) (l r : Val)
  deriving DecidableEq, Repr

/- The unsupported operation, unless zero was divided by. -/
def OperatorError.unsupported?
    (h : Heap) : OperatorError → Option String
  | .number .divideByZero => none
  | .number (.unsupported what) => some what
  | .unary op v => some (op.symbol ++ h.shown v)
  | .binary op l r =>
    some (h.shown l ++ " " ++ op.symbol ++ " " ++ h.shown r)

/- The inspection text of an error. -/
def OperatorError.shown
    (h : Heap)
    (e : OperatorError) : String :=
  match e.unsupported? h with
  | none => "DivideByZero"
  | some what => "Unsupported(" ++ Quoted.string what ++ ")"

namespace Val

/- Apply an operator to one value. -/
def unary
    (op : UnaryOp)
    (v : Val) : Except OperatorError Val :=
  match op, v.asBool?, v.number? with
  | .not, some b, _ => .ok (bool (!b))
  | .neg, _, some n => .ok (.scalar n.negate.scalar)
  | .bitNot, _, some n =>
    match n.complement with
    | some n => .ok (.scalar n.scalar)
    | none => .error (.unary .bitNot v)
  | op, _, _ => .error (.unary op v)

/-
  Apply an operator to two values. References can only be
  compared with each other for being one.
-/
def binary
    (op : BinaryOp)
    (l r : Val) : Except OperatorError Val :=
  match l.asBool?, r.asBool? with
  | some a, some b =>
    match boolBinary op a b with
    | .ok c => .ok (bool c)
    | .error e => .error (.number e)
  | _, _ =>
    match l.number?, r.number? with
    | some a, some b =>
      match Number.binary op a b with
      | .ok s => .ok (.scalar s)
      | .error e => .error (.number e)
    | _, _ =>
      match op with
      | .eq => .ok (bool (same l r))
      | .ne => .ok (bool (!same l r))
      | op => .error (.binary op l r)

/- Whether a switch enters an arm with a label. -/
def matchesLabel
    (selector : Val)
    (label : Literal) : Bool :=
  match binary .eq selector (ofLiteral label) with
  | .ok v => v.asBool? == some true
  | .error _ => false

end Val

end ExecTrace
