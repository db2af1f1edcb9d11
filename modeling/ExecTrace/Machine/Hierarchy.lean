import ExecTrace.Syntax.Tree

/-
  This file defines the class hierarchy of a program together
  with the classes that exist without a declaration: the root
  class and the exceptions that a run raises by itself.

  Key definitions include:
    * `rootClass`
    * `builtinSuperclass?`
    * `Program.superclass?`
    * `Program.isSubclass`
    * `Program.lineage`
    * `Program.findMethod?`
    * `Program.findStatic?`
-/

namespace ExecTrace

/- The class above all others. -/
def rootClass : String := "Object"

/- The class of everything that can be thrown. -/
def throwableClass : String := "Throwable"

/- The superclass of a class that needs no declaration. -/
def builtinSuperclass? : String → Option String
  | "ArithmeticException" => some "RuntimeException"
  | "NullPointerException" => some "RuntimeException"
  | "ArrayIndexOutOfBoundsException" => some "RuntimeException"
  | "StringIndexOutOfBoundsException" => some "RuntimeException"
  | "ClassCastException" => some "RuntimeException"
  | "NegativeArraySizeException" => some "RuntimeException"
  | "MatchException" => some "RuntimeException"
  | "IllegalArgumentException" => some "RuntimeException"
  | "IllegalStateException" => some "RuntimeException"
  | "RuntimeException" => some "Exception"
  | "AssertionError" => some "Error"
  | "StackOverflowError" => some "Error"
  | "Exception" => some throwableClass
  | "Error" => some throwableClass
  | "Throwable" => some rootClass
  | _ => none

namespace Program

/-
  The superclass of a class: the declared one, the root class
  for a declared class without one.
-/
def superclass?
    (p : Program)
    (name : String) : Option String :=
  match p.class? name with
  | some c => some (c.superclass.getD rootClass)
  | none => builtinSuperclass? name

/-
  Whether a class is met on the way up from another one within
  a number of classes.
-/
def meetsWithin
    (p : Program)
    (target : String) : Nat → String → Bool
  | 0, _ => false
  | steps + 1, name =>
    if name = target then true
    else
      match p.superclass? name with
      | some above => meetsWithin p target steps above
      | none => false

/- How many classes a subclass test looks at. -/
def maxAncestors : Nat := 256

/- Whether a class is another one or lies below it. -/
def isSubclass
    (p : Program)
    (sub sup : String) : Bool :=
  sup == rootClass || p.meetsWithin sup maxAncestors sub

/- Some declared classes on the way up from a class. -/
def lineageWithin
    (p : Program) : Nat → Option String → List ClassDef
  | 0, _ => []
  | _ + 1, none => []
  | steps + 1, some name =>
    match p.class? name with
    | some c => c :: lineageWithin p steps c.superclass
    | none => []

/-
  The declared classes on the way up from a class. Without a
  cycle there are at most as many as the program has.
-/
def lineage
    (p : Program)
    (name : String) : List ClassDef :=
  p.lineageWithin p.classes.length (some name)

/- The first class of a list that has a method. -/
def methodIn?
    (name : String)
    (arity : Nat) :
    List ClassDef → Option (ClassDef × MethodDef)
  | [] => none
  | c :: rest =>
    match c.method? name arity with
    | some m => some (c, m)
    | none => methodIn? name arity rest

/- The nearest method with a name and an arity, and its class. -/
def findMethod?
    (p : Program)
    (cls name : String)
    (arity : Nat) : Option (ClassDef × MethodDef) :=
  methodIn? name arity (p.lineage cls)

/- The first class of a list that has a static field. -/
def staticIn?
    (field : String) :
    List ClassDef → Option (String × FieldDef)
  | [] => none
  | c :: rest =>
    match c.field? field with
    | some f =>
      if f.isStatic then some (c.name, f)
      else staticIn? field rest
    | none => staticIn? field rest

/- The nearest static field, and the class that declares it. -/
def findStatic?
    (p : Program)
    (cls field : String) : Option (String × FieldDef) :=
  staticIn? field (p.lineage cls)

end Program

end ExecTrace
