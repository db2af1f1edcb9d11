import ExecTrace.Syntax.Tree

/-
  This file resolves jumps: it finds the construct around a
  jump on which the jump lands. A `break` without a label lands
  on the innermost loop or switch statement, a `continue`
  without one on the innermost loop, a jump with a label on the
  innermost loop with that label, and a `yield` on the
  innermost switch expression.

  Key definitions include:
    * `Instrument.Construct`
    * `Instrument.Landing`
    * `Instrument.Jump`
    * `Instrument.resolve?`
    * `Instrument.Site`
-/

namespace ExecTrace.Instrument

------------------------------------------------------------
-- Constructs
------------------------------------------------------------

/- What a jump can land on. -/
inductive Construct where
  | loop (kind : LoopKind)
  | switch
  | switchExpr
  deriving DecidableEq, Repr

/- The name of a construct. -/
def Construct.text : Construct → String
  | .loop kind => kind.text
  | .switch => "switch"
  | .switchExpr => "switch expression"

/- Whether a construct is a loop. -/
def Construct.isLoop : Construct → Bool
  | .loop _ => true
  | _ => false

/- A construct around the code, with its label and position. -/
structure Landing where
  construct : Construct
  label : Option String := none
  span : Span
  deriving DecidableEq, Repr

------------------------------------------------------------
-- Jumps
------------------------------------------------------------

/- The kinds of jumps. -/
inductive Jump where
  | break
  | continue
  | yield
  deriving DecidableEq, Repr

/- The name of a jump. -/
def Jump.text : Jump → String
  | .break => "Break"
  | .continue => "Continue"
  | .yield => "Yield"

/- Whether a jump with a label, if it has one, can land here. -/
def Landing.accepts
    (l : Landing)
    (jump : Jump)
    (label : Option String) : Bool :=
  match jump, label with
  | .yield, _ => l.construct == .switchExpr
  | _, some name => l.label == some name
  | .break, none => l.construct.isLoop || l.construct == .switch
  | .continue, none => l.construct.isLoop

/- A landing as it is reported by a jump with a label. -/
def Landing.target
    (l : Landing)
    (label : Option String) : JumpTarget :=
  ⟨l.construct.text, label, l.span.startLine, l.span.startCol⟩

/-
  The landing of a jump among the constructs around it, the
  innermost first.
-/
def resolve?
    (around : List Landing)
    (jump : Jump)
    (label : Option String) : Option JumpTarget :=
  (around.find? fun l => l.accepts jump label).map fun l =>
    l.target label

------------------------------------------------------------
-- Sites
------------------------------------------------------------

/-
  Where the code that is instrumented stands: its method, and
  the constructs around it, the innermost first.
-/
structure Site where
  cls : String
  method : String
  ret : Ty
  around : List Landing := []
  deriving DecidableEq, Repr

/- The site inside one more construct. -/
def Site.inside
    (s : Site)
    (l : Landing) : Site :=
  { s with around := l :: s.around }

end ExecTrace.Instrument
