import ExecTrace.Trace.Snapshot

/-
  This file defines the actions of a running program that a
  trace tells apart. An action is parametric in the values it
  mentions: in an instrumented program they are operands still
  to be evaluated, in a running program live values, and in a
  trace snapshots. `mapM` goes through the values of an action
  in the order in which they are captured.

  Key definitions include:
    * `LoopKind`
    * `JumpTarget`
    * `OuterFrame`
    * `Callee`
    * `Place`
    * `Statement`
    * `Operation`
    * `Exit`
    * `Resumption`
    * `Action`
    * `Action.mapM`
-/

namespace ExecTrace

------------------------------------------------------------
-- Parts
------------------------------------------------------------

/- The loops of the language. -/
inductive LoopKind where
  | while
  | doWhile
  | for
  | forEach
  deriving DecidableEq, Repr, Inhabited

/- The written name of a loop. -/
def LoopKind.text : LoopKind → String
  | .while => "while"
  | .doWhile => "do-while"
  | .for => "for"
  | .forEach => "for-each"

/-
  The construct that a jump lands on: what it is, the label if
  the jump names one, and where it starts.
-/
structure JumpTarget where
  construct : String
  label : Option String
  line : UInt32
  col : UInt32
  deriving DecidableEq, Repr, Inhabited

/-
  An activation without probes between an instrumented one and
  its nearest instrumented caller.
-/
structure OuterFrame where
  cls : String
  method : String
  file : Option String := none
  line : Option UInt32 := none
  deriving DecidableEq, Repr, Inhabited

/- A method as calls and activations name it. -/
structure Callee where
  cls : String
  method : String
  signature : String
  deriving DecidableEq, Repr, Inhabited

------------------------------------------------------------
-- Actions
------------------------------------------------------------

/- A storage location. -/
inductive Place (α : Type) where
  | localVar (name : String)
  | staticField (cls field : String)
  | instanceField (cls : String) (object : α) (field : String)
  | element (array index : α)
  deriving DecidableEq, Repr, Inhabited

/- An action of a source statement. -/
inductive Statement (α : Type) where
  | return (method : String)
  | break (target : JumpTarget)
  | continue (target : JumpTarget)
  | yield (value : α) (target : JumpTarget)
  | switch (selector : α)
  | declare (name type : String)
  | throw (exception : α)
  | caught (exception : α)
  | assertion (outcome : α) (text : String)
  | exec
  | ifCondition (outcome : α)
  | loopCondition (outcome : α) (loop : LoopKind)
  deriving DecidableEq, Repr, Inhabited

/- An action of a part of a statement. -/
inductive Operation (α : Type) where
  | switch (selector : α)
  | loopEnter (loop : LoopKind)
  | loopExit (loop : LoopKind)
  | nextElement (element : α)
  | ternaryCondition (outcome : α)
  | assign (place : Place α) (value : α)
  | compoundAssign
      (place : Place α) (operator : String) (old rhs new : α)
  | incDec
      (place : Place α) (operator : String) (old new result : α)
  | read (place : Place α) (value : α)
  | unary (operator : String) (operand result : α)
  deriving DecidableEq, Repr, Inhabited

/- How an activation ends. -/
inductive Exit (α : Type) where
  | explicit (returned : Option α)
  | endOfBody
  | exceptional (exception : α)
  deriving DecidableEq, Repr, Inhabited

/- How a caller goes on after a call. -/
inductive Resumption (α : Type) where
  | returned (value : α)
  | void
  | aborted (exception : α)
  deriving DecidableEq, Repr, Inhabited

/-
  An action. A call or an activation opens a frame; an exit or
  a resumption closes one and names it in the way `κ`.
-/
inductive Action (κ α : Type) where
  | statement (statement : Statement α)
  | operation (operation : Operation α)
  | castAttempt (value : α) (type : String) (succeeds : Bool)
  | binary
      (operator : String) (lhs : α) (rhs : Option α) (result : α)
  | typeTest (tested : α) (type : String) (result : Bool)
  | call (callee : Callee) (receiver : Option α) (args : List α)
  | enter (method : Callee) (enclosing : List OuterFrame)
  | exit (frame : κ) (method : String) (how : Exit α)
  | resume (frame : κ) (cls method : String) (how : Resumption α)
  deriving DecidableEq, Repr

------------------------------------------------------------
-- Going through the values
------------------------------------------------------------

section Traversal

variable {α β κ : Type} {m : Type → Type} [Monad m]

/- Map the optional value, if there is one. -/
def optionMapM
    (f : α → m β) : Option α → m (Option β)
  | none => pure none
  | some a => do
    let b ← f a
    pure (some b)

/- Map the values of a place. -/
def Place.mapM
    (f : α → m β) : Place α → m (Place β)
  | .localVar name => pure (.localVar name)
  | .staticField cls field => pure (.staticField cls field)
  | .instanceField cls object field => do
    let object ← f object
    pure (.instanceField cls object field)
  | .element array index => do
    let array ← f array
    let index ← f index
    pure (.element array index)

/- Map the values of a statement. -/
def Statement.mapM
    (f : α → m β) : Statement α → m (Statement β)
  | .return method => pure (.return method)
  | .break target => pure (.break target)
  | .continue target => pure (.continue target)
  | .yield value target => do
    let value ← f value
    pure (.yield value target)
  | .switch selector => do
    let selector ← f selector
    pure (.switch selector)
  | .declare name type => pure (.declare name type)
  | .throw exception => do
    let exception ← f exception
    pure (.throw exception)
  | .caught exception => do
    let exception ← f exception
    pure (.caught exception)
  | .assertion outcome text => do
    let outcome ← f outcome
    pure (.assertion outcome text)
  | .exec => pure .exec
  | .ifCondition outcome => do
    let outcome ← f outcome
    pure (.ifCondition outcome)
  | .loopCondition outcome loop => do
    let outcome ← f outcome
    pure (.loopCondition outcome loop)

/- Map the values of an operation. -/
def Operation.mapM
    (f : α → m β) : Operation α → m (Operation β)
  | .switch selector => do
    let selector ← f selector
    pure (.switch selector)
  | .loopEnter loop => pure (.loopEnter loop)
  | .loopExit loop => pure (.loopExit loop)
  | .nextElement element => do
    let element ← f element
    pure (.nextElement element)
  | .ternaryCondition outcome => do
    let outcome ← f outcome
    pure (.ternaryCondition outcome)
  | .assign place value => do
    let place ← place.mapM f
    let value ← f value
    pure (.assign place value)
  | .compoundAssign place operator old rhs new => do
    let place ← place.mapM f
    let old ← f old
    let rhs ← f rhs
    let new ← f new
    pure (.compoundAssign place operator old rhs new)
  | .incDec place operator old new result => do
    let place ← place.mapM f
    let old ← f old
    let new ← f new
    let result ← f result
    pure (.incDec place operator old new result)
  | .read place value => do
    let place ← place.mapM f
    let value ← f value
    pure (.read place value)
  | .unary operator operand result => do
    let operand ← f operand
    let result ← f result
    pure (.unary operator operand result)

/- Map the value of an exit. -/
def Exit.mapM
    (f : α → m β) : Exit α → m (Exit β)
  | .explicit returned => do
    let returned ← optionMapM f returned
    pure (.explicit returned)
  | .endOfBody => pure .endOfBody
  | .exceptional exception => do
    let exception ← f exception
    pure (.exceptional exception)

/- Map the value of a resumption. -/
def Resumption.mapM
    (f : α → m β) : Resumption α → m (Resumption β)
  | .returned value => do
    let value ← f value
    pure (.returned value)
  | .void => pure .void
  | .aborted exception => do
    let exception ← f exception
    pure (.aborted exception)

/- Map the values of an action. -/
def Action.mapM
    (f : α → m β) : Action κ α → m (Action κ β)
  | .statement s => do
    let s ← s.mapM f
    pure (.statement s)
  | .operation o => do
    let o ← o.mapM f
    pure (.operation o)
  | .castAttempt value type succeeds => do
    let value ← f value
    pure (.castAttempt value type succeeds)
  | .binary operator lhs rhs result => do
    let lhs ← f lhs
    let rhs ← optionMapM f rhs
    let result ← f result
    pure (.binary operator lhs rhs result)
  | .typeTest tested type result => do
    let tested ← f tested
    pure (.typeTest tested type result)
  | .call callee receiver args => do
    let receiver ← optionMapM f receiver
    let args ← args.mapM f
    pure (.call callee receiver args)
  | .enter method enclosing => pure (.enter method enclosing)
  | .exit frame method how => do
    let how ← how.mapM f
    pure (.exit frame method how)
  | .resume frame cls method how => do
    let how ← how.mapM f
    pure (.resume frame cls method how)

end Traversal

end ExecTrace
