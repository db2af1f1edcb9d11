import ExecTrace.Trace.Forest

/-
  This file finds the method activations of a trace and who
  started whom.

  Key definitions include:
    * `Activation`
    * `ActivationTree`
    * `Forest.activations`
-/

namespace ExecTrace

------------------------------------------------------------
-- Activations
------------------------------------------------------------

/-
  An activation: the event that starts it, the caller's event
  around it if the caller is traced, the event that ends it if
  it ended, and the positions of the activations it started.
-/
structure Activation where
  enter : Event
  call : Option Event
  exit : Option Event
  callees : Array Nat := #[]
  deriving DecidableEq, Repr

namespace Activation

/- The method of an activation. -/
def method (a : Activation) : String :=
  match a.enter.action? with
  | some (.enter m _) => m.method
  | _ => ""

/- The arguments, as the caller passed them. -/
def args (a : Activation) : List Snapshot :=
  match a.call.bind Event.action? with
  | some (.call _ _ args) => args
  | _ => []

/- The value handed back by an explicit return. -/
def returned (a : Activation) : Option Snapshot :=
  match a.exit.bind Event.action? with
  | some (.exit _ _ (.explicit returned)) => returned
  | _ => none

/- Whether an exception ended the activation. -/
def threw (a : Activation) : Bool :=
  match a.exit.bind Event.action? with
  | some (.exit _ _ (.exceptional _)) => true
  | _ => false

end Activation

/-
  Activations in the order in which they start. The roots were
  started from outside of every activation.
-/
structure ActivationTree where
  nodes : Array Activation := #[]
  roots : Array Nat := #[]
  deriving DecidableEq, Repr

namespace ActivationTree

/-
  Add an activation below the one at a position, or as a root.
-/
def push
    (t : ActivationTree)
    (owner : Option Nat)
    (a : Activation) : ActivationTree :=
  let i := t.nodes.size
  match owner with
  | none =>
    { nodes := t.nodes.push a, roots := t.roots.push i }
  | some o =>
    let add := fun (b : Activation) =>
      { b with callees := b.callees.push i }
    { nodes := (t.nodes.modify o add).push a
      roots := t.roots }

/- The activations at some positions. -/
def activationsAt
    (t : ActivationTree)
    (is : Array Nat) : List Activation :=
  is.toList.filterMap fun i => t.nodes[i]?

end ActivationTree

------------------------------------------------------------
-- Finding the activations
------------------------------------------------------------

/- The activation and the call right around a position. -/
structure Surroundings where
  owner : Option Nat := none
  call : Option Event := none

namespace Forest

/- Add the activation that an event starts. -/
def visitActivation
    (f : Forest)
    (t : ActivationTree)
    (i : Nat)
    (e : Event)
    (around : Surroundings) :
    ActivationTree × Option Surroundings :=
  match e.opens with
  | some .enter =>
    let a : Activation :=
      { enter := e, call := around.call, exit := f.closing i e }
    (t.push around.owner a,
      some { owner := some t.nodes.size, call := none })
  | some .call =>
    (t, some { owner := around.owner, call := some e })
  | none => (t, some { owner := around.owner, call := none })

/- The activations of a trace. -/
def activations (f : Forest) : ActivationTree :=
  f.walk f.visitActivation {} {}

end Forest

end ExecTrace
