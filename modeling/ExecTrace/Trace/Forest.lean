import Std.Data.HashMap
import ExecTrace.Trace.Event

/-
  This file defines trace forests. The events stand in one
  array, in the order in which they were added; each has a list
  of the positions of its children, and the positions of the
  roots are listed too. `Forest.walk` goes through a forest
  depth first with an explicit stack, so that every report on a
  forest is one instance of it.

  Key definitions include:
    * `Forest`
    * `Forest.push`
    * `Forest.ofEvents?`
    * `Forest.walk`
    * `Forest.preorder`
    * `Forest.eventsInOrder`
    * `Forest.intoEvents`
    * `Forest.closing`
    * `Forest.find?`
-/

namespace ExecTrace

deriving instance Hashable for EventId

------------------------------------------------------------
-- Forests
------------------------------------------------------------

/- Events with the positions of children and roots. -/
structure Forest where
  nodes : Array Event := #[]
  children : Array (Array Nat) := #[]
  roots : Array Nat := #[]
  deriving DecidableEq, Repr

namespace Forest

/- The forest without events. -/
def empty : Forest := {}

/- The number of events. -/
def size (f : Forest) : Nat :=
  f.nodes.size

/- The positions of the children of an event. -/
def childrenAt
    (f : Forest)
    (i : Nat) : List Nat :=
  match f.children[i]? with
  | some cs => cs.toList
  | none => []

/-
  Add an event as the last child of the event at a position, or
  as the last root. The event stands at position `f.size`.
-/
def push
    (f : Forest)
    (parent : Option Nat)
    (e : Event) : Forest :=
  let i := f.nodes.size
  match parent with
  | none =>
    { nodes := f.nodes.push e
      children := f.children.push #[]
      roots := f.roots.push i }
  | some p =>
    { nodes := f.nodes.push e
      children := (f.children.modify p (·.push i)).push #[]
      roots := f.roots }

------------------------------------------------------------
-- From a sequence of events
------------------------------------------------------------

/- Why a sequence of events is no trace. -/
inductive Malformed where
  | lateParent (id parent : EventId)
  | duplicate (id : EventId)
  deriving DecidableEq, Repr

/- What is wrong with a sequence of events. -/
def Malformed.text : Malformed → String
  | .lateParent id parent =>
    "event " ++ id.text ++ " refers to parent " ++ parent.text
      ++ " which does not precede it"
  | .duplicate id => "duplicate event id " ++ id.text

/- The positions of the events that were added so far. -/
abbrev Positions := Std.HashMap EventId Nat

/- Add the events one by one, each below its parent. -/
def pushAll
    (f : Forest)
    (positions : Positions) :
    List Event → Except Malformed Forest
  | [] => .ok f
  | e :: rest =>
    let parent? : Except Malformed (Option Nat) :=
      match e.parent with
      | none => .ok none
      | some p =>
        match positions[p]? with
        | some i => .ok (some i)
        | none => .error (.lateParent e.id p)
    match parent? with
    | .error m => .error m
    | .ok parent =>
      if positions.contains e.id then
        .error (.duplicate e.id)
      else
        pushAll (f.push parent e)
          (positions.insert e.id f.size) rest

/- The number of the event at a position. -/
def idAt
    (f : Forest)
    (i : Nat) : EventId :=
  match f.nodes[i]? with
  | some e => e.id
  | none => ⟨0⟩

/- Sort positions by the numbers of their events. -/
def sortById
    (f : Forest)
    (is : Array Nat) : Array Nat :=
  (is.toList.mergeSort fun i j =>
    decide ((f.idAt i).number ≤ (f.idAt j).number)).toArray

/-
  The forest of a sequence of events. Every parent has to come
  before its children; siblings stand in the order of their
  numbers.
-/
def ofEvents?
    (es : List Event) : Except Malformed Forest :=
  match pushAll empty ∅ es with
  | .error m => .error m
  | .ok f =>
    .ok
      { nodes := f.nodes
        children := f.children.map f.sortById
        roots := f.sortById f.roots }

------------------------------------------------------------
-- Going through a forest
------------------------------------------------------------

section Walk

variable {σ γ : Type}

/- Positions that are still to be visited, with their context. -/
abbrev Pending (γ : Type) := List (Nat × γ)

/-
  Visit the pending positions. A visit updates the result and
  says in which context the children are visited next, or that
  they are left out. Every visit costs one unit of `fuel`.
-/
def walkFrom
    (f : Forest)
    (visit : σ → Nat → Event → γ → σ × Option γ) :
    Nat → Pending γ → σ → σ
  | 0, _, s => s
  | _ + 1, [], s => s
  | fuel + 1, (i, c) :: rest, s =>
    match f.nodes[i]? with
    | none => walkFrom f visit fuel rest s
    | some e =>
      match visit s i e c with
      | (s, none) => walkFrom f visit fuel rest s
      | (s, some below) =>
        walkFrom f visit fuel
          ((f.childrenAt i).map (·, below) ++ rest) s

/-
  Visit a forest depth first, parents before their children,
  where the roots have the context `top`. Every event has one
  parent at most, so as many visits as events suffice.
-/
def walk
    (f : Forest)
    (visit : σ → Nat → Event → γ → σ × Option γ)
    (top : γ)
    (s : σ) : σ :=
  walkFrom f visit f.size (f.roots.toList.map (·, top)) s

end Walk

/- Every position with its depth, depth first. -/
def preorder (f : Forest) : Array (Nat × Nat) :=
  f.walk
    (fun out i _ depth => (out.push (i, depth), some (depth + 1)))
    0 #[]

/- The events, depth first. -/
def eventsInOrder (f : Forest) : List Event :=
  f.preorder.toList.filterMap fun (i, _) => f.nodes[i]?

/-
  Take events out of their slots, one position after the other.
  A slot that was emptied gives no event any more.
-/
def takeEach :
    List Nat → Array (Option Event) → Array Event → Array Event
  | [], _, out => out
  | i :: rest, slots, out =>
    match slots[i]? with
    | some (some e) =>
      takeEach rest (slots.setIfInBounds i none) (out.push e)
    | _ => takeEach rest slots out

/- The events, depth first, moved out of the forest. -/
def intoEvents (f : Forest) : List Event :=
  (takeEach (f.preorder.toList.map Prod.fst) (f.nodes.map some)
    #[]).toList

------------------------------------------------------------
-- Looking up events
------------------------------------------------------------

/- The last child of the event at a position. -/
def lastChild?
    (f : Forest)
    (i : Nat) : Option Event :=
  match f.children[i]? with
  | none => none
  | some cs =>
    match cs.back? with
    | none => none
    | some c => f.nodes[c]?

/- The event that closes the frame of the event at a position. -/
def closing
    (f : Forest)
    (i : Nat)
    (e : Event) : Option Event :=
  match f.lastChild? i with
  | some last =>
    if last.closes = some e.id then some last else none
  | none => none

/- The first event with a number. -/
def find?
    (f : Forest)
    (id : EventId) : Option Event :=
  f.nodes.find? fun e => e.id == id

end Forest

end ExecTrace
