import ExecTrace.Trace.Describe
import ExecTrace.Trace.Forest

/-
  This file renders a forest as indented text and counts its
  events.

  Key definitions include:
    * `Forest.render`
    * `Stats`
    * `Forest.stats`
-/

namespace ExecTrace

namespace Forest

------------------------------------------------------------
-- Rendering
------------------------------------------------------------

/- Two blanks for each level. -/
def indent (depth : Nat) : String :=
  String.ofList (List.replicate (2 * depth) ' ')

/- The line for an event. -/
def eventLine
    (depth : Nat)
    (e : Event) : String :=
  indent depth ++ e.id.text ++ " " ++ e.describe

/- The line that stands for the children of an event. -/
def elisionLine
    (depth count : Nat) : String :=
  indent (depth + 1) ++ "... " ++ toString count
    ++ " nested events"

/-
  The lines for one event. At the depth limit a line stands for
  all children.
-/
def linesAt
    (f : Forest)
    (limit : Option Nat)
    (shown : Event → Bool)
    (i : Nat)
    (e : Event)
    (depth : Nat) : List String :=
  if shown e then
    let children := (f.childrenAt i).length
    if limit.any (· ≤ depth) && children != 0 then
      [eventLine depth e, elisionLine depth children]
    else
      [eventLine depth e]
  else []

/-
  The lines of a forest: an event a line, at its own depth even
  when an event around it is hidden.
-/
def lines
    (f : Forest)
    (limit : Option Nat)
    (shown : Event → Bool) : List String :=
  (f.walk
    (fun out i e depth =>
      (out ++ (f.linesAt limit shown i e depth).toArray,
        if limit.any (· ≤ depth) then none
        else some (depth + 1)))
    0 #[]).toList

/- The text of a forest. -/
def render
    (f : Forest)
    (limit : Option Nat)
    (shown : Event → Bool) : String :=
  String.intercalate "\n" (f.lines limit shown)

end Forest

------------------------------------------------------------
-- Counting
------------------------------------------------------------

/- How often each of some names occurred, sorted by name. -/
abbrev Tally := List (String × Nat)

/- Count one more occurrence of a name. -/
def Tally.add
    (name : String) : Tally → Tally
  | [] => [(name, 1)]
  | (n, k) :: rest =>
    if name = n then (n, k + 1) :: rest
    else if name < n then (name, 1) :: (n, k) :: rest
    else (n, k) :: Tally.add name rest

/- Numbers about a trace. -/
structure Stats where
  events : Nat := 0
  maxDepth : Nat := 0
  byType : Tally := []
  calls : Tally := []
  deriving DecidableEq, Repr

/- The method that an event calls. -/
def Event.calledMethod? (e : Event) : Option String :=
  match e.action? with
  | some (.call callee _ _) =>
    some (callee.cls ++ "." ++ callee.method)
  | _ => none

/- Count one event at a depth. -/
def Stats.add
    (s : Stats)
    (depth : Nat)
    (e : Event) : Stats :=
  { events := s.events + 1
    maxDepth := max s.maxDepth (depth + 1)
    byType := s.byType.add e.name
    calls :=
      match e.calledMethod? with
      | some m => s.calls.add m
      | none => s.calls }

/- The numbers of a forest. -/
def Forest.stats (f : Forest) : Stats :=
  f.walk
    (fun s _ e depth => (s.add depth e, some (depth + 1)))
    0 {}

end ExecTrace
