import ExecTrace.Trace.Event

/-
  This file forgets what differs between two recordings of one
  run: the time at which recording started, the addresses of
  strings, and the bits of floats that are not numbers.

  Key definitions include:
    * `Snapshot.canonical`
    * `Event.canonical`
-/

namespace ExecTrace

namespace Snapshot

mutual

/- A snapshot without addresses of strings. -/
def canonical : Snapshot → Snapshot
  | .scalar v => .scalar v.canonical
  | .ref identity type display =>
    .ref (if type = "String" then 0 else identity) type display
  | .arr elements display =>
    .arr (canonicalList elements) display

/- Some snapshots without addresses of strings. -/
def canonicalList : List Snapshot → List Snapshot
  | [] => []
  | s :: rest => s.canonical :: canonicalList rest

end

end Snapshot

/- An event as any other recording of the run would have it. -/
def Event.canonical (e : Event) : Event :=
  match e.what with
  | .initialization _ =>
    { e with what := .initialization Timestamp.epoch }
  | .action a span =>
    let a : Action EventId Snapshot :=
      Id.run (a.mapM fun s => pure s.canonical)
    { e with what := .action a span }

end ExecTrace
