import ExecTrace.Text.Json.Record
import ExecTrace.Trace.Activation
import ExecTrace.Trace.Codec.Event
import ExecTrace.Trace.Rendering

/-
  This file defines the JSON forms of what can be told about a
  forest: its statistics, its activations and its nodes.

  Key definitions include:
    * `Stats.toJson`
    * `ActivationTree.toJson`
    * `Forest.nodesToJson`
-/

namespace ExecTrace

/- Counts under names. -/
def countsToJson (counts : List (String × Nat)) : Json :=
  .obj (counts.map fun (name, n) => (name, .ofNat n))

/- The JSON form of statistics, with sorted members. -/
def Stats.toJson (s : Stats) : Json :=
  .obj
    [("by_type", countsToJson s.byType),
      ("calls", countsToJson s.calls),
      ("events", .ofNat s.events),
      ("max_depth", .ofNat s.maxDepth)]

/- The ids of some events. -/
def idsToJson (events : List Event) : Json :=
  .arr (events.map fun e => e.id.toJson)

/- The id of an event that may be missing. -/
def optionalIdToJson : Option Event → Json :=
  Json.ofOption fun e => e.id.toJson

/- The JSON form of an activation. -/
def Activation.toJson
    (t : ActivationTree)
    (a : Activation) : Json :=
  let callees := t.activationsAt a.callees
  .obj
    [("enter", a.enter.id.toJson), ("method", .str a.method),
      ("call", optionalIdToJson a.call),
      ("exit", optionalIdToJson a.exit),
      ("args", .arr (a.args.map fun s => .str s.text)),
      ("returned",
        Json.ofOption (fun s => .str s.text) a.returned),
      ("threw", .bool a.threw),
      ("callees", idsToJson (callees.map Activation.enter)),
      ("callee_count", .ofNat a.callees.size)]

/- The JSON form of all activations. -/
def ActivationTree.toJson (t : ActivationTree) : Json :=
  let roots := t.activationsAt t.roots
  .obj
    [("roots", idsToJson (roots.map Activation.enter)),
      ("len", .ofNat t.nodes.size),
      ("empty", .bool t.nodes.isEmpty),
      ("nodes", .arr (t.nodes.toList.map (Activation.toJson t)))]

namespace Forest

/- The JSON form of the node at a position. -/
def nodeToJson
    (f : Forest)
    (i : Nat)
    (e : Event) : Json :=
  let children := (f.childrenAt i).map f.idAt
  .obj
    [("id", e.id.toJson),
      ("children", .arr (children.map EventId.toJson)),
      ("second", Json.ofOption EventId.toJson children[1]?),
      ("closing", optionalIdToJson (f.closing i e))]

/- The JSON forms of all nodes, depth first. -/
def nodesToJson (f : Forest) : Json :=
  .arr
    (f.preorder.toList.filterMap fun (i, _) =>
      f.nodes[i]?.map (f.nodeToJson i))

end Forest

end ExecTrace
