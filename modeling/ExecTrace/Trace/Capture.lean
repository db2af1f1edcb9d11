import ExecTrace.Trace.Snapshot

/-
  This file takes snapshots of values of the host language. A
  missing value is captured as null, a list item by item, and a
  string as a reference.

  Key definitions include:
    * `Capture`
    * `Snapshot.ofText`
-/

namespace ExecTrace

/- Values of which a snapshot can be taken. -/
class Capture (α : Type) where
  capture : α → Snapshot

export Capture (capture)

namespace Snapshot

/- The type name of a string. -/
def stringType : String := "String"

/- A string at an address. -/
def ofText
    (address : UInt64)
    (s : String) : Snapshot :=
  .ref address stringType s

end Snapshot

instance : Capture Snapshot := ⟨id⟩

instance : Capture Scalar := ⟨.scalar⟩

instance : Capture Bool := ⟨fun b => .scalar (.bool b)⟩

instance : Capture Int8 := ⟨fun v => .scalar (.byte v)⟩

instance : Capture Int16 := ⟨fun v => .scalar (.short v)⟩

instance : Capture Int32 := ⟨fun v => .scalar (.int v)⟩

instance : Capture Int64 := ⟨fun v => .scalar (.long v)⟩

instance : Capture Char := ⟨fun c => .scalar (.char c)⟩

/- A string without an address of its own. -/
instance : Capture String := ⟨Snapshot.ofText 0⟩

instance {α : Type} [Capture α] : Capture (Option α) :=
  ⟨fun o =>
    match o with
    | some a => capture a
    | none => Snapshot.null⟩

instance {α : Type} [Capture α] : Capture (List α) :=
  ⟨fun as => Snapshot.array (as.map capture)⟩

end ExecTrace
