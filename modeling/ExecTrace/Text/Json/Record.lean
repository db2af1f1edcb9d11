import ExecTrace.Text.Json

/-
  This file reads typed values out of JSON documents. A record
  is an object, or an array with the values of its fields in
  order. In an object a field may occur only once; members that
  are no field are skipped.

  Key definitions include:
    * `Json.Stage`
    * `Json.object?`
    * `Json.record?`
    * `Json.field?`
    * `Json.optionalField?`
    * `Json.tagged?`
    * `Json.variant?`
    * `Json.unitVariant?`
    * `Json.member`
    * `Json.word?`
-/

namespace ExecTrace.Json

------------------------------------------------------------
-- Stages
------------------------------------------------------------

/-
  When a document is read: directly, or deferred, after it was
  set aside while the tag of the record around it was looked
  for. What was set aside names its variants in more ways.
-/
inductive Stage where
  | direct
  | deferred
  deriving DecidableEq, Repr

------------------------------------------------------------
-- Records
------------------------------------------------------------

/- The members of a record. -/
abbrev Members := List (String × Json)

/- Whether a name occurs at most once among some members. -/
def occursOnce
    (members : Members)
    (name : String) : Bool :=
  decide ((members.filter fun m => m.1 == name).length ≤ 1)

/- The members of an object with the given fields. -/
def object?
    (fields : List String) : Json → Option Members
  | .obj members =>
    if fields.all (occursOnce members) then some members
    else none
  | _ => none

/- The members of a record with the given fields. -/
def record?
    (fields : List String) : Json → Option Members
  | .arr items =>
    if items.length = fields.length then
      some (fields.zip items)
    else none
  | j => j.object? fields

/- A field that has to be there. -/
def field?
    {α : Type}
    (members : Members)
    (name : String)
    (decode : Json → Option α) : Option α :=
  match members.lookup name with
  | some j => decode j
  | none => none

/- A field that may be missing or null. -/
def optionalField?
    {α : Type}
    (members : Members)
    (name : String)
    (decode : Json → Option α) : Option (Option α) :=
  match members.lookup name with
  | none => some none
  | some .null => some none
  | some j => (decode j).map some

/-
  The tag of a record that starts with one, and the record
  without it.
-/
def tagged?
    (tag : String) : Json → Option (Json × Json)
  | .obj members =>
    match members.filter fun m => m.1 == tag with
    | [(_, j)] =>
      some (j, .obj (members.filter fun m => m.1 != tag))
    | _ => none
  | .arr (j :: rest) => some (j, .arr rest)
  | _ => none

/-
  The variant that a tag inside a record names. A deferred tag
  may also be the position of the name.
-/
def variant?
    (stage : Stage)
    (names : List String) : Json → Option String
  | .str s => if names.contains s then some s else none
  | .int n =>
    if stage = .deferred ∧ 0 ≤ n then names[n.toNat]? else none
  | _ => none

/-
  The variant without content that a document names: its name,
  or an object with that name and null. A deferred object may
  have an empty object instead of null.
-/
def unitVariant?
    (stage : Stage) : Json → Option String
  | .str s => some s
  | .obj [(s, .null)] => some s
  | .obj [(s, .obj [])] =>
    if stage = .deferred then some s else none
  | _ => none

------------------------------------------------------------
-- Parts
------------------------------------------------------------

/- The items of an array; other documents have none. -/
def items : Json → List Json
  | .arr items => items
  | _ => []

/- The members of an object; other documents have none. -/
def members : Json → Members
  | .obj members => members
  | _ => []

/- A member of an object, null when it is missing. -/
def member
    (j : Json)
    (name : String) : Json :=
  (j.members.lookup name).getD .null

/- Whether an object has a member. -/
def hasMember
    (j : Json)
    (name : String) : Bool :=
  j.members.any fun m => m.1 == name

------------------------------------------------------------
-- Documents over documents
------------------------------------------------------------

/- Put a member in place of those of its name. -/
def withMember
    (members : Members)
    (name : String)
    (j : Json) : Members :=
  members.filter (fun m => m.1 != name) ++ [(name, j)]

mutual

/- A document in whose objects the last of equal names counts. -/
def lastMembers : Json → Json
  | .obj members => .obj (lastOfEach [] members)
  | j => j

/- Add members to those before them. -/
def lastOfEach
    (before : Members) : List (String × Json) → Members
  | [] => before
  | (name, j) :: rest =>
    lastOfEach (withMember before name (lastMembers j)) rest

end

mutual

/-
  Lay a document over an earlier one. Objects are laid over
  objects member by member; anything else is replaced.
-/
def lay
    (earlier : Json) : Json → Json
  | .obj members => .obj (layMembers earlier.members members)
  | later => later

/- Lay members over earlier ones. -/
def layMembers
    (earlier : Members) : List (String × Json) → Members
  | [] => earlier
  | (name, j) :: rest =>
    let before := (earlier.lookup name).getD .null
    layMembers (withMember earlier name (lay before j)) rest

end

------------------------------------------------------------
-- Plain values
------------------------------------------------------------

/- A truth value. -/
def asBool? : Json → Option Bool
  | .bool b => some b
  | _ => none

/- A string. -/
def asString? : Json → Option String
  | .str s => some s
  | _ => none

/- A string of exactly one character. -/
def asChar? : Json → Option Char
  | .str s =>
    match s.toList with
    | [c] => some c
    | _ => none
  | _ => none

/- An integer between two bounds, both included. -/
def between?
    (low high : Int) : Json → Option Int
  | .int n => if low ≤ n ∧ n ≤ high then some n else none
  | _ => none

/- An unsigned integer of a number of bits. -/
def word?
    (bits : Nat)
    (j : Json) : Option Nat :=
  (between? 0 (Nat.pow 2 bits - 1) j).map Int.toNat

/- A signed integer of a number of bits. -/
def signed?
    (bits : Nat)
    (j : Json) : Option Int :=
  between? (-(Nat.pow 2 (bits - 1))) (Nat.pow 2 (bits - 1) - 1) j

/- An unsigned integer of 32 bits. -/
def asUInt32? (j : Json) : Option UInt32 :=
  (word? 32 j).map UInt32.ofNat

/- An unsigned integer of 64 bits. -/
def asUInt64? (j : Json) : Option UInt64 :=
  (word? 64 j).map UInt64.ofNat

/- An array, item by item. -/
def asList?
    {α : Type}
    (decode : Json → Option α) : Json → Option (List α)
  | .arr items => items.mapM decode
  | _ => none

/- An optional value is null when it is absent. -/
def ofOption
    {α : Type}
    (encode : α → Json) : Option α → Json
  | none => .null
  | some a => encode a

/- An unsigned number as a document. -/
def ofNat (n : Nat) : Json :=
  .int n

end ExecTrace.Json
