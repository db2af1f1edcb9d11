import ExecTrace.Problem
import ExecTrace.Text.Blank
import ExecTrace.Text.Json.Reader
import ExecTrace.Text.Uuid
import ExecTrace.Trace.Codec.Event
import ExecTrace.Trace.Forest

/-
  This file defines trace logs and their text: a header, the
  events and an end marker, each a JSON object on a line of its
  own. A log without an end marker was cut short and is read as
  far as it goes.

  Key definitions include:
    * `Log.Header`
    * `Log`
    * `Log.text`
    * `Log.Mistake`
    * `Log.ofLines?`
    * `Log.ofBytes?`
    * `Log.ofForest`
    * `Log.forest?`
-/

namespace ExecTrace

open Json

------------------------------------------------------------
-- Logs
------------------------------------------------------------

namespace Log

/- The version of the format. -/
def schemaVersion : UInt32 := 1

/- The first record of a log. -/
structure Header where
  schemaVersion : UInt32 := Log.schemaVersion
  runId : Uuid
  createdAt : Timestamp
  label : Option String
  deriving DecidableEq, Repr

end Log

/- A header and events in the order of a forest. -/
structure Log where
  header : Log.Header
  events : List Event
  deriving DecidableEq, Repr

namespace Log

/- The log of a forest. -/
def ofForest
    (f : Forest)
    (header : Header) : Log :=
  ⟨header, f.intoEvents⟩

/- The forest of a log. -/
def forest? (l : Log) : Except Problem Forest :=
  match Forest.ofEvents? l.events with
  | .ok f => .ok f
  | .error m => .error (.malformedLog m.text)

------------------------------------------------------------
-- Writing
------------------------------------------------------------

/- The members of a header. -/
def Header.members (h : Header) : Members :=
  [("schema_version", .ofNat h.schemaVersion.toNat),
    ("run_id", .str h.runId.text),
    ("created_at", .str h.createdAt.text),
    ("label", .ofOption .str h.label)]

/- A record of a log. -/
inductive Record where
  | header (header : Header)
  | event (event : Event)
  | finish (count : UInt64)
  deriving DecidableEq, Repr

/- The JSON form of a record. -/
def Record.toJson : Record → Json
  | .header h => .obj (("record", .str "header") :: h.members)
  | .event e => .obj (("record", .str "event") :: e.members)
  | .finish count =>
    .obj
      [("record", .str "end"), ("count", .ofNat count.toNat)]

/- The records of a log. -/
def records (l : Log) : List Record :=
  .header l.header :: l.events.map .event
    ++ [.finish (UInt64.ofNat l.events.length)]

/- The lines of a log. -/
def lines (l : Log) : List String :=
  l.records.map fun r => r.toJson.compact

/- The text of a log; every line ends with a line break. -/
def text (l : Log) : String :=
  String.join (l.lines.map fun s => s ++ "\n")

------------------------------------------------------------
-- Reading a record
------------------------------------------------------------

/- Read a header from a record. -/
def Header.ofJson? (j : Json) : Option Header := do
  let m ← j.record?
    ["schema_version", "run_id", "created_at", "label"]
  let version ← field? m "schema_version" asUInt32?
  let runId ← field? m "run_id" fun j =>
    (asString? j).bind Uuid.ofText?
  let createdAt ← field? m "created_at" fun j =>
    (asString? j).bind Timestamp.ofText?
  let label ← optionalField? m "label" asString?
  some ⟨version, runId, createdAt, label⟩

/- Read a record of a log. -/
def Record.ofJson? (j : Json) : Option Record := do
  let (tag, rest) ← j.tagged? "record"
  let name ← tag.variant? .direct ["header", "event", "end"]
  match name with
  | "header" => (Header.ofJson? rest).map .header
  | "event" => (Event.ofJson? rest).map .event
  | _ =>
    let m ← rest.record? ["count"]
    let count ← field? m "count" asUInt64?
    some (.finish count)

/- How deep the brackets of a line may nest. -/
def maxNesting : Nat := 127

/- Read a record from a line. -/
def Record.ofLine? (line : String) : Option Record :=
  (Json.ofText? maxNesting line).bind Record.ofJson?

------------------------------------------------------------
-- Reading a log
------------------------------------------------------------

/- Why a text is no log. -/
inductive Mistake where
  | notText
  | badRecord (line : Nat)
  | afterEnd (line : Nat)
  | secondHeader (line : Nat)
  | version (found : UInt32)
  | eventFirst
  | count (announced : UInt64) (found : Nat)
  | noHeader
  deriving DecidableEq, Repr

/- The failure that a mistake causes. -/
def Mistake.problem : Mistake → Problem
  | .notText => .io "stream did not contain valid UTF-8"
  | .badRecord line =>
    .malformedLog ("line " ++ toString line ++ ": bad record")
  | .afterEnd line =>
    .malformedLog
      ("line " ++ toString line ++ ": content after end marker")
  | .secondHeader line =>
    .malformedLog ("line " ++ toString line ++ ": second header")
  | .version found =>
    .malformedLog
      ("unsupported schema version " ++ toString found)
  | .eventFirst => .malformedLog "event before header"
  | .count announced found =>
    .malformedLog
      ("end marker announces " ++ toString announced
        ++ " events, found " ++ toString found)
  | .noHeader => .malformedLog "missing header"

/- What was read of a log so far. -/
structure Partial where
  header : Option Header := none
  events : Array Event := #[]
  ended : Bool := false

/- Add the record of a line. -/
def Partial.add
    (p : Partial)
    (line : Nat) : Record → Except Mistake Partial
  | .header h =>
    if p.header.isSome then .error (.secondHeader line)
    else if h.schemaVersion ≠ Log.schemaVersion then
      .error (.version h.schemaVersion)
    else .ok { p with header := some h }
  | .event e =>
    if p.header.isNone then .error .eventFirst
    else .ok { p with events := p.events.push e }
  | .finish count =>
    if count ≠ UInt64.ofNat p.events.size then
      .error (.count count p.events.size)
    else .ok { p with ended := true }

/- Whether a line holds nothing but white space. -/
def isBlank (line : String) : Bool :=
  line.toList.all isSpace

/-
  Read lines, where a line that is no text is absent. Blank
  lines are skipped but counted.
-/
def readLines
    (p : Partial)
    (number : Nat) :
    List (Option String) → Except Mistake Partial
  | [] => .ok p
  | none :: _ => .error .notText
  | some line :: rest =>
    if isBlank line then readLines p (number + 1) rest
    else if p.ended then .error (.afterEnd number)
    else
      match Record.ofLine? line with
      | none => .error (.badRecord number)
      | some record =>
        match p.add number record with
        | .error m => .error m
        | .ok p => readLines p (number + 1) rest

/- A log that was read, and whether it has an end marker. -/
structure Reading where
  log : Log
  ended : Bool
  deriving DecidableEq, Repr

/- Read the lines of a log. -/
def ofLines?
    (lines : List (Option String)) : Except Mistake Reading :=
  match readLines {} 1 lines with
  | .error m => .error m
  | .ok p =>
    match p.header with
    | none => .error .noHeader
    | some h => .ok ⟨⟨h, p.events.toList⟩, p.ended⟩

/- The warning about a log that was cut short. -/
def Reading.warning? (r : Reading) : Option String :=
  if r.ended then none
  else
    some ("trace log has no end marker [events="
      ++ toString r.log.events.length ++ "]")

------------------------------------------------------------
-- Lines of bytes
------------------------------------------------------------

/-
  The lines of some bytes. What follows the last line break is
  a line too, unless it is empty.
-/
def splitLines (bytes : List UInt8) : List (List UInt8) :=
  bytes.foldr
    (fun b lines =>
      if b = 10 then [] :: lines
      else
        match lines with
        | [] => [[b]]
        | line :: rest => (b :: line) :: rest)
    []

/- Drop a carriage return at the end of a line. -/
def dropReturn (line : List UInt8) : List UInt8 :=
  if line.getLast? = some 13 then line.dropLast else line

/- The text of a line, unless it is no text. -/
def lineText? (line : List UInt8) : Option String :=
  String.fromUTF8? ⟨(dropReturn line).toArray⟩

/- Read a log from bytes. -/
def ofBytes? (bytes : ByteArray) : Except Problem Reading :=
  match
    ofLines? ((splitLines bytes.toList).map lineText?) with
  | .ok r => .ok r
  | .error m => .error m.problem

end Log

end ExecTrace
