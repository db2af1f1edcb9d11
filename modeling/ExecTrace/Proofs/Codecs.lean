import Mathlib
import ExecTrace.Trace.Log

/-
  Codecs. What is written as a document is read back from the
  document: positions, snapshots, places, events and the records
  of a log. No member of an event is named like another, so each
  field is found where it was written.

  Main declarations:
    * `Json.Inverts`
    * `Json.Holds`
    * `Snapshot.ofJson_toJson`
    * `Event.memberNames_nodup`
    * `Event.ofMembers_members`
    * `Uuid.ofText_text`
    * `Log.Record.ofJson_toJson`
-/

namespace ExecTrace

open Json

------------------------------------------------------------
-- Members
------------------------------------------------------------

namespace Json

variable {α : Type} {m : Members} {name : String} {j : Json}

/- Among members of distinct names every name occurs once. -/
theorem occursOnce_of_nodup
    (h : (m.map Prod.fst).Nodup)
    (name : String) : occursOnce m name = true := by
  have hCount : (m.filter fun p => p.1 == name).length
      = (m.map Prod.fst).count name := by
    rw [List.count, List.countP_map, List.countP_eq_length_filter]
    rfl
  unfold occursOnce
  rw [hCount, decide_eq_true_eq]
  exact List.nodup_iff_count_le_one.mp h name

/- Among members of distinct names each is found by its name. -/
theorem lookup_of_nodup
    (h : (m.map Prod.fst).Nodup)
    (hMem : (name, j) ∈ m) : m.lookup name = some j := by
  induction m with
  | nil => cases hMem
  | cons p m ih =>
    rcases p with ⟨first, k⟩
    rw [List.map_cons, List.nodup_cons] at h
    rcases List.mem_cons.mp hMem with hHere | hThere
    · cases hHere
      exact List.lookup_cons_self
    · have hOther : (name == first) = false := by
        rw [beq_eq_false_iff_ne]
        rintro rfl
        exact h.1 (List.mem_map.mpr ⟨_, hThere, rfl⟩)
      rw [List.lookup_cons, hOther]
      exact ih h.2 hThere

/- Whether the fields of a record are found among members. -/
def Holds (m fields : Members) : Prop :=
  ∀ p ∈ fields, m.lookup p.1 = some p.2

/- A tag in front of members that it is no name of. -/
theorem tagged_cons
    (h : name ∉ m.map Prod.fst) :
    tagged? name (.obj ((name, j) :: m)) = some (j, .obj m) := by
  have hNone : m.filter (fun p => p.1 == name) = [] := by
    rw [List.filter_eq_nil_iff]
    rintro p hp hName
    rw [beq_iff_eq] at hName
    exact h (hName ▸ List.mem_map_of_mem hp)
  have hAll : m.filter (fun p => p.1 != name) = m := by
    rw [List.filter_eq_self]
    intro p hp
    rw [bne_iff_ne]
    rintro rfl
    exact h (List.mem_map_of_mem hp)
  unfold tagged?
  simp [hNone, hAll]

/- An object with fields of distinct names is a record. -/
theorem record_of_nodup
    (h : (m.map Prod.fst).Nodup)
    (fields : List String) :
    record? fields (.obj m) = some m := by
  unfold record? object?
  dsimp only
  rw [if_pos]
  exact List.all_eq_true.mpr fun name _ => occursOnce_of_nodup h name

/- A field is read from where it was written. -/
theorem field_of_lookup
    {decode : Json → Option α}
    (h : m.lookup name = some j) :
    field? m name decode = decode j := by
  unfold field?
  rw [h]

/- The first member is the field of its name. -/
@[simp]
theorem field_cons_self (decode : Json → Option α) :
    field? ((name, j) :: m) name decode = decode j :=
  field_of_lookup List.lookup_cons_self

/- A member is no field of another name. -/
@[simp]
theorem field_cons_ne
    {other : String}
    (h : name ≠ other)
    (decode : Json → Option α) :
    field? ((other, j) :: m) name decode = field? m name decode := by
  unfold field?
  rw [List.lookup_cons, beq_eq_false_iff_ne.mpr h]

/-
  Whether a reader takes back everything a writer writes, which
  is never null.
-/
structure Inverts
    (decode : Json → Option α)
    (encode : α → Json) : Prop where
  read : ∀ a, decode (encode a) = some a
  notNull : ∀ a, encode a ≠ .null

/- An optional field is read from where it was written. -/
theorem optionalField_of_lookup
    {decode : Json → Option α}
    {encode : α → Json}
    (hInverts : Inverts decode encode)
    {a : Option α}
    (h : m.lookup name = some (ofOption encode a)) :
    optionalField? m name decode = some a := by
  unfold optionalField?
  rw [h]
  cases a with
  | none => rfl
  | some a =>
    dsimp only [ofOption]
    split
    · contradiction
    · rename_i hNone
      exact absurd (Option.some.inj hNone) (hInverts.notNull a)
    · rename_i j _ hSome
      cases hSome
      rw [hInverts.read]
      rfl

/- The first member is the optional field of its name. -/
@[simp]
theorem optionalField_cons_self
    {decode : Json → Option α}
    {encode : α → Json}
    (hInverts : Inverts decode encode)
    (a : Option α) :
    optionalField? ((name, ofOption encode a) :: m) name decode
      = some a :=
  optionalField_of_lookup hInverts List.lookup_cons_self

/- A member is no optional field of another name. -/
@[simp]
theorem optionalField_cons_ne
    {other : String}
    (h : name ≠ other)
    (decode : Json → Option α) :
    optionalField? ((other, j) :: m) name decode
      = optionalField? m name decode := by
  unfold optionalField?
  rw [List.lookup_cons, beq_eq_false_iff_ne.mpr h]

/- A text is read back. -/
@[simp]
theorem asString_str (s : String) : asString? (.str s) = some s :=
  rfl

/- Texts are read back. -/
@[simp]
theorem inverts_str : Inverts asString? .str :=
  ⟨asString_str, fun _ => nofun⟩

/- A truth value is read back. -/
@[simp]
theorem asBool_bool (b : Bool) : asBool? (.bool b) = some b :=
  rfl

/- Numbers of 32 bits are read back. -/
@[simp]
theorem asUInt32_ofNat (n : UInt32) :
    asUInt32? (ofNat n.toNat) = some n := by
  have hBound := n.toNat_lt
  simp [asUInt32?, word?, between?, ofNat]
  omega

/- Optional numbers of 32 bits are read back. -/
@[simp]
theorem inverts_uint32 :
    Inverts asUInt32? fun n => ofNat n.toNat :=
  ⟨asUInt32_ofNat, fun _ => nofun⟩

/- Numbers of 64 bits are read back. -/
@[simp]
theorem asUInt64_ofNat (n : UInt64) :
    asUInt64? (ofNat n.toNat) = some n := by
  have hBound := n.toNat_lt
  simp [asUInt64?, word?, between?, ofNat]
  omega

/- A signed number is read back if it has enough bits. -/
theorem signed_int
    {bits : Nat}
    {n : Int}
    (hLow : -2 ^ bits ≤ n)
    (hHigh : n < 2 ^ bits) :
    signed? (bits + 1) (.int n) = some n := by
  have hPower : (Nat.pow 2 bits : Int) = 2 ^ bits := by
    exact_mod_cast rfl
  unfold signed? between?
  dsimp only
  rw [Nat.add_sub_cancel, hPower, if_pos ⟨hLow, by omega⟩]

/- A list is read back item by item. -/
theorem asList_map
    {decode : Json → Option α}
    {encode : α → Json}
    (h : Inverts decode encode)
    (as : List α) :
    asList? decode (.arr (as.map encode)) = some as := by
  unfold asList?
  dsimp only
  induction as with
  | nil => rfl
  | cons a as ih =>
    rw [List.map_cons, List.mapM_cons, h.read, ih]
    rfl

end Json

------------------------------------------------------------
-- Positions and frames
------------------------------------------------------------

/- A position is read back. -/
@[simp]
theorem Span.ofJson_toJson (s : Span) :
    Span.ofJson? s.toJson = some s := by
  unfold Span.ofJson? Span.toJson
  rw [record_of_nodup (by simp)]
  simp

/- A jump target is read back. -/
@[simp]
theorem JumpTarget.ofJson_toJson (t : JumpTarget) :
    JumpTarget.ofJson? t.toJson = some t := by
  unfold JumpTarget.ofJson? JumpTarget.toJson
  rw [record_of_nodup (by simp)]
  simp

/- A frame is read back. -/
@[simp]
theorem OuterFrame.ofJson_toJson (f : OuterFrame) :
    OuterFrame.ofJson? f.toJson = some f := by
  unfold OuterFrame.ofJson? OuterFrame.toJson
  rw [record_of_nodup (by simp)]
  simp

/- Frames are read back, and none is null. -/
theorem OuterFrame.inverts :
    Inverts OuterFrame.ofJson? OuterFrame.toJson :=
  ⟨OuterFrame.ofJson_toJson, fun _ => nofun⟩

/- A loop is read back. -/
@[simp]
theorem LoopKind.ofJson_toJson
    (stage : Stage)
    (k : LoopKind) : LoopKind.ofJson? stage k.toJson = some k := by
  cases k <;> rfl

/- The number of an event is read back. -/
@[simp]
theorem EventId.ofJson_toJson (id : EventId) :
    EventId.ofJson? id.toJson = some id := by
  unfold EventId.ofJson? EventId.toJson
  rw [asUInt64_ofNat]
  rfl

/- Optional numbers of events are read back. -/
@[simp]
theorem EventId.inverts : Inverts EventId.ofJson? EventId.toJson :=
  ⟨EventId.ofJson_toJson, fun _ => nofun⟩

------------------------------------------------------------
-- Snapshots
------------------------------------------------------------

/- A scalar is read back under its kind, floats by their bits. -/
theorem Scalar.ofJson_toJson (v : Scalar) :
    Scalar.ofJson? v.kind v.toJson = some v := by
  cases v with
  | bool b => rfl
  | byte v =>
    have hRead : signed? 8 (.int v.toInt) = some v.toInt :=
      signed_int v.le_toInt v.toInt_lt
    simp [ofJson?, kind, toJson, hRead]
  | short v =>
    have hRead : signed? 16 (.int v.toInt) = some v.toInt :=
      signed_int v.le_toInt v.toInt_lt
    simp [ofJson?, kind, toJson, hRead]
  | int v =>
    have hRead : signed? 32 (.int v.toInt) = some v.toInt :=
      signed_int v.le_toInt v.toInt_lt
    simp [ofJson?, kind, toJson, hRead]
  | long v =>
    have hRead : signed? 64 (.int v.toInt) = some v.toInt :=
      signed_int v.le_toInt v.toInt_lt
    simp [ofJson?, kind, toJson, hRead]
  | float bits => simp [ofJson?, kind, toJson]
  | double bits => simp [ofJson?, kind, toJson]
  | char c => simp [ofJson?, kind, toJson, asChar?]

namespace Snapshot

/- The document of a scalar is no object. -/
theorem ofValue_scalar
    (stage : Stage)
    (v : Scalar) :
    ofValue? stage v.kind v.toJson = some (.scalar v) := by
  have hRead := Scalar.ofJson_toJson v
  cases v <;>
    (simp only [Scalar.toJson, ofNat] at hRead ⊢
     rw [ofValue?, hRead]
     · rfl
     · intros
       contradiction)

/- The name of a kind is read back. -/
theorem kindOfJson_text
    (stage : Stage)
    (k : Kind) : kindOfJson? stage (.str k.text) = some k := by
  cases k <;> rfl

/- A value under its kind is read back. -/
theorem ofJson_tagged
    (stage : Stage)
    (kind : Kind)
    (value : Json) :
    ofJson? stage (tagged kind value) = ofValue? stage kind value := by
  simp [tagged, ofJson?, occursOnce, kindOfJson_text, valueMember?]

mutual

/- A snapshot is read back. -/
@[simp]
theorem ofJson_toJson
    (stage : Stage)
    (s : Snapshot) : ofJson? stage s.toJson = some s := by
  cases s with
  | scalar v =>
    rw [toJson, ofJson_tagged, ofValue_scalar]
  | ref identity type display =>
    rw [toJson, ofJson_tagged]
    simp [ofValue?, referenceOfJson?, object?, referenceFields,
      occursOnce]
  | arr elements display =>
    rw [toJson, ofJson_tagged]
    simp [ofValue?, elementsMember?, ofItems?, occursOnce,
      ofJsonList_toJsonList stage elements]

/- Snapshots are read back one by one. -/
theorem ofJsonList_toJsonList
    (stage : Stage)
    (ss : List Snapshot) :
    ofJsonList? stage (toJsonList ss) = some ss := by
  cases ss with
  | nil => rfl
  | cons s ss =>
    rw [toJsonList, ofJsonList?, ofJson_toJson stage s,
      ofJsonList_toJsonList stage ss]

end

/- Snapshots are read back, and none is null. -/
theorem inverts (stage : Stage) : Inverts (ofJson? stage) toJson where
  read := ofJson_toJson stage
  notNull := by
    intro s
    cases s <;> (rw [toJson, tagged]; exact nofun)

end Snapshot

------------------------------------------------------------
-- Places
------------------------------------------------------------

/- A place is read back if its values are. -/
theorem Place.ofJson_toJson
    {α : Type}
    {decode : Json → Option α}
    {encode : α → Json}
    (h : Inverts decode encode)
    (p : Place α) :
    Place.ofJson? decode (p.toJson encode) = some p := by
  unfold Place.ofJson?
  cases p <;>
    (rw [toJson, tagged_cons (by simp)]
     simp [variant?, names, record_of_nodup, h.read])

------------------------------------------------------------
-- Names of members
------------------------------------------------------------

/- The names of the members of an event. -/
def Event.memberNames (e : Event) : List String :=
  e.members.map Prod.fst

/-
  No two members of a record of an event have the same name; the
  tag of the record is named like none of them.
-/
theorem Event.memberNames_nodup (e : Event) :
    ("record" :: e.memberNames).Nodup := by
  rcases e with ⟨id, parent, what⟩
  rcases what with time | ⟨a, span⟩
  · simp [memberNames, members, Occurrence.members]
  · cases a with
    | statement s =>
      cases s <;>
        simp [memberNames, members, Occurrence.members, Action.members,
          Statement.members]
    | operation o =>
      cases o <;>
        simp [memberNames, members, Occurrence.members, Action.members,
          Operation.members]
    | call callee receiver args =>
      cases receiver <;>
        simp [memberNames, members, Occurrence.members, Action.members,
          Callee.members]
    | exit frame method how =>
      cases how <;>
        simp [memberNames, members, Occurrence.members, Action.members,
          Exit.members]
    | resume frame cls method how =>
      cases how <;>
        simp [memberNames, members, Occurrence.members, Action.members,
          Resumption.members]
    | _ =>
      simp [memberNames, members, Occurrence.members, Action.members,
        Callee.members]

------------------------------------------------------------
-- Fields of events
------------------------------------------------------------

variable {m : Members}

/- The fields of a statement are read back. -/
theorem Statement.ofMembers_of_holds
    {s : Statement Snapshot}
    (h : Holds m s.members) :
    Statement.ofMembers? m s.eventName = some s := by
  cases s <;>
    simp_all [Holds, members, eventName, ofMembers?, textField?,
      jumpField?, snapshotField?, loopField?, field?]

/- The fields of an operation are read back. -/
theorem Operation.ofMembers_of_holds
    {o : Operation Snapshot}
    (h : Holds m o.members) :
    Operation.ofMembers? m o.eventName = some o := by
  have hPlace := Place.ofJson_toJson (Snapshot.inverts .deferred)
  cases o <;>
    simp_all [Holds, members, eventName, ofMembers?, textField?,
      placeField?, snapshotField?, loopField?, field?]

/- The fields that name a method are read back. -/
theorem Callee.ofMembers_of_holds
    {c : Callee}
    (h : Holds m c.members) :
    Callee.ofMembers? m = some c := by
  simp_all [Holds, members, ofMembers?, textField?, field?]

/- The end of an activation is read back. -/
theorem Exit.ofMembers_of_holds
    {how : Exit Snapshot}
    {frame : EventId}
    {method : String}
    (h : Holds m how.members) :
    Exit.ofMembers? m
        (Action.exit (α := Snapshot) frame method how).eventName
      = some how := by
  have hSnapshot := Snapshot.inverts .deferred
  cases how with
  | explicit returned =>
    have hField := h ("returned", _) (List.mem_singleton_self _)
    simp [Action.eventName, ofMembers?, optionalSnapshotField?,
      optionalField_of_lookup hSnapshot hField]
  | endOfBody => rfl
  | exceptional exception =>
    simp_all [Holds, members, Action.eventName, ofMembers?,
      snapshotField?, field?]

/- The end of a call is read back. -/
theorem Resumption.ofMembers_of_holds
    {how : Resumption Snapshot}
    {frame : EventId}
    {cls method : String}
    (h : Holds m how.members) :
    Resumption.ofMembers? m
        (Action.resume (α := Snapshot) frame cls method how).eventName
      = some how := by
  cases how <;>
    simp_all [Holds, members, Action.eventName, ofMembers?,
      snapshotField?, field?]

section Dispatch

variable (a : Action EventId Snapshot)

/- No other action is named like a statement. -/
theorem Statement.ofMembers_other
    (h : a.family = .nonStatement) :
    Statement.ofMembers? m a.eventName = none := by
  cases a with
  | statement s => cases h
  | operation o =>
    cases o <;>
      simp [Action.eventName, Operation.eventName, ofMembers?]
  | call callee receiver args =>
    cases receiver <;> simp [Action.eventName, ofMembers?]
  | exit frame method how =>
    cases how <;> simp [Action.eventName, ofMembers?]
  | resume frame cls method how =>
    cases how <;> simp [Action.eventName, ofMembers?]
  | _ => simp [Action.eventName, ofMembers?]

/- No other action is named like an operation. -/
theorem Operation.ofMembers_other
    (hStatement : a.family = .nonStatement)
    (h : ∀ o, a ≠ .operation o) :
    Operation.ofMembers? m a.eventName = none := by
  cases a with
  | statement s => cases hStatement
  | operation o => exact absurd rfl (h o)
  | call callee receiver args =>
    cases receiver <;> simp [Action.eventName, ofMembers?]
  | exit frame method how =>
    cases how <;> simp [Action.eventName, ofMembers?]
  | resume frame cls method how =>
    cases how <;> simp [Action.eventName, ofMembers?]
  | _ => simp [Action.eventName, ofMembers?]

/- What closes a call is not named like the end of an activation. -/
theorem Exit.ofMembers_resume
    {frame : EventId}
    {cls method : String}
    {how : Resumption Snapshot} :
    Exit.ofMembers? m
        (Action.resume (α := Snapshot) frame cls method how).eventName
      = none := by
  cases how <;> simp [Action.eventName, ofMembers?]

/- What closes no frame is read among the other actions. -/
theorem Action.ofMembers_other
    (hStatement : a.family = .nonStatement)
    (hOperation : ∀ o, a ≠ .operation o)
    (hEnds : a.ends = none) :
    Action.ofMembers? m a.eventName
      = Action.otherOfMembers? m a.eventName := by
  have hExit : Exit.ofMembers? m a.eventName = none := by
    cases a with
    | statement s => cases hStatement
    | operation o => exact absurd rfl (hOperation o)
    | call callee receiver args =>
      cases receiver <;> simp [eventName, Exit.ofMembers?]
    | exit frame method how => cases hEnds
    | resume frame cls method how => cases hEnds
    | _ => simp [eventName, Exit.ofMembers?]
  have hResume : Resumption.ofMembers? m a.eventName = none := by
    cases a with
    | statement s => cases hStatement
    | operation o => exact absurd rfl (hOperation o)
    | call callee receiver args =>
      cases receiver <;> simp [eventName, Resumption.ofMembers?]
    | exit frame method how => cases hEnds
    | resume frame cls method how => cases hEnds
    | _ => simp [eventName, Resumption.ofMembers?]
  rw [ofMembers?, Statement.ofMembers_other a hStatement,
    Operation.ofMembers_other a hStatement hOperation, hExit, hResume]

end Dispatch

namespace Action

/- The fields of the end of an activation are read back. -/
theorem ofMembers_exit
    {frame : EventId}
    {method : String}
    {how : Exit Snapshot}
    (h : Holds m (Action.exit frame method how).members) :
    ofMembers? m
        (Action.exit (α := Snapshot) frame method how).eventName
      = some (.exit frame method how) := by
  simp only [members, Holds, List.forall_mem_append,
    List.forall_mem_cons] at h
  rcases h with ⟨⟨hFrame, hMethod, _⟩, hHow⟩
  rw [ofMembers?, Statement.ofMembers_other (.exit ..) rfl,
    Operation.ofMembers_other (.exit ..) rfl nofun,
    Exit.ofMembers_of_holds hHow]
  simp [field?, textField?, hFrame, hMethod]

/- The fields of the end of a call are read back. -/
theorem ofMembers_resume
    {frame : EventId}
    {cls method : String}
    {how : Resumption Snapshot}
    (h : Holds m (Action.resume frame cls method how).members) :
    ofMembers? m
        (Action.resume (α := Snapshot) frame cls method how).eventName
      = some (.resume frame cls method how) := by
  simp only [members, Holds, List.forall_mem_append,
    List.forall_mem_cons] at h
  rcases h with ⟨⟨hFrame, hCls, hMethod, _⟩, hHow⟩
  rw [ofMembers?, Statement.ofMembers_other (.resume ..) rfl,
    Operation.ofMembers_other (.resume ..) rfl nofun,
    Exit.ofMembers_resume, Resumption.ofMembers_of_holds hHow]
  simp [field?, textField?, hFrame, hCls, hMethod]

/- The fields of a call are read back. -/
theorem ofMembers_call
    {callee : Callee}
    {receiver : Option Snapshot}
    {args : List Snapshot}
    (h : Holds m (Action.call callee receiver args).members) :
    ofMembers? m
        (Action.call (κ := EventId) callee receiver args).eventName
      = some (.call callee receiver args) := by
  have hArgs := asList_map (Snapshot.inverts .deferred) args
  rw [ofMembers_other (.call ..) rfl nofun rfl]
  cases receiver with
  | none =>
    simp only [members, Holds, List.forall_mem_append] at h
    have hCallee := Callee.ofMembers_of_holds h.1
    simp_all [eventName, otherOfMembers?, snapshotsField?, field?]
  | some receiver =>
    simp only [members, Holds, List.forall_mem_append] at h
    have hCallee := Callee.ofMembers_of_holds h.1
    simp_all [eventName, otherOfMembers?, snapshotField?,
      snapshotsField?, field?]

/- The fields of the start of an activation are read back. -/
theorem ofMembers_enter
    {method : Callee}
    {enclosing : List OuterFrame}
    (h : Holds m (Action.enter method enclosing).members) :
    ofMembers? m "method_enter" = some (.enter method enclosing) := by
  have hEnclosing := asList_map OuterFrame.inverts enclosing
  have hOther : ofMembers? m "method_enter"
      = otherOfMembers? m "method_enter" :=
    ofMembers_other (.enter method enclosing) rfl nofun rfl
  rw [hOther]
  simp only [members, Holds, List.forall_mem_append] at h
  have hMethod := Callee.ofMembers_of_holds h.1
  simp_all [otherOfMembers?, field?]

/- The fields of any action are read back. -/
theorem ofMembers_of_holds
    {a : Action EventId Snapshot}
    (h : Holds m a.members) :
    ofMembers? m a.eventName = some a := by
  have hSnapshot := Snapshot.inverts .deferred
  cases a with
  | statement s =>
    rw [eventName, ofMembers?, Statement.ofMembers_of_holds h]
  | operation o =>
    have hStatement : Statement.ofMembers? m o.eventName = none :=
      Statement.ofMembers_other (.operation o) rfl
    rw [eventName, ofMembers?, hStatement,
      Operation.ofMembers_of_holds h]
  | exit frame method how => exact ofMembers_exit h
  | resume frame cls method how => exact ofMembers_resume h
  | call callee receiver args => exact ofMembers_call h
  | enter method enclosing => exact ofMembers_enter h
  | castAttempt value type succeeds =>
    rw [ofMembers_other (.castAttempt ..) rfl nofun rfl]
    simp_all [Holds, members, eventName, otherOfMembers?,
      snapshotField?, textField?, field?]
  | binary operator lhs rhs result =>
    have hRhs := h ("rhs", _)
      (List.mem_cons_of_mem _ (List.mem_cons_of_mem _
        (List.mem_cons_self ..)))
    have hField := optionalField_of_lookup hSnapshot hRhs
    rw [ofMembers_other (.binary ..) rfl nofun rfl]
    simp_all [Holds, members, eventName, otherOfMembers?,
      snapshotField?, optionalSnapshotField?, textField?, field?]
  | typeTest tested type result =>
    rw [ofMembers_other (.typeTest ..) rfl nofun rfl]
    simp_all [Holds, members, eventName, otherOfMembers?,
      snapshotField?, textField?, field?]

end Action

------------------------------------------------------------
-- Events
------------------------------------------------------------

/- The shapes of the events that are actions. -/
def Action.shapes : List (String × List String) :=
  Occurrence.shapes.filter fun shape => shape.1 != "initialization"

/- Every action is named like one of these shapes. -/
theorem Action.eventName_mem
    (a : Action EventId Snapshot) :
    a.eventName ∈ Action.shapes.map Prod.fst := by
  rw [← List.contains_iff_mem]
  cases a with
  | statement s => cases s <;> rfl
  | operation o => cases o <;> rfl
  | call callee receiver args => cases receiver <;> rfl
  | exit frame method how => cases how <;> rfl
  | resume frame cls method how => cases how <;> rfl
  | _ => rfl

/- Whether the text of an instant is read back. -/
def Timestamp.IsReadBack (t : Timestamp) : Prop :=
  Timestamp.ofText? t.text = some t

/- Whether the text of the instant of an event is read back. -/
def Occurrence.IsReadBack : Occurrence → Prop
  | .initialization time => time.IsReadBack
  | .action .. => True

/- The fields of what an event reports are read back. -/
theorem Occurrence.ofMembers_of_holds
    {what : Occurrence}
    {id : EventId}
    {parent : Option EventId}
    (hTime : what.IsReadBack)
    (h : Holds m what.members) :
    Occurrence.ofMembers? m (Event.mk id parent what).name
      = some what := by
  cases what with
  | initialization time =>
    have hRead : Timestamp.ofText? time.text = some time := hTime
    simp_all [Holds, members, Event.name, ofMembers?, textField?,
      field?]
  | action a span =>
    simp only [Holds, members, List.forall_mem_append,
      List.forall_mem_singleton] at h
    have hAction := Action.ofMembers_of_holds h.1
    have hName : ¬(a.eventName == "initialization") = true := by
      have hAll : ∀ name ∈ Action.shapes.map Prod.fst,
          ¬(name == "initialization") = true := by decide
      exact hAll a.eventName a.eventName_mem
    rw [Event.name, ofMembers?, if_neg hName, hAction]
    simp [field?, h.2]

namespace Event

/- Every event is named like a shape. -/
theorem name_mem (e : Event) :
    e.name ∈ Occurrence.shapes.map Prod.fst := by
  rcases e with ⟨id, parent, what⟩
  rcases what with time | ⟨a, span⟩
  · rw [← List.contains_iff_mem]
    rfl
  · have hSub : ∀ name ∈ Action.shapes.map Prod.fst,
        name ∈ Occurrence.shapes.map Prod.fst := by decide
    exact hSub a.eventName a.eventName_mem

/- Every event has a shape. -/
theorem lookup_name (e : Event) :
    ∃ fields, Occurrence.shapes.lookup e.name = some fields := by
  have hAll : ∀ name ∈ Occurrence.shapes.map Prod.fst,
      (Occurrence.shapes.lookup name).isSome = true := by decide
  exact Option.isSome_iff_exists.mp (hAll e.name e.name_mem)

/- An event is read back from its members. -/
theorem ofMembers_members
    {e : Event}
    (hTime : e.what.IsReadBack) :
    ofMembers? e.members = some e := by
  have hNodup : (e.members.map Prod.fst).Nodup :=
    (List.nodup_cons.mp e.memberNames_nodup).2
  have hHolds : Holds e.members e.members :=
    fun p hp => lookup_of_nodup hNodup hp
  have hWhat : Holds e.members e.what.members :=
    fun p hp => hHolds p (List.mem_append_right _ hp)
  have hId : e.members.lookup "id" = some e.id.toJson := rfl
  have hParent : e.members.lookup "parent_id"
      = some (ofOption EventId.toJson e.parent) := rfl
  have hType : e.members.lookup "type" = some (.str e.name) := rfl
  rcases e.lookup_name with ⟨fields, hShape⟩
  have hVariant : variant? .deferred
      (Occurrence.shapes.map Prod.fst) (.str e.name)
        = some e.name :=
    if_pos (List.contains_iff_mem.mpr e.name_mem)
  have hRead : Occurrence.ofMembers? e.members e.name
      = some e.what := Occurrence.ofMembers_of_holds hTime hWhat
  have hOnce : ∀ names : List String,
      names.all (occursOnce e.members) = true :=
    fun names => List.all_eq_true.mpr
      fun name _ => occursOnce_of_nodup hNodup name
  unfold ofMembers?
  rw [hOnce, field_of_lookup hId,
    optionalField_of_lookup EventId.inverts hParent,
    field_of_lookup hType, hVariant]
  simp [hShape, hOnce, hRead]

end Event

------------------------------------------------------------
-- Identifiers
------------------------------------------------------------

/- The value of a hexadecimal digit is read back. -/
theorem Hexadecimal.value_hexDigit
    {d : Nat}
    (h : d < 16) : Hexadecimal.value? (Quoted.hexDigit d) = some d := by
  have hAll : ∀ d < 16,
      Hexadecimal.value? (Quoted.hexDigit d) = some d := by decide
  exact hAll d h

/- The first digits of a number, most significant first. -/
def Hexadecimal.digits
    (n count : Nat) : List Nat :=
  (List.range count).map fun i => n / Nat.pow 16 (count - 1 - i) % 16

/- The last digit of a number comes after those of its sixteenth. -/
theorem Hexadecimal.digits_succ
    (n count : Nat) :
    digits n (count + 1) = digits (n / 16) count ++ [n % 16] := by
  unfold digits
  rw [List.range_succ, List.map_append, List.map_singleton]
  congr 1
  · refine List.map_congr_left fun i hi => ?_
    have hPower : count + 1 - 1 - i = count - 1 - i + 1 := by
      rw [List.mem_range] at hi
      omega
    rw [hPower, Nat.div_div_eq_div_mul]
    congr 2
    exact Nat.pow_succ'
  · simp

/- The digits of a number spell it, up to how many there are. -/
theorem Hexadecimal.foldl_digits
    (n count : Nat) :
    (digits n count).foldl (fun n d => 16 * n + d) 0
      = n % 16 ^ count := by
  induction count generalizing n with
  | zero =>
    rw [Nat.pow_zero, Nat.mod_one]
    rfl
  | succ count ih =>
    rw [digits_succ, List.foldl_append, ih, List.foldl_cons,
      List.foldl_nil, Nat.pow_succ', Nat.mod_mul, Nat.add_comm]

/- Digits are read back as the number that they spell. -/
theorem Hexadecimal.number_map
    {ds : List Nat}
    (h : ∀ d ∈ ds, d < 16) :
    Hexadecimal.number? (ds.map Quoted.hexDigit)
      = some (ds.foldl (fun n d => 16 * n + d) 0) := by
  have hDigits : (ds.map Quoted.hexDigit).mapM Hexadecimal.value?
      = some ds := by
    induction ds with
    | nil => rfl
    | cons d ds ih =>
      rw [List.forall_mem_cons] at h
      rw [List.map_cons, List.mapM_cons, value_hexDigit h.1, ih h.2]
      rfl
  unfold number?
  rw [hDigits]
  rfl

namespace Uuid

/- The digits of an identifier are read back. -/
theorem ofDigits_digits (u : Uuid) : ofDigits? u.digits = some u := by
  have hDigits : u.digits
      = (Hexadecimal.digits u.value.toNat 32).map Quoted.hexDigit := by
    simp [digits, Hexadecimal.digits]
  have hLength : u.digits.length = 32 := by simp [digits]
  have hSmall :
      ∀ d ∈ Hexadecimal.digits u.value.toNat 32, d < 16 := by
    intro d hd
    rcases List.mem_map.mp hd with ⟨i, _, rfl⟩
    exact Nat.mod_lt _ (by omega)
  have hBound : u.value.toNat < 16 ^ 32 := u.value.isLt
  unfold ofDigits?
  rw [if_pos hLength, hDigits, Hexadecimal.number_map hSmall,
    Hexadecimal.foldl_digits, Nat.mod_eq_of_lt hBound]
  simp

/- Some digits in five groups. -/
def grouped (ds : List Char) : List Char :=
  ds.take 8 ++ '-' :: ((ds.drop 8).take 4 ++ '-' ::
    ((ds.drop 12).take 4 ++ '-' :: ((ds.drop 16).take 4 ++ '-' ::
      ds.drop 20)))

/- The characters of the text of an identifier. -/
theorem toList_text (u : Uuid) : u.text.toList = grouped u.digits := by
  have hLength : u.digits.length = 32 := by simp [digits]
  have hLast : (u.digits.drop 20).take 12 = u.digits.drop 20 :=
    List.take_of_length_le (by rw [List.length_drop]; omega)
  simp [text, grouped, hLast]

section Groups

variable {ds : List Char}

/- Groups of digits have four hyphens between them. -/
theorem length_grouped (h : ds.length = 32) :
    (grouped ds).length = 36 := by
  simp [grouped, h]

/- Groups of digits are put together again. -/
theorem ungrouped_grouped (h : ds.length = 32) :
    ungrouped? (grouped ds) = some ds := by
  have hHyphens : [8, 13, 18, 23].all
      (fun i => (grouped ds)[i]? == some '-') = true := by
    simp [grouped, List.getElem?_append, h]
  have hJoin : ∀ n start, (ds.drop start).take n
      ++ ds.drop (start + n) = ds.drop start := by
    intro n start
    rw [← List.drop_drop, List.take_append_drop]
  have hParts : (grouped ds).take 8 ++ ((grouped ds).drop 9).take 4
      ++ ((grouped ds).drop 14).take 4 ++ ((grouped ds).drop 19).take 4
      ++ (grouped ds).drop 24 = ds := by
    simp [grouped, List.drop_append,
      List.drop_take, h, hJoin 4 8, hJoin 4 12, hJoin 4 16]
  unfold ungrouped?
  dsimp only
  rw [if_pos ⟨length_grouped h, hHyphens⟩, hParts]

/- Groups of digits are neither in braces nor behind a scheme. -/
theorem unwrapped_grouped (h : ds.length = 32) :
    unwrapped (grouped ds) = grouped ds := by
  have hStart : ¬((grouped ds).take "urn:uuid:".toList.length).map
      Char.toLower = "urn:uuid:".toList := by
    intro hScheme
    have hNinth := congrArg (fun cs => cs[8]?) hScheme
    simp [grouped, h] at hNinth
  unfold unwrapped
  dsimp only
  rw [if_neg, if_neg hStart]
  rw [length_grouped h]
  omega

end Groups

/- An identifier is read back from its text. -/
theorem ofText_text (u : Uuid) : ofText? u.text = some u := by
  have hLength : u.digits.length = 32 := by simp [digits]
  have hNone : ofDigits? (grouped u.digits) = none := by
    unfold ofDigits?
    rw [if_neg]
    rw [length_grouped hLength]
    omega
  unfold ofText?
  dsimp only
  rw [toList_text, hNone]
  dsimp only
  rw [unwrapped_grouped hLength, ungrouped_grouped hLength,
    Option.bind_some, ofDigits_digits]

end Uuid

------------------------------------------------------------
-- Records
------------------------------------------------------------

namespace Log

/- A header is read back if its instant is. -/
theorem Header.ofJson_members
    {h : Header}
    (hTime : h.createdAt.IsReadBack) :
    Header.ofJson? (.obj h.members) = some h := by
  have hRead : Timestamp.ofText? h.createdAt.text
      = some h.createdAt := hTime
  unfold Header.ofJson?
  rw [record_of_nodup (by simp [members])]
  simp [members, Uuid.ofText_text, hRead]

/- Whether the instant in a record is read back from its text. -/
def Record.IsReadBack : Record → Prop
  | .header h => h.createdAt.IsReadBack
  | .event e => e.what.IsReadBack
  | .finish _ => True

/- A record is read back if its instant is. -/
theorem Record.ofJson_toJson
    {r : Record}
    (hTime : r.IsReadBack) :
    Record.ofJson? r.toJson = some r := by
  unfold Record.ofJson?
  cases r with
  | header h =>
    have hTag : "record" ∉ h.members.map Prod.fst := by
      simp [Header.members]
    rw [toJson, tagged_cons hTag]
    simp [variant?, Header.ofJson_members hTime]
  | event e =>
    have hTag : "record" ∉ e.members.map Prod.fst :=
      (List.nodup_cons.mp e.memberNames_nodup).1
    rw [toJson, tagged_cons hTag]
    simp [variant?, Event.ofJson?, Event.ofMembers_members hTime]
  | finish count =>
    rw [toJson, tagged_cons (by simp)]
    simp [variant?, record_of_nodup]

end Log

end ExecTrace
