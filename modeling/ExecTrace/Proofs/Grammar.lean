import ExecTrace.Proofs.Logs

/-
  The grammar of logs. What is read as a log is a header of the
  current version, events, and at most one end marker behind them
  that announces as many events, each on a line of its own, with
  blank lines anywhere; everything else is refused. So the first
  lines of the text of a log are read as the log with its first
  events, as long as no record nests deeper than a line may: an
  array of more than 41 levels is written and not read back.

  Main declarations:
    * `Log.Spells`
    * `Log.Partial.Adds` and `Log.readLines_ok_iff`
    * `Log.ofLines_ok_iff`
    * `Log.ofBytes_textOf_iff`
    * `Log.ofBytes_grammar`
    * `Log.ofBytes_towerLog_iff`
-/

namespace ExecTrace

open Json

namespace Log

------------------------------------------------------------
-- Records that Spell a Log
------------------------------------------------------------

/-
  The records that spell a log: its header and its events, and if
  it has ended, how many events there are.
-/
inductive Spells : List Record → Reading → Prop where
  | cutShort
      (h : Header)
      (es : List Event)
      (version : h.schemaVersion = Log.schemaVersion) :
      Spells (.header h :: es.map .event) ⟨⟨h, es⟩, false⟩
  | finished
      (h : Header)
      (es : List Event)
      (version : h.schemaVersion = Log.schemaVersion) :
      Spells
        (.header h :: (es.map .event
          ++ [.finish (UInt64.ofNat es.length)]))
        ⟨⟨h, es⟩, true⟩

/- Some lines hold records and are blank otherwise. -/
def Holds
    (lines : List String)
    (records : List Record) : Prop :=
  (lines.filter fun s => !isBlank s).map Record.ofLine?
    = records.map some

section Holds

variable {lines : List String}
variable {line : String}
variable {records : List Record}

/- A blank line holds nothing. -/
theorem holds_blank
    (h : isBlank line = true) :
    Holds (line :: lines) records ↔ Holds lines records := by
  simp [Holds, h]

/- A line that is not blank holds one record. -/
theorem holds_cons
    (h : isBlank line = false) :
    Holds (line :: lines) records ↔
      ∃ r rest, records = r :: rest ∧ Record.ofLine? line = some r ∧
        Holds lines rest := by
  cases records with
  | nil => simp [Holds, h]
  | cons r rest => simp [Holds, h, and_assoc]

end Holds

------------------------------------------------------------
-- Adding Records One by One
------------------------------------------------------------

namespace Partial

variable {p q : Partial}
variable {r : Record}
variable {rs : List Record}

/- Records are added one by one, none of them after the end. -/
inductive Adds : Partial → List Record → Partial → Prop where
  | done
      (p : Partial) : Adds p [] p
  | more
      {p p' q : Partial}
      {r : Record}
      {rs : List Record}
      (goesOn : p.ended = false)
      (added : ∀ number, p.add number r = .ok p')
      (later : Adds p' rs q) : Adds p (r :: rs) q

/- Whether a record is added does not depend on its line. -/
theorem add_ok
    {number : Nat}
    (h : p.add number r = .ok q)
    (other : Nat) : p.add other r = .ok q := by
  cases r with
  | header h' =>
    unfold add at h ⊢
    dsimp only at h ⊢
    split_ifs at h ⊢
    exact h
  | event => exact h
  | finish => exact h

/- Nothing is added after the end. -/
theorem adds_ended
    (h : p.ended = true) : Adds p rs q ↔ rs = [] ∧ q = p := by
  constructor
  · intro hAdds
    cases hAdds with
    | done => exact ⟨rfl, rfl⟩
    | more goesOn => exact absurd (h.symm.trans goesOn) (by decide)
  · rintro ⟨rfl, rfl⟩
    exact .done _

section Reading

variable {h h' : Header}
variable {before es : List Event}
variable {e : Event}
variable {number : Nat}

/- No second header is added. -/
theorem add_header_reading :
    (reading h before).add number (.header h') ≠ .ok p := by
  simp [add, reading]

/- An event is added behind the others. -/
theorem add_event_reading :
    (reading h before).add number (.event e)
      = .ok (reading h (before ++ [e])) := by
  simp [add, reading]

/- An end marker is added if it announces all events. -/
theorem add_finish_reading
    {count : UInt64} :
    (reading h before).add number (.finish count) = .ok p ↔
      count = UInt64.ofNat before.length ∧
        p = ⟨some h, before.toArray, true⟩ := by
  have hSize : before.toArray.size = before.length := rfl
  unfold add reading
  dsimp only
  rw [hSize]
  by_cases hSame : count = UInt64.ofNat before.length
  · rw [if_neg (not_not.mpr hSame)]
    simp only [Except.ok.injEq, hSame, true_and, eq_comm]
  · rw [if_pos hSame]
    simp [hSame]

/-
  Behind a header and events come events and at most one end
  marker that announces all events.
-/
theorem adds_reading :
    Adds (reading h before) rs q ↔
      ∃ es,
        (rs = es.map .event ∧ q = reading h (before ++ es)) ∨
        (rs = es.map .event
            ++ [.finish (UInt64.ofNat (before ++ es).length)] ∧
          q = ⟨some h, (before ++ es).toArray, true⟩) := by
  constructor
  · intro hAdds
    induction rs generalizing before with
    | nil =>
      cases hAdds
      exact ⟨[], .inl ⟨rfl, by rw [List.append_nil]⟩⟩
    | cons r rs ih =>
      cases hAdds with
      | more goesOn added later =>
        cases r with
        | header h' => exact absurd (added 0) add_header_reading
        | event e =>
          cases add_event_reading.symm.trans (added 0)
          rcases ih later with ⟨es, ⟨rfl, rfl⟩ | ⟨rfl, rfl⟩⟩
          · exact ⟨e :: es, .inl ⟨rfl, by simp⟩⟩
          · exact ⟨e :: es, .inr ⟨by simp, by simp⟩⟩
        | finish count =>
          rcases add_finish_reading.mp (added 0) with ⟨rfl, rfl⟩
          rcases (adds_ended rfl).mp later with ⟨rfl, rfl⟩
          exact ⟨[], .inr ⟨by simp, by simp⟩⟩
  · rintro ⟨es, hAll⟩
    induction es generalizing rs before with
    | nil =>
      rw [List.append_nil] at hAll
      rcases hAll with ⟨rfl, rfl⟩ | ⟨rfl, rfl⟩
      · exact .done _
      · refine .more rfl (fun _ => ?_) (.done _)
        exact add_finish_reading.mpr ⟨rfl, rfl⟩
    | cons e es ih =>
      have hSplit : before ++ e :: es = (before ++ [e]) ++ es := by
        simp
      rw [hSplit] at hAll
      rcases hAll with ⟨rfl, rfl⟩ | ⟨rfl, rfl⟩
      · exact .more rfl (fun _ => add_event_reading)
          (ih (.inl ⟨rfl, rfl⟩))
      · exact .more rfl (fun _ => add_event_reading)
          (ih (.inr ⟨rfl, rfl⟩))

end Reading

/- Records that are added with a header among them spell a log. -/
theorem spells_of_adds
    {h : Header}
    (hAdds : Adds {} rs q)
    (hHeader : q.header = some h) :
    Spells rs ⟨⟨h, q.events.toList⟩, q.ended⟩ := by
  cases hAdds with
  | done => cases hHeader
  | @more _ p' _ r rs goesOn added later =>
    have hFirst := added 0
    cases r with
    | header first =>
      unfold add at hFirst
      dsimp only at hFirst
      split_ifs at hFirst with _ hOther
      cases hFirst
      have hRest : Adds (reading first []) rs q := later
      rcases adds_reading.mp hRest with
        ⟨es, ⟨rfl, rfl⟩ | ⟨rfl, rfl⟩⟩
      · cases hHeader
        exact .cutShort h es (not_not.mp hOther)
      · cases hHeader
        exact .finished h es (not_not.mp hOther)
    | event => cases hFirst
    | finish count =>
      -- An end marker comes first, so the header never comes.
      unfold add at hFirst
      dsimp only at hFirst
      split_ifs at hFirst
      cases hFirst
      rcases (adds_ended rfl).mp later with ⟨_, rfl⟩
      cases hHeader

/- Records that spell a log are added one by one. -/
theorem adds_of_spells
    {l : Reading}
    (h : Spells rs l) :
    Adds {} rs
      ⟨some l.log.header, l.log.events.toArray, l.ended⟩ := by
  have hHeader : ∀ {h : Header} (number : Nat),
      h.schemaVersion = Log.schemaVersion →
        Partial.add {} number (.header h) = .ok (reading h []) := by
    intro h number version
    simp [add, reading, version]
  cases h with
  | cutShort h es version =>
    exact .more rfl (fun number => hHeader number version)
      (adds_reading.mpr ⟨es, .inl ⟨rfl, rfl⟩⟩)
  | finished h es version =>
    exact .more rfl (fun number => hHeader number version)
      (adds_reading.mpr ⟨es, .inr ⟨rfl, rfl⟩⟩)

end Partial

------------------------------------------------------------
-- Reading Lines
------------------------------------------------------------

/- Lines are read if they are texts and their records are added. -/
theorem readLines_ok_iff
    {p q : Partial}
    {number : Nat}
    {lines : List (Option String)} :
    readLines p number lines = .ok q ↔
      ∃ texts records, lines = texts.map some ∧
        Holds texts records ∧ p.Adds records q := by
  induction lines generalizing p number with
  | nil =>
    constructor
    · rintro ⟨⟩
      exact ⟨[], [], rfl, rfl, .done _⟩
    · rintro ⟨texts, records, hTexts, hHolds, hAdds⟩
      cases List.map_eq_nil_iff.mp hTexts.symm
      cases List.map_eq_nil_iff.mp hHolds.symm
      cases hAdds
      rfl
  | cons line lines ih =>
    cases line with
    | none =>
      constructor
      · rintro ⟨⟩
      · rintro ⟨texts, _, hTexts, _⟩
        cases texts <;> cases hTexts
    | some line =>
      cases hBlank : isBlank line with
      | true =>
        rw [readLines, if_pos hBlank, ih]
        constructor
        · rintro ⟨texts, records, rfl, hHolds, hAdds⟩
          exact ⟨line :: texts, records, rfl,
            (holds_blank hBlank).mpr hHolds, hAdds⟩
        · rintro ⟨texts, records, hTexts, hHolds, hAdds⟩
          rcases List.map_eq_cons_iff.mp hTexts.symm with
            ⟨_, texts, rfl, ⟨⟩, rfl⟩
          exact ⟨texts, records, rfl,
            (holds_blank hBlank).mp hHolds, hAdds⟩
      | false =>
        constructor
        · intro hRead
          rw [readLines, hBlank, if_neg Bool.false_ne_true] at hRead
          cases hEnded : p.ended with
          | true =>
            rw [hEnded] at hRead
            cases hRead
          | false =>
            rw [hEnded, if_neg Bool.false_ne_true] at hRead
            cases hLine : Record.ofLine? line with
            | none =>
              rw [hLine] at hRead
              cases hRead
            | some r =>
              rw [hLine] at hRead
              dsimp only at hRead
              cases hAdd : p.add number r with
              | error m =>
                rw [hAdd] at hRead
                cases hRead
              | ok p' =>
                rw [hAdd] at hRead
                rcases ih.mp hRead with
                  ⟨texts, rest, rfl, hRest, hAdds⟩
                exact ⟨line :: texts, r :: rest, rfl,
                  (holds_cons hBlank).mpr
                    ⟨r, rest, rfl, hLine, hRest⟩,
                  .more hEnded (Partial.add_ok hAdd) hAdds⟩
        · rintro ⟨texts, records, hTexts, hHolds, hAdds⟩
          rcases List.map_eq_cons_iff.mp hTexts.symm with
            ⟨_, texts, rfl, ⟨⟩, rfl⟩
          rcases (holds_cons hBlank).mp hHolds with
            ⟨r, rest, rfl, hLine, hRest⟩
          cases hAdds with
          | more goesOn added later =>
            rw [readLines, hBlank, goesOn, hLine]
            simp only [added]
            exact ih.mpr ⟨texts, rest, rfl, hRest, later⟩

/-
  Lines are read as a log exactly if they are texts, and those
  that are not blank hold records that spell the log.
-/
theorem ofLines_ok_iff
    {lines : List (Option String)}
    {l : Reading} :
    ofLines? lines = .ok l ↔
      ∃ texts records, lines = texts.map some ∧
        Holds texts records ∧ Spells records l := by
  unfold ofLines?
  constructor
  · intro hRead
    cases hLines : readLines {} 1 lines with
    | error m =>
      rw [hLines] at hRead
      cases hRead
    | ok q =>
      rw [hLines] at hRead
      rcases readLines_ok_iff.mp hLines with
        ⟨texts, records, hTexts, hHolds, hAdds⟩
      refine ⟨texts, records, hTexts, hHolds, ?_⟩
      cases hHeader : q.header with
      | none =>
        simp only [hHeader] at hRead
        cases hRead
      | some h =>
        simp only [hHeader] at hRead
        cases hRead
        exact Partial.spells_of_adds hAdds hHeader
  · rintro ⟨texts, records, hTexts, hHolds, hSpells⟩
    rw [readLines_ok_iff.mpr ⟨texts, records, hTexts, hHolds,
      Partial.adds_of_spells hSpells⟩]

------------------------------------------------------------
-- Reading What Was Written
------------------------------------------------------------

/-
  A record is read back from its line, and as nothing else, if
  its document nests no deeper than a line may.
-/
theorem Record.ofLine_compact_iff
    {r r' : Record}
    (hInstant : r.IsReadBack) :
    Record.ofLine? r.toJson.compact = some r' ↔
      r.toJson.fits maxNesting = true ∧ r' = r := by
  unfold ofLine?
  rw [Json.ofText_compact_eq r.readable]
  cases hFits : r.toJson.fits maxNesting with
  | false => simp
  | true => simp [Record.ofJson_toJson hInstant, eq_comm]

/- The lines of records that nest no deeper hold the records. -/
theorem holds_lines
    {rs records : List Record}
    (hInstants : ∀ r ∈ rs, r.IsReadBack) :
    Holds (rs.map fun r => r.toJson.compact) records ↔
      (∀ r ∈ rs, r.toJson.fits maxNesting = true) ∧ records = rs := by
  induction rs generalizing records with
  | nil =>
    have hNone : Holds [] records ↔ records = [] :=
      eq_comm.trans List.map_eq_nil_iff
    simp [hNone]
  | cons r rs ih =>
    rw [List.forall_mem_cons] at hInstants
    rcases hInstants with ⟨hFirst, hOthers⟩
    rw [List.map_cons, holds_cons r.isBlank_compact,
      List.forall_mem_cons]
    constructor
    · rintro ⟨r', rest, rfl, hLine, hRest⟩
      rcases (Record.ofLine_compact_iff hFirst).mp hLine with
        ⟨hFits, rfl⟩
      rcases (ih hOthers).mp hRest with ⟨hOthersFit, rfl⟩
      exact ⟨⟨hFits, hOthersFit⟩, rfl⟩
    · rintro ⟨⟨hFits, hOthersFit⟩, rfl⟩
      exact ⟨r, rs, rfl,
        (Record.ofLine_compact_iff hFirst).mpr ⟨hFits, rfl⟩,
        (ih hOthers).mpr ⟨hOthersFit, rfl⟩⟩

/- Bytes are read as a log exactly if their lines are. -/
theorem ofBytes_ok_iff
    {bytes : ByteArray}
    {l : Reading} :
    ofBytes? bytes = .ok l ↔
      ofLines? ((splitLines bytes.toList).map lineText?) = .ok l := by
  unfold ofBytes?
  cases ofLines? ((splitLines bytes.toList).map lineText?) <;> simp

/- The text of records is read as the log that they spell. -/
theorem ofBytes_textOf_iff
    {rs : List Record}
    {l : Reading}
    (hInstants : ∀ r ∈ rs, r.IsReadBack) :
    ofBytes? (Record.textOf rs).toUTF8 = .ok l ↔
      (∀ r ∈ rs, r.toJson.fits maxNesting = true) ∧ Spells rs l := by
  rw [ofBytes_ok_iff, Record.lines_textOf, ofLines_ok_iff]
  constructor
  · rintro ⟨texts, records, hTexts, hHolds, hSpells⟩
    have hSame : rs.map (fun r => r.toJson.compact) = texts :=
      List.map_injective_iff.mpr (Option.some_injective _) hTexts
    rw [← hSame] at hHolds
    rcases (holds_lines hInstants).mp hHolds with ⟨hFits, rfl⟩
    exact ⟨hFits, hSpells⟩
  · rintro ⟨hFits, hSpells⟩
    exact ⟨_, rs, rfl, (holds_lines hInstants).mpr ⟨hFits, rfl⟩,
      hSpells⟩

/- The first records of a log, up to one of its events. -/
theorem take_records
    {l : Log}
    {k : Nat}
    (hk : k ≤ l.events.length) :
    l.records.take (k + 1)
      = .header l.header :: (l.events.take k).map .event := by
  have hEvents : k ≤ (l.events.map Record.event).length := by
    rw [List.length_map]
    exact hk
  unfold records
  rw [List.cons_append, List.take_succ_cons,
    List.take_append_of_le_length hEvents, List.map_take]

/- A header and events spell the log that was cut short there. -/
theorem spells_events_iff
    {h : Header}
    {es : List Event}
    {l : Reading} :
    Spells (.header h :: es.map .event) l ↔
      h.schemaVersion = Log.schemaVersion ∧ l = ⟨⟨h, es⟩, false⟩ := by
  have hInjective : Function.Injective Record.event :=
    fun _ _ h => Record.event.inj h
  constructor
  · intro hSpells
    generalize hRecords : Record.header h :: es.map .event = rs
      at hSpells
    cases hSpells with
    | cutShort h' es' version =>
      rw [List.cons.injEq, Record.header.injEq] at hRecords
      rcases hRecords with ⟨rfl, hEvents⟩
      cases List.map_injective_iff.mpr hInjective hEvents
      exact ⟨version, rfl⟩
    | finished h' es' version =>
      -- No event is an end marker.
      rw [List.cons.injEq] at hRecords
      have hEnd : Record.finish (UInt64.ofNat es'.length)
          ∈ es.map .event := by
        rw [hRecords.2]
        simp
      rcases List.mem_map.mp hEnd with ⟨e, _, hEvent⟩
      cases hEvent
  · rintro ⟨version, rfl⟩
    exact .cutShort h es version

/-
  The first lines of the text of a log, its header and some
  events, are read as the log with these events exactly if the
  version is the current one and the documents of these records
  nest no deeper than a line may. Otherwise they are refused.
-/
theorem ofBytes_firstLines_iff
    {l : Log}
    {k : Nat}
    (hk : k ≤ l.events.length)
    (hInstants : ∀ r ∈ l.records, r.IsReadBack)
    {first : Reading} :
    ofBytes? (Record.textOf (l.records.take (k + 1))).toUTF8
        = .ok first ↔
      l.header.schemaVersion = Log.schemaVersion ∧
      (∀ r ∈ l.records.take (k + 1),
        r.toJson.fits maxNesting = true) ∧
      first = ⟨⟨l.header, l.events.take k⟩, false⟩ := by
  have hFirst : ∀ r ∈ l.records.take (k + 1), r.IsReadBack :=
    fun r hr => hInstants r (List.mem_of_mem_take hr)
  rw [ofBytes_textOf_iff hFirst, take_records hk, spells_events_iff]
  exact and_left_comm

------------------------------------------------------------
-- Arrays Inside Arrays
------------------------------------------------------------

/- Null inside a number of arrays, each the only item of the next. -/
def tower : Nat → Snapshot
  | 0 => .null
  | n + 1 => .arr [tower n] ""

/- Every array takes three brackets, and null takes two. -/
theorem fits_tower
    {n depth : Nat} :
    (tower n).toJson.fits depth = true ↔ 3 * n + 2 ≤ depth := by
  induction n generalizing depth with
  | zero =>
    rcases depth with _ | _ | depth
    · simp [tower, Snapshot.null, Snapshot.toJson, Snapshot.tagged,
        fits]
    · simp [tower, Snapshot.null, Snapshot.toJson, Snapshot.tagged,
        fits, fitsMembers]
    · simp [tower, Snapshot.null, Snapshot.toJson, Snapshot.tagged,
        fits, fitsMembers, Json.ofNat, isInteger]
  | succ n ih =>
    rcases depth with _ | _ | _ | depth
    · simp [tower, Snapshot.toJson, Snapshot.tagged, fits]
    · simp [tower, Snapshot.toJson, Snapshot.tagged, fits, fitsMembers]
    · simp [tower, Snapshot.toJson, Snapshot.tagged, fits, fitsMembers]
    · have hInside :
          3 * n + 2 ≤ depth ↔ 3 * (n + 1) + 2 ≤ depth + 3 := by
        omega
      simp only [tower, Snapshot.toJson, Snapshot.toJsonList,
        Snapshot.tagged, fits, fitsMembers, fitsItems, Bool.and_true,
        Bool.true_and, ih, hInside]

/- The assignment of a tower of arrays to a variable. -/
def assignTower (n : Nat) : Event :=
  ⟨.first, none,
    .action (.operation (.assign (.localVar "a") (tower n))) .unknown⟩

/- The record of this assignment fits for at most 41 arrays. -/
theorem fits_assignTower
    {n : Nat} :
    (Record.event (assignTower n)).toJson.fits maxNesting = true ↔
      n ≤ 41 := by
  have hId : EventId.first.toJson.fits 126 = true := by decide
  have hParent :
      (ofOption EventId.toJson none).fits 126 = true := by decide
  have hPlace : (Place.toJson Snapshot.toJson
      (.localVar "a")).fits 126 = true := by decide
  have hSpan : Span.unknown.toJson.fits 126 = true := by decide
  simp [assignTower, Record.toJson, Event.members,
    Occurrence.members, Action.members, Operation.members, maxNesting,
    fits, fitsMembers, fits_tower, hId, hParent, hPlace, hSpan]
  omega

/- The log of this assignment. -/
def towerLog (n : Nat) : Log :=
  ⟨nestedLog.header, [assignTower n]⟩

/- The records of this log. -/
theorem records_towerLog (n : Nat) :
    (towerLog n).records
      = [.header nestedLog.header, .event (assignTower n),
        .finish 1] :=
  rfl

/- The instant of this log is read back. -/
theorem towerLog_isReadBack
    (n : Nat) : ∀ r ∈ (towerLog n).records, r.IsReadBack := by
  have hHeader : (Record.header nestedLog.header).IsReadBack :=
    nestedLog_isReadBack _ List.mem_cons_self
  rw [records_towerLog]
  simpa [Record.IsReadBack, Occurrence.IsReadBack, assignTower]
    using hHeader

/-
  The header and the event of this log are read back for at most
  41 arrays, and refused for more.
-/
theorem ofBytes_towerLog_iff
    {n : Nat}
    {first : Reading} :
    ofBytes? (Record.textOf ((towerLog n).records.take 2)).toUTF8
        = .ok first ↔
      n ≤ 41 ∧ first = ⟨towerLog n, false⟩ := by
  have hVersion : (towerLog n).header.schemaVersion
      = Log.schemaVersion := rfl
  have hEvents : (towerLog n).events.take 1 = (towerLog n).events :=
    rfl
  have hHeader : (Record.header nestedLog.header).toJson.fits
      maxNesting = true := by decide
  rw [ofBytes_firstLines_iff (Nat.le_refl 1) (towerLog_isReadBack n),
    records_towerLog, hEvents]
  simp [hVersion, hHeader, fits_assignTower]

------------------------------------------------------------
-- The Grammar
------------------------------------------------------------

/-
  Bytes are read as a log exactly if their lines are texts and
  those that are not blank hold records that spell the log: a
  header of the current version, the events, and nothing else or
  one end marker that announces as many events. All other bytes
  are refused. In particular, the first lines of the text of a
  log are read as the log with its first events exactly if the
  version is the current one and no record nests too deep.
-/
theorem ofBytes_grammar
    (bytes : ByteArray)
    (reading : Reading)
    {l : Log}
    {k : Nat}
    (hk : k ≤ l.events.length)
    (hInstants : ∀ r ∈ l.records, r.IsReadBack)
    (first : Reading) :
    (ofBytes? bytes = .ok reading ↔
      ∃ texts records,
        (splitLines bytes.toList).map lineText? = texts.map some ∧
          Holds texts records ∧ Spells records reading) ∧
    (ofBytes? (Record.textOf (l.records.take (k + 1))).toUTF8
        = .ok first ↔
      l.header.schemaVersion = Log.schemaVersion ∧
      (∀ r ∈ l.records.take (k + 1),
        r.toJson.fits maxNesting = true) ∧
      first = ⟨⟨l.header, l.events.take k⟩, false⟩) := by
  constructor
  · rw [ofBytes_ok_iff, ofLines_ok_iff]
  · exact ofBytes_firstLines_iff hk hInstants

/-
  The header and the first event of the nested log are read as
  the log that was cut short behind this event.
-/
theorem ofBytes_grammar_nested :
    (1 ≤ nestedLog.events.length ∧
      ∀ r ∈ nestedLog.records, r.IsReadBack) ∧
    ofBytes? (Record.textOf (nestedLog.records.take 2)).toUTF8
      = .ok ⟨⟨nestedLog.header, nestedLog.events.take 1⟩, false⟩ := by
  have hEvents : 1 ≤ nestedLog.events.length := by decide
  have hFits : ∀ r ∈ nestedLog.records.take 2,
      r.toJson.fits maxNesting = true :=
    fun r hr => nestedLog_fits r (List.mem_of_mem_take hr)
  have hGrammar := ofBytes_grammar ByteArray.empty ⟨nestedLog, true⟩
    hEvents nestedLog_isReadBack
    ⟨⟨nestedLog.header, nestedLog.events.take 1⟩, false⟩
  exact ⟨⟨hEvents, nestedLog_isReadBack⟩,
    hGrammar.2.mpr ⟨rfl, hFits, rfl⟩⟩

/-
  With 42 arrays inside each other, the header and the event of a
  log of the current version are not read back.
-/
theorem ofBytes_grammar_deep :
    (towerLog 42).header.schemaVersion = Log.schemaVersion ∧
      1 ≤ (towerLog 42).events.length ∧
      ofBytes? (Record.textOf ((towerLog 42).records.take 2)).toUTF8
        ≠ .ok ⟨⟨(towerLog 42).header, (towerLog 42).events.take 1⟩,
          false⟩ := by
  refine ⟨rfl, Nat.le_refl 1, fun hRead => ?_⟩
  exact absurd (ofBytes_towerLog_iff.mp hRead).1 (by decide)

end Log

end ExecTrace
