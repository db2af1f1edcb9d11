import ExecTrace.Proofs.Codecs
import ExecTrace.Proofs.Nesting

/-
  Logs. The text of a log is read back as the log: no record
  breaks a line, so the lines that are read are the records that
  were written, in their order.

  Main declarations:
    * `Json.Unbroken`
    * `Log.Record.readable`
    * `Log.splitLines_lines`
    * `Log.ofBytes_text`
-/

namespace ExecTrace

open Json

------------------------------------------------------------
-- Documents without line breaks
------------------------------------------------------------

namespace Json

/- Whether the text of a document has no line break. -/
def Unbroken (j : Json) : Prop :=
  '\n' ∉ j.compact.toList

/- No character is spelled with a line break. -/
theorem newline_not_mem_escapeChar (c : Char) :
    '\n' ∉ escapeChar c := by
  have hDigit : ∀ n < 32, '\n' ≠ escapeDigit (n / 16)
      ∧ '\n' ≠ escapeDigit (n % 16) := by decide
  unfold escapeChar
  split_ifs with _ _ _ _ hBreak _ _ hControl
  any_goals decide
  · rcases hDigit c.toNat hControl with ⟨hHigh, hLow⟩
    simp [hHigh, hLow]
  · simpa using fun h => hBreak h.symm

/- A quoted string has no line break. -/
theorem newline_not_mem_quoted (s : String) :
    '\n' ∉ (quoted s).toList := by
  rw [toList_quoted]
  intro h
  simp only [List.mem_cons, List.mem_append, List.mem_flatMap] at h
  rcases h with h | ⟨c, _, hc⟩ | h
  · exact absurd h (by decide)
  · exact newline_not_mem_escapeChar c hc
  · rcases h with h | h
    · exact absurd h (by decide)
    · cases h

/- Items without line breaks make up an array without one. -/
theorem unbroken_arr
    {items : List Json}
    (h : ∀ j ∈ items, j.Unbroken) : Unbroken (.arr items) := by
  have hItems : '\n' ∉ (compactItems items).toList := by
    induction items with
    | nil => decide
    | cons j items ih =>
      rw [List.forall_mem_cons] at h
      rcases h with ⟨hFirst, hOthers⟩
      cases items with
      | nil => exact hFirst
      | cons k items =>
        rw [toList_compactItems]
        simp [ih hOthers, show '\n' ∉ j.compact.toList from hFirst]
  unfold Unbroken
  rw [toList_compact_arr]
  simp [hItems]

/- Members without line breaks make up an object without one. -/
theorem unbroken_obj
    {members : Members}
    (h : ∀ p ∈ members, p.2.Unbroken) :
    Unbroken (.obj members) := by
  have hMembers : '\n' ∉ (compactMembers members).toList := by
    induction members with
    | nil => decide
    | cons p members ih =>
      rcases p with ⟨key, j⟩
      rw [List.forall_mem_cons] at h
      rcases h with ⟨hFirst, hOthers⟩
      have hKey := newline_not_mem_quoted key
      have hValue : '\n' ∉ j.compact.toList := hFirst
      cases members with
      | nil =>
        rw [toList_compactMember]
        simp [hKey, hValue]
      | cons m members =>
        rw [toList_compactMembers]
        simp [hKey, hValue, ih hOthers]
  unfold Unbroken
  rw [toList_compact_obj]
  simp [hMembers]

mutual

/- A document that fits somewhere has no line break. -/
theorem unbroken_of_fits
    {depth : Nat}
    {j : Json}
    (h : j.fits depth = true) : j.Unbroken := by
  cases j with
  | null =>
    unfold Unbroken
    decide
  | bool b =>
    unfold Unbroken
    cases b <;> decide
  | int n =>
    intro hBreak
    have hDigits : (compact (.int n)).toList = digitsOf n :=
      toList_toString n
    rw [hDigits] at hBreak
    exact absurd (isNumberChar_digitsOf n _ hBreak) (by decide)
  | otherNumber => cases h
  | str s => exact newline_not_mem_quoted s
  | arr items =>
    cases depth with
    | zero => cases h
    | succ depth => exact unbroken_arr (unbroken_of_fitsItems h)
  | obj members =>
    cases depth with
    | zero => cases h
    | succ depth => exact unbroken_obj (unbroken_of_fitsMembers h)

/- Items that fit somewhere have no line break. -/
theorem unbroken_of_fitsItems
    {depth : Nat}
    {items : List Json}
    (h : fitsItems depth items = true) :
    ∀ j ∈ items, j.Unbroken := by
  cases items with
  | nil => exact nofun
  | cons j items =>
    rcases Bool.and_eq_true_iff.mp h with ⟨hFirst, hOthers⟩
    exact List.forall_mem_cons.mpr
      ⟨unbroken_of_fits hFirst, unbroken_of_fitsItems hOthers⟩

/- Members that fit somewhere have no line break. -/
theorem unbroken_of_fitsMembers
    {depth : Nat}
    {members : Members}
    (h : fitsMembers depth members = true) :
    ∀ p ∈ members, p.2.Unbroken := by
  cases members with
  | nil => exact nofun
  | cons p members =>
    rcases p with ⟨key, j⟩
    rcases Bool.and_eq_true_iff.mp h with ⟨hFirst, hOthers⟩
    exact List.forall_mem_cons.mpr
      ⟨unbroken_of_fits hFirst, unbroken_of_fitsMembers hOthers⟩

end

/- A readable document has no line break. -/
theorem Readable.unbroken
    {j : Json}
    (h : j.Readable) : j.Unbroken := by
  rcases h with ⟨_, hFits⟩
  exact unbroken_of_fits hFits

end Json

------------------------------------------------------------
-- Records are readable
------------------------------------------------------------

/- The document of a scalar is readable. -/
@[simp]
theorem Scalar.readable (v : Scalar) : v.toJson.Readable := by
  cases v with
  | bool b => exact readable_bool b
  | byte v =>
    have hLow := v.le_toInt
    have hHigh := v.toInt_lt
    exact readable_int (isInteger_iff.mpr (by omega))
  | short v =>
    have hLow := v.le_toInt
    have hHigh := v.toInt_lt
    exact readable_int (isInteger_iff.mpr (by omega))
  | int v =>
    have hLow := v.le_toInt
    have hHigh := v.toInt_lt
    exact readable_int (isInteger_iff.mpr (by omega))
  | long v =>
    have hLow := v.le_toInt
    have hHigh := v.toInt_lt
    exact readable_int (isInteger_iff.mpr (by omega))
  | float bits => exact readable_uint32 bits
  | double bits => exact readable_uint64 bits
  | char c => exact readable_str _

mutual

/- The document of a snapshot is readable. -/
@[simp]
theorem Snapshot.readable (s : Snapshot) : s.toJson.Readable := by
  cases s with
  | scalar v => simp [toJson, tagged]
  | ref identity type display => simp [toJson, tagged]
  | arr elements display =>
    have hElements := readable_arr (Snapshot.readableList elements)
    simp [toJson, tagged, hElements]

/- The documents of some snapshots are readable. -/
theorem Snapshot.readableList (ss : List Snapshot) :
    ∀ j ∈ toJsonList ss, j.Readable := by
  cases ss with
  | nil => exact nofun
  | cons s ss =>
    rw [toJsonList, List.forall_mem_cons]
    exact ⟨Snapshot.readable s, Snapshot.readableList ss⟩

end

/- The document of a position is readable. -/
@[simp]
theorem Span.readable (s : Span) : s.toJson.Readable := by
  simp [toJson]

/- The document of a jump target is readable. -/
@[simp]
theorem JumpTarget.readable (t : JumpTarget) : t.toJson.Readable := by
  simp [toJson]

/- The document of a frame is readable. -/
@[simp]
theorem OuterFrame.readable (f : OuterFrame) : f.toJson.Readable := by
  simp [toJson]

/- The document of a loop is readable. -/
@[simp]
theorem LoopKind.readable (k : LoopKind) : k.toJson.Readable := by
  simp [toJson]

/- The document of the number of an event is readable. -/
@[simp]
theorem EventId.readable (id : EventId) : id.toJson.Readable := by
  simp [toJson]

/- The document of a place is readable. -/
@[simp]
theorem Place.readable (p : Place Snapshot) :
    (p.toJson Snapshot.toJson).Readable := by
  cases p <;> simp [toJson]

/- The fields of an action are readable. -/
theorem Action.readable
    (a : Action EventId Snapshot) :
    ∀ p ∈ a.members, p.2.Readable := by
  cases a with
  | statement s => cases s <;> simp [members, Statement.members]
  | operation o => cases o <;> simp [members, Operation.members]
  | call callee receiver args =>
    cases receiver <;> simp [members, Callee.members]
  | exit frame method how => cases how <;> simp [members, Exit.members]
  | resume frame cls method how =>
    cases how <;> simp [members, Resumption.members]
  | _ => simp [members, Callee.members]

/- The fields of what an event reports are readable. -/
theorem Occurrence.readable
    (what : Occurrence) :
    ∀ p ∈ what.members, p.2.Readable := by
  cases what with
  | initialization time => simp [members]
  | action a span =>
    rw [members, List.forall_mem_append, List.forall_mem_singleton]
    exact ⟨a.readable, span.readable⟩

/- The members of an event are readable. -/
theorem Event.readable (e : Event) :
    ∀ p ∈ e.members, p.2.Readable := by
  rw [members, List.forall_mem_append]
  exact ⟨by simp, e.what.readable⟩

namespace Log

/- The document of a record is readable. -/
theorem Record.readable (r : Record) : r.toJson.Readable := by
  cases r with
  | header h => simp [toJson, Header.members]
  | event e =>
    refine readable_obj ?_
    rw [List.forall_mem_cons]
    exact ⟨readable_str _, e.readable⟩
  | finish count => simp [toJson]

/- The document of a record is an object. -/
theorem Record.toJson_obj (r : Record) : ∃ m, r.toJson = .obj m := by
  cases r <;> exact ⟨_, rfl⟩

/- The text of a record is in braces. -/
theorem Record.line_braces (r : Record) :
    ∃ cs, r.toJson.compact.toList = '\x7b' :: (cs ++ ['\x7d']) := by
  rcases r.toJson_obj with ⟨m, hObj⟩
  exact ⟨_, by rw [hObj, toList_compact_obj]⟩

end Log

------------------------------------------------------------
-- Lines of bytes
------------------------------------------------------------

/- The bytes of a string. -/
def bytesOf (s : String) : List UInt8 :=
  s.toList.flatMap String.utf8EncodeChar

/- The bytes of a string are those that make it up. -/
theorem data_toByteArray (s : String) :
    s.toByteArray.data.toList = bytesOf s := by
  rw [← String.utf8Encode_toList]
  exact List.toList_data_toByteArray

/- Bytes are listed in their order, after those listed before. -/
theorem toList_loop
    (b : ByteArray)
    (i : Nat)
    (before : List UInt8) :
    ByteArray.toList.loop b i before
      = before.reverse ++ b.data.toList.drop i := by
  fun_induction ByteArray.toList.loop b i before with
  | case1 i before h ih =>
    have hSize : i < b.data.toList.length := h
    have hItem : b.data.toList.drop i
        = b.get! i :: b.data.toList.drop (i + 1) := by
      rw [List.drop_eq_getElem_cons hSize]
      congr 1
      have hGet : b.get! i = b.data[i]! := rfl
      rw [hGet, getElem!_pos b.data i h]
      rfl
    rw [ih, hItem]
    simp
  | case2 i before h =>
    have hEnd : b.data.toList.drop i = [] :=
      List.drop_eq_nil_of_le (Nat.le_of_not_lt h)
    rw [hEnd, List.append_nil]

/- A byte is ten only if the number it is made of is. -/
theorem ofNat_ne_ten
    {n : Nat}
    (hBound : n < 256)
    (h : n ≠ 10) : 10 ≠ UInt8.ofNat n := by
  intro hTen
  have hNat := congrArg UInt8.toNat hTen
  rw [UInt8.toNat_ofNat', Nat.mod_eq_of_lt hBound] at hNat
  exact h hNat.symm

/- Only a line break has the byte of a line break. -/
theorem newline_not_mem_utf8
    {c : Char}
    (h : c ≠ '\n') : 10 ∉ String.utf8EncodeChar c := by
  have hCode : c.val.toNat ≠ 10 := by
    intro hTen
    exact h (Char.toNat_inj.mp hTen)
  unfold String.utf8EncodeChar
  dsimp only
  split_ifs
  all_goals
    simp only [List.mem_cons, List.not_mem_nil, or_false, not_or]
  · exact ofNat_ne_ten (by omega) hCode
  · refine ⟨?_, ?_⟩
    all_goals exact ofNat_ne_ten (by omega) (by omega)
  · refine ⟨?_, ?_, ?_⟩
    all_goals exact ofNat_ne_ten (by omega) (by omega)
  · refine ⟨?_, ?_, ?_, ?_⟩
    all_goals exact ofNat_ne_ten (by omega) (by omega)

/- The bytes of a string without line breaks have none either. -/
theorem newline_not_mem_bytesOf
    {s : String}
    (h : '\n' ∉ s.toList) : 10 ∉ bytesOf s := by
  intro hMem
  rcases List.mem_flatMap.mp hMem with ⟨c, hc, hByte⟩
  have hOther : c ≠ '\n' := by
    rintro rfl
    exact h hc
  exact newline_not_mem_utf8 hOther hByte

/- The bytes of two strings one after the other. -/
theorem bytesOf_append (s t : String) :
    bytesOf (s ++ t) = bytesOf s ++ bytesOf t := by
  simp [bytesOf]

/- The bytes of some strings one after the other. -/
theorem bytesOf_join (ss : List String) :
    bytesOf (String.join ss) = ss.flatMap bytesOf := by
  induction ss with
  | nil => rfl
  | cons s ss ih =>
    rw [List.flatMap_cons, ← ih]
    simp [String.join_cons, bytesOf_append]

/- The bytes of a string are read back as the string. -/
theorem fromUTF8_bytesOf (s : String) :
    String.fromUTF8? ⟨(bytesOf s).toArray⟩ = some s := by
  have hBytes : (⟨(bytesOf s).toArray⟩ : ByteArray)
      = s.toByteArray := by
    rw [← data_toByteArray]
  rw [hBytes]
  exact dif_pos s.isValidUTF8

namespace Log

/- A line that is ended is the first line. -/
theorem splitLines_cons
    {line : List UInt8}
    (h : 10 ∉ line)
    (rest : List UInt8) :
    splitLines (line ++ 10 :: rest) = line :: splitLines rest := by
  induction line with
  | nil => rfl
  | cons b line ih =>
    rw [List.mem_cons, not_or] at h
    have hRest := ih h.2
    unfold splitLines at hRest ⊢
    rw [List.cons_append, List.foldr_cons, hRest]
    exact if_neg fun hBreak => h.1 hBreak.symm

/- Lines that are ended one after the other are the lines. -/
theorem splitLines_lines
    {lines : List String}
    (h : ∀ s ∈ lines, '\n' ∉ s.toList) :
    splitLines (lines.flatMap fun s => bytesOf s ++ [10])
      = lines.map bytesOf := by
  induction lines with
  | nil => rfl
  | cons s lines ih =>
    rw [List.forall_mem_cons] at h
    rw [List.flatMap_cons, List.append_assoc, List.singleton_append,
      splitLines_cons (newline_not_mem_bytesOf h.1), ih h.2,
      List.map_cons]

/- The bytes of a text in braces are read back as the text. -/
theorem lineText_bytesOf
    {s : String}
    {cs : List Char}
    (h : s.toList = '\x7b' :: (cs ++ ['\x7d'])) :
    lineText? (bytesOf s) = some s := by
  have hLast : (bytesOf s).getLast? = some 125 := by
    have hBrace : String.utf8EncodeChar '\x7d' = [125] := by decide
    unfold bytesOf
    rw [h, List.flatMap_cons, List.flatMap_append,
      List.flatMap_singleton, hBrace, ← List.append_assoc,
      List.getLast?_append]
    rfl
  have hReturn : dropReturn (bytesOf s) = bytesOf s :=
    if_neg (by rw [hLast]; decide)
  unfold lineText?
  rw [hReturn, fromUTF8_bytesOf]

/- The text of some records; every line ends with a line break. -/
def Record.textOf (rs : List Record) : String :=
  String.join (rs.map fun r => r.toJson.compact ++ "\n")

/- The text of a log is that of its records. -/
theorem text_eq (l : Log) : l.text = Record.textOf l.records := by
  unfold text lines Record.textOf
  rw [List.map_map]
  rfl

/- The bytes of the text of some records. -/
theorem Record.bytes_textOf (rs : List Record) :
    (textOf rs).toUTF8.toList
      = (rs.map fun r => r.toJson.compact).flatMap
          fun s => bytesOf s ++ [10] := by
  have hBytes : (textOf rs).toUTF8.toList
      = bytesOf (textOf rs) := by
    unfold ByteArray.toList
    rw [toList_loop]
    exact data_toByteArray (textOf rs)
  have hBreak : bytesOf "\n" = [10] := by decide
  rw [hBytes]
  unfold textOf
  rw [bytesOf_join, List.flatMap_map, List.flatMap_map]
  simp only [bytesOf_append, hBreak]

/- The lines of records are read back from the bytes of the text. -/
theorem Record.lines_textOf (rs : List Record) :
    (splitLines (textOf rs).toUTF8.toList).map lineText?
      = (rs.map fun r => r.toJson.compact).map some := by
  have hUnbroken : ∀ s ∈ rs.map fun r => r.toJson.compact,
      '\n' ∉ s.toList := by
    intro s hs
    rcases List.mem_map.mp hs with ⟨r, _, rfl⟩
    exact r.readable.unbroken
  rw [bytes_textOf, splitLines_lines hUnbroken, List.map_map]
  refine List.map_congr_left fun s hs => ?_
  rcases List.mem_map.mp hs with ⟨r, _, rfl⟩
  rcases r.line_braces with ⟨cs, hText⟩
  exact lineText_bytesOf hText

/- The lines of a log are read back from the bytes of its text. -/
theorem lines_read (l : Log) :
    (splitLines l.text.toUTF8.toList).map lineText?
      = l.lines.map some := by
  rw [text_eq, Record.lines_textOf]
  rfl

------------------------------------------------------------
-- Records one after another
------------------------------------------------------------

/-
  Whether a record is read back: its document from its text and
  its instant from the text of the instant.
-/
structure Record.Legible (r : Record) : Prop where
  document : Json.ofText? maxNesting r.toJson.compact
    = some r.toJson
  instant : r.IsReadBack

/- A record whose document fits is legible. -/
theorem Record.Legible.of_fits
    {r : Record}
    (hFits : r.toJson.fits maxNesting = true)
    (hInstant : r.IsReadBack) : r.Legible :=
  ⟨ofText_compact hFits, hInstant⟩

/- A legible record is read back from its line. -/
theorem Record.ofLine_compact
    {r : Record}
    (h : r.Legible) : Record.ofLine? r.toJson.compact = some r := by
  unfold ofLine?
  rw [h.document]
  exact Record.ofJson_toJson h.instant

/- The line of a record is not blank. -/
theorem Record.isBlank_compact (r : Record) :
    isBlank r.toJson.compact = false := by
  rcases r.line_braces with ⟨cs, hText⟩
  have hBrace : isSpace '\x7b' = false := by decide
  unfold isBlank
  rw [hText, List.all_cons, hBrace, Bool.false_and]

/- The line of a legible record is read as the record. -/
theorem readLines_cons
    {r : Record}
    (h : r.Legible)
    {p q : Partial}
    (hOpen : p.ended = false)
    {number : Nat}
    (hAdd : p.add number r = .ok q)
    (rest : List (Option String)) :
    readLines p number (some r.toJson.compact :: rest)
      = readLines q (number + 1) rest := by
  rw [readLines, r.isBlank_compact, hOpen, Record.ofLine_compact h]
  simp [hAdd]

/- What was read before the end marker of a log. -/
def Partial.reading
    (header : Header)
    (events : List Event) : Partial :=
  ⟨some header, events.toArray, false⟩

/- Legible events are read one after another. -/
theorem readLines_events
    {header : Header}
    {events : List Event}
    (h : ∀ e ∈ events, (Record.event e).Legible)
    (number : Nat)
    (before : List Event)
    (rest : List (Option String)) :
    readLines (.reading header before) number
        (events.map (fun e => some (Record.event e).toJson.compact)
          ++ rest)
      = readLines (.reading header (before ++ events))
          (number + events.length) rest := by
  induction events generalizing number before with
  | nil => simp
  | cons e events ih =>
    rw [List.forall_mem_cons] at h
    have hAdd : Partial.add (.reading header before) number (.event e)
        = .ok (.reading header (before ++ [e])) := by
      simp [Partial.add, Partial.reading]
    have hNumber : number + 1 + events.length
        = number + (e :: events).length := by
      rw [List.length_cons]
      omega
    rw [List.map_cons, List.cons_append,
      readLines_cons h.1 rfl hAdd, ih h.2, hNumber, List.append_assoc,
      List.singleton_append]

/- The lines of a log of legible records are read to their end. -/
theorem readLines_lines
    {l : Log}
    (hVersion : l.header.schemaVersion = Log.schemaVersion)
    (hLegible : ∀ r ∈ l.records, r.Legible) :
    readLines {} 1 (l.lines.map some)
      = .ok ⟨some l.header, l.events.toArray, true⟩ := by
  let finish := Record.finish (UInt64.ofNat l.events.length)
  have hLines : l.lines.map some
      = some (Record.header l.header).toJson.compact
        :: (l.events.map (fun e => some (Record.event e).toJson.compact)
          ++ [some finish.toJson.compact]) := by
    simp [lines, records, finish]
  have hHeader : Partial.add {} 1 (.header l.header)
      = .ok (.reading l.header []) := by
    simp [Partial.add, Partial.reading, hVersion]
  have hFinish (number : Nat) :
      Partial.add (.reading l.header l.events) number finish
        = .ok ⟨some l.header, l.events.toArray, true⟩ := by
    simp [Partial.add, Partial.reading, finish]
  have hFirst : (Record.header l.header).Legible :=
    hLegible _ (by simp [records])
  have hEvents : ∀ e ∈ l.events, (Record.event e).Legible :=
    fun e he => hLegible _ (by simp [records, he])
  have hLast : finish.Legible :=
    hLegible _ (by simp [records, finish])
  rw [hLines, readLines_cons hFirst rfl hHeader,
    readLines_events hEvents, List.nil_append,
    readLines_cons hLast rfl (hFinish _), readLines]

/-
  The bytes of the text of a log are read back as the log, with
  its end marker, when the version is the current one and every
  record is legible.
-/
theorem ofBytes_text
    {l : Log}
    (hVersion : l.header.schemaVersion = Log.schemaVersion)
    (hLegible : ∀ r ∈ l.records, r.Legible) :
    ofBytes? l.text.toUTF8 = .ok ⟨l, true⟩ := by
  unfold ofBytes?
  rw [lines_read]
  unfold ofLines?
  rw [readLines_lines hVersion hLegible]

/- A log with a label on two lines and a nested array of floats. -/
def nestedLog : Log :=
  ⟨⟨schemaVersion, ⟨0x0123456789abcdef0123456789abcdef⟩, .epoch,
      some "two\nlines"⟩,
    [⟨.first, none, .initialization .epoch⟩,
      ⟨⟨2⟩, none,
        .action
          (.operation
            (.assign (.localVar "grid")
              (.array [.array [.scalar (.double 0x7ff8000000000001)],
                .null])))
          ⟨"Grid.java", 3, 5, 3, 20⟩⟩]⟩

/- The documents of this log fit. -/
theorem nestedLog_fits :
    ∀ r ∈ nestedLog.records, r.toJson.fits maxNesting = true := by
  decide

/- The instants of this log are read back. -/
theorem nestedLog_isReadBack :
    ∀ r ∈ nestedLog.records, r.IsReadBack := by
  have hEpoch : Timestamp.epoch.IsReadBack := by
    unfold Timestamp.IsReadBack
    decide
  simp [nestedLog, records, Record.IsReadBack, Occurrence.IsReadBack,
    hEpoch]

/- The text of this log is read back as the log. -/
theorem ofBytes_text_nested :
    (nestedLog.header.schemaVersion = Log.schemaVersion
      ∧ ∀ r ∈ nestedLog.records, r.Legible)
    ∧ ofBytes? nestedLog.text.toUTF8 = .ok ⟨nestedLog, true⟩ := by
  have hLegible : ∀ r ∈ nestedLog.records, r.Legible :=
    fun r hr => .of_fits (nestedLog_fits r hr)
      (nestedLog_isReadBack r hr)
  exact ⟨⟨rfl, hLegible⟩, ofBytes_text rfl hLegible⟩

end Log

end ExecTrace
