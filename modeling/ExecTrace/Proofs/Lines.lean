import ExecTrace.Proofs.Histories
import ExecTrace.Proofs.Walks

/-
  Lines of a rendered trace. The text of a trace is split at its
  newlines. Every event contributes the lines of its own
  sentence, the first of which is indented and starts with the
  number of the event. There is one line per event if and only
  if no text that an event shows contains a newline.

  Main declarations:
    * `textLines` and `textLines_intercalate`
    * `Event.words` and `Event.newline_describe_iff`
    * `Forest.Shows.textLines_render`
    * `History.lines_of_render`
-/

namespace ExecTrace

------------------------------------------------------------
-- Splitting at Newlines
------------------------------------------------------------

/- The lines of a text: what lies between its newlines. -/
def textLines (s : String) : List String :=
  (s.toList.splitOn '\n').map String.ofList

/- The number of newlines in a text. -/
def newlines (s : String) : Nat :=
  s.toList.count '\n'

/- A text has one line more than newlines. -/
theorem length_textLines (s : String) :
    (textLines s).length = newlines s + 1 := by
  have hChars : ∀ cs : List Char,
      (cs.splitOn '\n').length = cs.count '\n' + 1 := by
    intro cs
    rw [List.splitOn_eq_splitOnP]
    induction cs with
    | nil => rfl
    | cons c cs ih =>
      rw [List.splitOnP_cons_eq_if_modifyHead, List.count_cons]
      split
      next => rw [List.length_cons, ih]
      next => rw [List.length_modifyHead, ih, Nat.add_zero]
  unfold textLines newlines
  rw [List.length_map, hChars]

/- A newline between two texts separates their lines. -/
theorem textLines_newline (a b : String) :
    textLines (a ++ "\n" ++ b) = textLines a ++ textLines b := by
  unfold textLines
  have hChars : (a ++ "\n" ++ b).toList
      = a.toList ++ '\n' :: b.toList := by simp
  rw [hChars, List.splitOn_eq_splitOnP,
    List.splitOnP_append_cons _ _ (by simp), List.map_append]
  rfl

/- Lines that are joined by newlines keep their own lines. -/
theorem textLines_intercalate
    {ls : List String}
    (h : ls ≠ []) :
    textLines (String.intercalate "\n" ls)
      = ls.flatMap textLines := by
  induction ls with
  | nil => exact absurd rfl h
  | cons l ls ih =>
    cases ls with
    | nil => simp
    | cons l' ls =>
      rw [String.intercalate_cons_cons, textLines_newline,
        ih (List.cons_ne_nil l' ls)]
      rfl

/- What stands in front of a text stands in its first line. -/
theorem textLines_append
    {start : String}
    (h : '\n' ∉ start.toList)
    (s : String) :
    textLines (start ++ s)
      = (textLines s).modifyHead (start ++ ·) := by
  have hChars : ∀ cs ds : List Char, '\n' ∉ cs →
      (cs ++ ds).splitOn '\n'
        = (ds.splitOn '\n').modifyHead (cs ++ ·) := by
    intro cs ds hOne
    simp only [List.splitOn_eq_splitOnP]
    induction cs with
    | nil => exact (congrFun List.modifyHead_id _).symm
    | cons c cs ih =>
      rw [List.mem_cons, not_or] at hOne
      rw [List.cons_append, List.splitOnP_cons_eq_if_modifyHead,
        ih hOne.2, if_neg (by simpa using Ne.symm hOne.1),
        List.modifyHead_modifyHead]
      rfl
  unfold textLines
  rw [String.toList_append, hChars _ _ h]
  cases s.toList.splitOn '\n' with
  | nil => rfl
  | cons l ls => simp [String.ofList_append]

/- A text without newlines is its only line. -/
theorem textLines_eq_singleton
    {s : String}
    (h : '\n' ∉ s.toList) : textLines s = [s] := by
  have hAll : ∀ c ∈ s.toList, (c == '\n') = false := by
    intro c hc
    refine beq_eq_false_iff_ne.mpr ?_
    rintro rfl
    exact h hc
  unfold textLines
  rw [List.splitOn_eq_splitOnP, List.splitOnP_eq_singleton hAll]
  simp

------------------------------------------------------------
-- Texts without Newlines
------------------------------------------------------------

/- Digits are no newlines. -/
@[simp]
theorem newline_toString_nat (n : Nat) :
    '\n' ∉ (toString n).toList := by
  intro hMem
  have hDigit : '\n' ∈ Nat.toDigits 10 n := by simpa using hMem
  have hTen := Nat.isDigit_of_mem_toDigits (by omega) (by omega) hDigit
  exact absurd hTen (by decide)

@[simp]
theorem newline_toString_uInt32 (n : UInt32) :
    '\n' ∉ (toString n).toList :=
  newline_toString_nat n.toNat

/- Hexadecimal digits are no newlines. -/
@[simp]
theorem newline_hexDigits (n : Nat) :
    '\n' ∉ (Quoted.hexDigits n).toList := by
  have hDigit : ∀ m < 16, Quoted.hexDigit m ≠ '\n' := by decide
  have hOnto : ∀ steps n tail, '\n' ∉ tail →
      '\n' ∉ Quoted.hexOnto steps n tail := by
    intro steps
    induction steps with
    | zero => exact fun _ _ h => h
    | succ steps ih =>
      intro n tail hTail
      have hMore : '\n' ∉ Quoted.hexDigit (n % 16) :: tail := by
        rw [List.mem_cons, not_or]
        exact ⟨(hDigit _ (Nat.mod_lt n (by omega))).symm, hTail⟩
      unfold Quoted.hexOnto
      split
      next => exact hMore
      next => exact ih _ _ hMore
  unfold Quoted.hexDigits
  rw [String.toList_ofList]
  exact hOnto 32 n [] List.not_mem_nil

/- A padded number has no newlines. -/
@[simp]
theorem newline_padded (width n : Nat) :
    '\n' ∉ (Timestamp.padded width n).toList := by
  unfold Timestamp.padded
  rw [String.toList_append, List.mem_append, not_or,
    String.toList_ofList]
  refine ⟨fun hMem => ?_, newline_toString_nat n⟩
  exact absurd (List.eq_of_mem_replicate hMem) (by decide)

/- An instant has no newlines. -/
@[simp]
theorem newline_offsetText (t : Timestamp) :
    '\n' ∉ t.offsetText.toList := by
  have hYear : ∀ y, '\n' ∉ (Timestamp.yearText y).toList := by
    intro y
    unfold Timestamp.yearText
    split
    · simp
    · split <;> simp
  have hFraction : ∀ n,
      '\n' ∉ (Timestamp.fractionText n).toList := by
    intro n
    simp only [Timestamp.fractionText]
    repeat' split
    all_goals simp
  simp [Timestamp.offsetText, Timestamp.civilText, hYear, hFraction]

------------------------------------------------------------
-- Texts that Events Show
------------------------------------------------------------

/- The texts of a construct and its label. -/
def JumpTarget.words (t : JumpTarget) : List String :=
  t.construct :: t.label.toList

/- The texts of a frame; a line alone is not shown. -/
def OuterFrame.words (f : OuterFrame) : List String :=
  f.cls :: f.method :: f.file.toList

/- The texts of a method. -/
def Callee.words (c : Callee) : List String :=
  [c.cls, c.method, c.signature]

/- The texts of a snapshot with type and identity. -/
def Snapshot.words : Snapshot → List String
  | .ref identity type display =>
    if Snapshot.isNull (.ref identity type display) then [display]
    else [type, display]
  | s => [s.text]

/- The texts of a storage location. -/
def Place.words : Place Snapshot → List String
  | .localVar name => [name]
  | .staticField cls field => [cls, field]
  | .instanceField cls object field => [cls, field, object.text]
  | .element array index => [array.text, index.text]

/- The texts of a statement. -/
def Statement.words
    (span : Span) : Statement Snapshot → List String
  | .return method => [method]
  | .break target => target.words
  | .continue target => target.words
  | .yield value target => value.text :: target.words
  | .switch selector => [selector.text]
  | .declare name type => [name, type]
  | .throw exception => exception.words
  | .caught exception => exception.words
  | .assertion _ text => [text]
  | .exec => [span.file]
  | .ifCondition outcome => [outcome.text]
  | .loopCondition outcome _ => [outcome.text]

/- The texts of an operation. -/
def Operation.words : Operation Snapshot → List String
  | .switch selector => [selector.text]
  | .loopEnter _ => []
  | .loopExit _ => []
  | .nextElement element => [element.text]
  | .ternaryCondition outcome => [outcome.text]
  | .assign place value => place.words ++ [value.text]
  | .compoundAssign place operator old rhs new =>
    place.words ++ [operator, rhs.text, old.text, new.text]
  | .incDec place operator old new result =>
    operator :: place.words ++ [old.text, new.text, result.text]
  | .read place value => place.words ++ [value.text]
  | .unary operator operand result =>
    [operator, operand.text, result.text]

/- The texts of the end of an activation. -/
def Exit.words
    (method : String) : Exit Snapshot → List String
  | .explicit value => method :: (value.map Snapshot.text).toList
  | .endOfBody => [method]
  | .exceptional exception => method :: exception.words

/- The texts of the end of a call. -/
def Resumption.words
    (cls method : String) : Resumption Snapshot → List String
  | .returned value => [cls, method, value.text]
  | .void => [cls, method]
  | .aborted exception => cls :: method :: exception.words

/- The texts of an action at a position. -/
def Action.words
    (span : Span) : Action EventId Snapshot → List String
  | .statement s => s.words span
  | .operation o => o.words
  | .castAttempt value type _ => [value.text, type]
  | .binary operator lhs rhs result =>
    lhs.text :: operator
      :: ((rhs.map Snapshot.text).toList ++ [result.text])
  | .typeTest tested type _ => [tested.text, type]
  | .call callee none args => callee.words ++ args.map Snapshot.text
  | .call callee (some receiver) args =>
    callee.words ++ receiver.words ++ args.map Snapshot.text
  | .enter method enclosing =>
    method.words ++ enclosing.flatMap OuterFrame.words
  | .exit _ method how => how.words method
  | .resume _ cls method how => how.words cls method

/-
  The texts that an event shows: names, labels, and the texts of
  values. The sentence around them is fixed, and numbers and
  instants consist of digits and signs.
-/
def Event.words (e : Event) : List String :=
  match e.what with
  | .initialization _ => []
  | .action a span => a.words span

/- Whether one of some texts contains a newline. -/
def BreaksLine (ws : List String) : Prop :=
  ∃ w ∈ ws, '\n' ∈ w.toList

@[simp]
theorem breaksLine_nil : ¬ BreaksLine [] := by
  rintro ⟨w, hw, _⟩
  cases hw

@[simp]
theorem breaksLine_cons
    (w : String)
    (ws : List String) :
    BreaksLine (w :: ws) ↔ '\n' ∈ w.toList ∨ BreaksLine ws :=
  List.exists_mem_cons_iff _ w ws

@[simp]
theorem breaksLine_append (ws ws' : List String) :
    BreaksLine (ws ++ ws') ↔ BreaksLine ws ∨ BreaksLine ws' := by
  induction ws with
  | nil => simp
  | cons w ws ih => simp [ih, or_assoc]

/- Joined texts break a line if one of them does. -/
theorem newline_intercalate
    {sep : String}
    (h : '\n' ∉ sep.toList)
    (ws : List String) :
    '\n' ∈ (String.intercalate sep ws).toList ↔ BreaksLine ws := by
  induction ws with
  | nil => simp
  | cons w ws ih =>
    cases ws with
    | nil => simp
    | cons w' ws =>
      rw [String.intercalate_cons_cons, breaksLine_cons, ← ih]
      simp [h]

/-
  The text or sentence for each part of an event contains a
  newline exactly if one of the texts that it shows does.
-/
section Parts

variable {span : Span}

@[simp]
theorem JumpTarget.newline_text (t : JumpTarget) :
    '\n' ∈ t.text.toList ↔ BreaksLine t.words := by
  rcases t with ⟨construct, _ | label, line, col⟩ <;>
    simp [text, words]

@[simp]
theorem OuterFrame.newline_text (f : OuterFrame) :
    '\n' ∈ f.text.toList ↔ BreaksLine f.words := by
  rcases f with ⟨cls, method, _ | file, _ | line⟩ <;>
    simp [text, words]

theorem OuterFrame.breaksLine_map_text (fs : List OuterFrame) :
    BreaksLine (fs.map text) ↔ BreaksLine (fs.flatMap words) := by
  induction fs with
  | nil => rfl
  | cons f fs ih => simp [ih]

@[simp]
theorem Callee.newline_text (c : Callee) :
    '\n' ∈ c.text.toList ↔ BreaksLine c.words := by
  simp [text, words]

@[simp]
theorem Span.newline_text (s : Span) :
    '\n' ∈ s.text.toList ↔ '\n' ∈ s.file.toList := by
  simp [text]

@[simp]
theorem Snapshot.newline_detailed (s : Snapshot) :
    '\n' ∈ s.detailed.toList ↔ BreaksLine s.words := by
  cases s with
  | ref identity type display =>
    unfold detailed words
    by_cases hNull : isNull (.ref identity type display) <;>
      simp [hNull]
  | _ =>
    unfold detailed words
    simp

@[simp]
theorem Snapshot.newline_texts (ss : List Snapshot) :
    '\n' ∈ (texts ss).toList ↔ BreaksLine (ss.map text) :=
  newline_intercalate (by decide) _

@[simp]
theorem Place.newline_text (p : Place Snapshot) :
    '\n' ∈ p.text.toList ↔ BreaksLine p.words := by
  cases p <;>
    · unfold text words
      simp

@[simp]
theorem LoopKind.newline_text (l : LoopKind) :
    '\n' ∉ l.text.toList := by
  cases l <;> simp [text]

theorem Statement.newline_describe (s : Statement Snapshot) :
    '\n' ∈ (s.describe span).toList ↔ BreaksLine (s.words span) := by
  cases s with
  | assertion outcome text =>
    unfold describe words
    by_cases hFails : outcome.asBool = some false <;> simp [hFails]
  | _ =>
    unfold describe words
    simp

theorem Operation.newline_describe (o : Operation Snapshot) :
    '\n' ∈ o.describe.toList ↔ BreaksLine o.words := by
  cases o <;>
    · unfold describe words
      simp

theorem Exit.newline_describe
    (method : String)
    (x : Exit Snapshot) :
    '\n' ∈ (x.describe method).toList
      ↔ BreaksLine (x.words method) := by
  rcases x with ⟨_ | value⟩ | _ | exception <;>
    · unfold describe words
      simp

theorem Resumption.newline_describe
    (cls method : String)
    (x : Resumption Snapshot) :
    '\n' ∈ (x.describe cls method).toList
      ↔ BreaksLine (x.words cls method) := by
  cases x <;>
    · unfold describe words
      simp

theorem Action.newline_describe (a : Action EventId Snapshot) :
    '\n' ∈ (a.describe span).toList ↔ BreaksLine (a.words span) := by
  cases a with
  | statement s => exact s.newline_describe
  | operation o => exact o.newline_describe
  | castAttempt value type succeeds =>
    unfold describe words
    cases succeeds <;> simp
  | binary operator lhs rhs result =>
    unfold describe words
    cases rhs <;> simp
  | typeTest tested type result =>
    unfold describe words
    cases result <;> simp [Scalar.boolText]
  | call callee receiver args =>
    unfold describe words
    cases receiver <;> simp
  | enter method enclosing =>
    unfold describe words
    cases enclosing with
    | nil => simp
    | cons f fs =>
      have hFrames : '\n' ∈ (String.intercalate " -> "
          ((f :: fs).map OuterFrame.text)).toList
            ↔ BreaksLine ((f :: fs).flatMap OuterFrame.words) :=
        (newline_intercalate (by decide) _).trans
          (OuterFrame.breaksLine_map_text _)
      simp only [String.toList_append, List.mem_append, hFrames]
      simp
  | exit frame method how => exact how.newline_describe method
  | resume frame cls method how =>
    exact how.newline_describe cls method

end Parts

/-
  The sentence for an event contains a newline if and only if
  one of the texts that it shows does.
-/
theorem Event.newline_describe_iff (e : Event) :
    '\n' ∈ e.describe.toList ↔ BreaksLine e.words := by
  unfold describe words
  cases e.what with
  | initialization time => simp
  | action a span => exact a.newline_describe

------------------------------------------------------------
-- Lines of a Forest
------------------------------------------------------------

/- The lines that the text of an event takes up. -/
def Visit.lines (v : Visit) : List String :=
  textLines (Forest.eventLine v.depth v.event)

/- What stands in front of the sentence for an event. -/
def Visit.start (v : Visit) : String :=
  Forest.indent v.depth ++ v.event.id.text ++ " "

namespace Visit

/- Indentation and number are on one line. -/
theorem newline_start (v : Visit) : '\n' ∉ v.start.toList := by
  have hNumber := newline_toString_nat v.event.id.number.toNat
  have hIndent : '\n' ∉ (Forest.indent v.depth).toList := by
    unfold Forest.indent
    rw [String.toList_ofList]
    intro hMem
    exact absurd (List.eq_of_mem_replicate hMem) (by decide)
  simp only [start, EventId.text, String.toList_append,
    List.mem_append, not_or]
  exact ⟨⟨hIndent, by decide, hNumber⟩, by decide⟩

/- The first line is indented and starts with the number. -/
theorem lines_eq (v : Visit) :
    v.lines
      = (textLines v.event.describe).modifyHead (v.start ++ ·) :=
  textLines_append v.newline_start v.event.describe

/- There is a line more than newlines in the sentence. -/
theorem length_lines (v : Visit) :
    v.lines.length = newlines v.event.describe + 1 := by
  rw [v.lines_eq, List.length_modifyHead, length_textLines]

/- A sentence without newlines is one line. -/
theorem lines_of_not_breaksLine
    {v : Visit}
    (h : ¬ BreaksLine v.event.words) :
    v.lines = [v.start ++ v.event.describe] := by
  rw [v.lines_eq, textLines_eq_singleton
    (mt v.event.newline_describe_iff.mp h)]
  rfl

end Visit

/- Without a limit, every event has its line. -/
theorem Grove.lines_all
    (g : Grove)
    (depth : Nat) :
    g.lines none (fun _ => true) depth
      = (g.visits depth).map
          fun v => Forest.eventLine v.depth v.event := by
  induction g generalizing depth with
  | empty => rfl
  | event i e below rest ihBelow ihRest =>
    simp [lines, visits, eventLines, ihBelow, ihRest]

namespace Forest.Shows

variable {f : Forest}
variable {g : Grove}

/- The text of a forest has the lines of its events in order. -/
theorem textLines_render
    (h : f.Shows g)
    (hSome : f.size ≠ 0) :
    textLines (f.render none fun _ => true)
      = (g.visits 0).flatMap Visit.lines := by
  have hLines : (g.visits 0).map
      (fun v => eventLine v.depth v.event) ≠ [] := by
    intro hNone
    have hLength := congrArg List.length hNone
    rw [List.length_map, Grove.length_visits, h.size_eq] at hLength
    exact hSome hLength
  rw [h.render_eq, Grove.lines_all, textLines_intercalate hLines,
    List.flatMap_map]
  rfl

/- There is a line for each event and for each newline. -/
theorem length_textLines_render
    (h : f.Shows g)
    (hSome : f.size ≠ 0) :
    (textLines (f.render none fun _ => true)).length
      = f.size
        + (g.events.map fun e => newlines e.describe).sum := by
  have hSum : ∀ vs : List Visit,
      (vs.flatMap Visit.lines).length
        = vs.length
          + (vs.map fun v => newlines v.event.describe).sum := by
    intro vs
    induction vs with
    | nil => rfl
    | cons v vs ih =>
      simp only [List.flatMap_cons, List.length_append, ih,
        v.length_lines, List.length_cons, List.map_cons,
        List.sum_cons]
      omega
  rw [h.textLines_render hSome, hSum, Grove.length_visits, h.size_eq,
    ← g.map_event_visits 0, List.map_map]
  rfl

/-
  There is a line per event if and only if no event shows a text
  with a newline.
-/
theorem length_textLines_render_iff
    (h : f.Shows g)
    (hSome : f.size ≠ 0) :
    (textLines (f.render none fun _ => true)).length = f.size
      ↔ ∀ e ∈ g.events, ¬ BreaksLine e.words := by
  rw [h.length_textLines_render hSome, Nat.add_eq_left,
    List.sum_eq_zero_iff_forall_eq_nat]
  simp only [List.forall_mem_map, newlines, List.count_eq_zero,
    Event.newline_describe_iff]

/- In this case the lines are those of the events in order. -/
theorem textLines_render_of_not_breaksLine
    (h : f.Shows g)
    (hSome : f.size ≠ 0)
    (hLines : ∀ e ∈ g.events, ¬ BreaksLine e.words) :
    textLines (f.render none fun _ => true)
      = (g.visits 0).map fun v => v.start ++ v.event.describe := by
  rw [h.textLines_render hSome, List.map_eq_flatMap]
  refine List.flatMap_congr fun v hv => ?_
  refine Visit.lines_of_not_breaksLine (hLines v.event ?_)
  rw [← g.map_event_visits 0]
  exact List.mem_map_of_mem hv

end Forest.Shows

------------------------------------------------------------
-- Recorded Traces
------------------------------------------------------------

section Recorded

variable {σ : Type}
variable {slot : Slot σ}
variable {s t : σ}
variable {echo : Bool}
variable {time : Timestamp}

/-
  Whatever was done with a new recorder, the text of its trace
  consists of the lines of the events, depth first. The first
  line of each is indented by its depth and starts with its
  number; the others come from newlines in its sentence. So
  there is one line per event exactly if no text that an event
  shows contains a newline.
-/
theorem History.lines_of_render
    (hSlot : slot.Keeps)
    (h : History slot s t)
    (hGet : slot.get s = some (.create echo time)) :
    ∃ r g, slot.get t = some r ∧ r.forest.Shows g ∧
      (textLines (r.forest.render none fun _ => true)
          = (g.visits 0).flatMap Visit.lines ∧
        ∀ v ∈ g.visits 0, v.lines
          = (textLines v.event.describe).modifyHead
              fun first =>
                Forest.indent v.depth ++ v.event.id.text ++ " "
                  ++ first) ∧
      (textLines (r.forest.render none fun _ => true)).length
          = r.forest.size
            + (g.events.map fun e => newlines e.describe).sum ∧
      ((textLines (r.forest.render none fun _ => true)).length
          = r.forest.size
        ↔ ∀ e ∈ g.events, ∀ w ∈ e.words, '\n' ∉ w.toList) ∧
      ((∀ e ∈ g.events, ∀ w ∈ e.words, '\n' ∉ w.toList) →
        textLines (r.forest.render none fun _ => true)
          = (g.visits 0).map fun v =>
              Forest.indent v.depth ++ v.event.id.text ++ " "
                ++ v.event.describe) := by
  rcases h.sound hSlot hGet with ⟨r, hr, g, hSound⟩
  have hSome : r.forest.size ≠ 0 := by
    rcases hSound.started with ⟨start, rest, hNodes, _⟩
    intro hNone
    rw [Forest.size, ← Array.length_toList, hNodes] at hNone
    cases hNone
  have hBreaks : (∀ e ∈ g.events, ∀ w ∈ e.words, '\n' ∉ w.toList)
      ↔ ∀ e ∈ g.events, ¬ BreaksLine e.words := by
    simp only [BreaksLine, not_exists, not_and]
  have hShows := hSound.shows
  refine ⟨r, g, hr, hShows, ⟨hShows.textLines_render hSome,
    fun v _ => v.lines_eq⟩, hShows.length_textLines_render hSome,
    ?_, ?_⟩
  · rw [hBreaks]
    exact hShows.length_textLines_render_iff hSome
  · rw [hBreaks]
    exact hShows.textLines_render_of_not_breaksLine hSome

/- The trace of a call has a text like that. -/
theorem History.lines_of_render_call :
    ∃ r g, Slot.bare.get afterCall = some r ∧ r.forest.Shows g ∧
      ((textLines (r.forest.render none fun _ => true)).length
          = r.forest.size
        ↔ ∀ e ∈ g.events, ∀ w ∈ e.words, '\n' ∉ w.toList) := by
  rcases History.lines_of_render (fun _ _ => rfl) history_afterCall
    rfl with ⟨r, g, hGet, hShows, _, _, hOne, _⟩
  exact ⟨r, g, hGet, hShows, hOne⟩

end Recorded

/- A new recorder after the read of a text with a newline. -/
def afterRead : Option Recorder :=
  (record .bare id (fun x : Snapshot => pure x)
    (.operation (.read (.localVar "x") (.ref 1 "String" "a\nb")))
    .unknown (some (.create false .epoch))).2

/-
  After this read the text of the trace has one line more than
  the trace has events.
-/
theorem History.lines_of_render_read :
    History .bare (some (.create false .epoch)) afterRead ∧
      ∃ r, afterRead = some r ∧ r.forest.size = 2 ∧
        (textLines (r.forest.render none fun _ => true)).length
          = 3 := by
  have hHistory : History .bare (some (.create false .epoch))
      afterRead :=
    .record id (fun x : Snapshot => pure x) _ _ (fun _ s => .done s)
      (.done _)
  rcases hHistory.sound (fun _ _ => rfl) rfl with
    ⟨r, hGet, g, hSound⟩
  have hNodes : r.forest.nodes.toList
      = [⟨.first, none, .initialization .epoch⟩,
        ⟨⟨2⟩, none, .action (.operation (.read (.localVar "x")
          (.ref 1 "String" "a\nb"))) .unknown⟩] := by
    cases hGet
    rfl
  have hSize : r.forest.size = 2 := congrArg List.length hNodes
  refine ⟨hHistory, r, hGet, hSize, ?_⟩
  rw [hSound.shows.length_textLines_render (by omega), hSize,
    hSound.events_eq, hNodes]
  decide

end ExecTrace
