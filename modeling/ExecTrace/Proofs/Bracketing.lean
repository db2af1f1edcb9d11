import ExecTrace.Proofs.Groves
import ExecTrace.Trace.Validity

/-
  Bracketing. Events open and close frames like brackets: they
  can be replayed on a stack of open frames. The broken
  properties of a trace are found in two walks through a forest;
  they are read off recursively from the grove that it shows.

  Main declarations:
    * `Event.bracket` and `Event.bracket_cases`
    * `replay` and `parent_of_replay`
    * `Grove.violations` and `Forest.Shows.validate_eq`
-/

namespace ExecTrace

------------------------------------------------------------
-- Replaying Events
------------------------------------------------------------

/- The frames that are open: what opened them, and the kinds. -/
abbrev Brackets := List (EventId × FrameKind)

/-
  What an event does to the open frames, innermost first. It has
  to name the innermost frame as the one around it. A closing
  event has to name it once more, with its kind.
-/
def Event.bracket
    (e : Event)
    (frames : Brackets) : Option Brackets :=
  if e.parent = frames.head?.map Prod.fst then
    match e.ends, frames with
    | some kind, (owner, opened) :: around =>
      if opened = kind ∧ e.closes = some owner then some around
      else none
    | some _, [] => none
    | none, frames =>
      match e.opens with
      | some kind => some ((e.id, kind) :: frames)
      | none => some frames
  else none

/- Replay events one after the other. -/
@[grind] def replay (frames : Brackets) : List Event → Option Brackets
  | [] => some frames
  | e :: rest =>
    match e.bracket frames with
    | some frames => replay frames rest
    | none => none

/- The violation for a frame that is left open. -/
def unclosedFrame (frame : EventId × FrameKind) : Violation :=
  .unclosed frame.1 frame.2

namespace Event

variable {e : Event}

/- An event that closes a frame opens none. -/
theorem opens_of_ends
    {kind : FrameKind}
    (h : e.ends = some kind) : e.opens = none := by
  rcases e with ⟨id, parent, what⟩
  cases what with
  | initialization time => cases h
  | action a span => cases a <;> first | rfl | cases h

/- An event names a frame to close if it closes one. -/
theorem closes_eq_none_iff : e.closes = none ↔ e.ends = none := by
  rcases e with ⟨id, parent, what⟩
  cases what with
  | initialization time => simp [closes, ends, action?]
  | action a span =>
    cases a <;> simp [closes, ends, action?, Action.closes,
      Action.ends]

/- An event inside of a frame names the frame. -/
theorem parent_of_bracket
    {frames after : Brackets}
    (h : e.bracket frames = some after) :
    e.parent = frames.head?.map Prod.fst := by
  unfold bracket at h
  split at h
  · assumption
  · cases h

/-
  A closing event closes the innermost frame, an opening event
  opens a frame, and any other event leaves the frames alone.
-/
theorem bracket_cases
    {frames after : Brackets}
    (h : e.bracket frames = some after) :
    (∃ owner kind, e.ends = some kind ∧ e.opens = none ∧
      frames = (owner, kind) :: after ∧ e.closes = some owner) ∨
    (∃ kind, e.ends = none ∧ e.opens = some kind ∧
      after = (e.id, kind) :: frames) ∨
    (e.ends = none ∧ e.opens = none ∧ after = frames) := by
  unfold bracket at h
  split at h
  · cases hEnds : e.ends with
    | some kind =>
      left
      rw [hEnds] at h
      cases frames with
      | nil => cases h
      | cons frame around =>
        rcases frame with ⟨owner, opened⟩
        simp only at h
        split at h
        · rename_i hFits
          rcases hFits with ⟨rfl, hCloses⟩
          cases Option.some.inj h
          exact ⟨owner, opened, rfl, opens_of_ends hEnds, rfl,
            hCloses⟩
        · cases h
    | none =>
      right
      rw [hEnds] at h
      cases hOpens : e.opens with
      | some kind =>
        left
        rw [hOpens] at h
        exact ⟨kind, rfl, rfl, (Option.some.inj h).symm⟩
      | none =>
        right
        rw [hOpens] at h
        exact ⟨rfl, rfl, (Option.some.inj h).symm⟩
  · cases h

/- Replaying an opening event. -/
theorem bracket_of_opens
    {frames : Brackets}
    {kind : FrameKind}
    (hParent : e.parent = frames.head?.map Prod.fst)
    (hEnds : e.ends = none)
    (hOpens : e.opens = some kind) :
    e.bracket frames = some ((e.id, kind) :: frames) := by
  simp only [bracket, hParent, hEnds, hOpens, if_true]

/- Replaying a closing event. -/
theorem bracket_of_ends
    {owner : EventId}
    {kind : FrameKind}
    {around : Brackets}
    (hParent : e.parent = some owner)
    (hEnds : e.ends = some kind)
    (hCloses : e.closes = some owner) :
    e.bracket ((owner, kind) :: around) = some around := by
  simp only [bracket, hParent, hEnds, hCloses, List.head?_cons,
    Option.map_some, and_self, if_true]

/- Replaying an event that has nothing to do with frames. -/
theorem bracket_of_plain
    {frames : Brackets}
    (hParent : e.parent = frames.head?.map Prod.fst)
    (hEnds : e.ends = none)
    (hOpens : e.opens = none) : e.bracket frames = some frames := by
  simp only [bracket, hParent, hEnds, hOpens, if_true]

end Event

/- The first event that is replayed has an effect. -/
theorem replay_cons
    {e : Event}
    {rest : List Event}
    {frames final : Brackets}
    (h : replay frames (e :: rest) = some final) :
    ∃ after, e.bracket frames = some after ∧
      replay after rest = some final := by
  unfold replay at h
  cases hBracket : e.bracket frames with
  | none => rw [hBracket] at h; cases h
  | some after =>
    rw [hBracket] at h
    exact ⟨after, rfl, h⟩

/- Events are replayed one after the other. -/
theorem replay_append
    (es more : List Event)
    (frames : Brackets) :
    replay frames (es ++ more)
      = (replay frames es).bind (replay · more) := by
  induction es generalizing frames with
  | nil => rfl
  | cons e es ih =>
    simp only [List.cons_append, replay]
    cases e.bracket frames with
    | none => rfl
    | some after => exact ih after

/- Whether the last of the events below an event closes it. -/
def Event.closedBy
    (e : Event)
    (below : List Event) : Bool :=
  match below.getLast? with
  | some last => decide (last.closes = some e.id)
  | none => false

/- Whether a frame is closed by its last event and only once. -/
def Event.frameViolations
    (e : Event)
    (below : List Event) : List Violation :=
  match e.opens with
  | none => []
  | some frame =>
    if 1 < below.countP fun c => decide (c.closes = some e.id) then
      [.closedTwice e.id]
    else if e.closedBy below then [] else [.unclosed e.id frame]

namespace Grove

/- The events that are below no other event. -/
@[grind] def topEvents : Grove → List Event
  | empty => []
  | event _ e _ rest => e :: rest.topEvents

/- The broken properties of single events, depth first. -/
@[grind] def violations : Option Event → Grove → List Violation
  | _, empty => []
  | parent, event _ e below rest =>
    Forest.parentViolations e parent
      ++ Forest.closeViolations e parent
      ++ e.frameViolations below.topEvents
      ++ below.violations (some e)
      ++ rest.violations parent

variable {f : Forest}
variable {g : Grove}

/- The topmost events stand at the topmost positions. -/
theorem ShownIn.topEvents_eq
    (h : g.ShownIn f) :
    (g.tops.map fun i => f.nodes[i]?) = g.topEvents.map some := by
  induction g with
  | empty => rfl
  | event i e below rest _ ih =>
    rcases h with ⟨hNode, _, _, hRest⟩
    simp only [tops, topEvents, List.map_cons, hNode, ih hRest]

/- Topmost events are counted at their positions. -/
theorem ShownIn.countP_tops
    (h : g.ShownIn f)
    {test : Nat → Bool}
    (test' : Event → Bool)
    (hTest : ∀ (i : Nat) (e : Event), f.nodes[i]? = some e →
      test i = test' e) :
    g.tops.countP test = g.topEvents.countP test' := by
  induction g with
  | empty => rfl
  | event i e below rest _ ih =>
    rcases h with ⟨hNode, _, _, hRest⟩
    simp only [tops, topEvents, List.countP_cons, hTest i e hNode,
      ih hRest]

/- The last child of an event is the last event below it. -/
theorem ShownIn.lastChild_eq
    (h : g.ShownIn f)
    {i : Nat}
    (hChildren : f.childrenAt i = g.tops) :
    f.lastChild? i = g.topEvents.getLast? := by
  have hLast := congrArg List.getLast? h.topEvents_eq
  rw [List.getLast?_map, List.getLast?_map, ← hChildren] at hLast
  unfold Forest.childrenAt at hLast
  unfold Forest.lastChild?
  cases hHere : f.children[i]? with
  | none =>
    rw [hHere] at hLast
    cases hEvents : g.topEvents.getLast? with
    | none => rfl
    | some d => rw [hEvents] at hLast; cases hLast
  | some cs =>
    rw [hHere] at hLast
    simp only [Array.getLast?_toList] at hLast
    cases hBack : cs.back? with
    | none =>
      cases hEvents : g.topEvents.getLast? with
      | none => simp only [hBack]
      | some d => rw [hBack, hEvents] at hLast; cases hLast
    | some c =>
      cases hEvents : g.topEvents.getLast? with
      | none => rw [hBack, hEvents] at hLast; cases hLast
      | some d =>
        rw [hBack, hEvents] at hLast
        simp only [hBack]
        exact Option.some.inj hLast

/- The frame of an event is judged by the events below it. -/
theorem ShownIn.frameViolations_eq
    {below : Grove}
    (h : below.ShownIn f)
    {i : Nat}
    (e : Event)
    (hChildren : f.childrenAt i = below.tops) :
    f.frameViolations i e = e.frameViolations below.topEvents := by
  unfold Forest.frameViolations Event.frameViolations
  cases e.opens with
  | none => rfl
  | some frame =>
    have hClosing : (f.closing i e).isNone
        = !e.closedBy below.topEvents := by
      unfold Forest.closing Event.closedBy
      rw [h.lastChild_eq hChildren]
      cases below.topEvents.getLast? with
      | none => rfl
      | some last =>
        by_cases hCloses : last.closes = some e.id <;>
          simp [hCloses]
    simp only [hClosing]
    rw [hChildren, h.countP_tops
      (fun c => decide (c.closes = some e.id))
      fun i d hNode => by simp only [hNode]]
    cases e.closedBy below.topEvents <;> rfl

/- The violations of events are collected recursively. -/
theorem ShownIn.walk_violations
    (h : g.ShownIn f)
    (parent : Option Event)
    (out : List Violation) :
    g.walk
      (fun out i e parent =>
        (out ++ f.violationsAt i e parent, some (some e)))
      parent out
      = out ++ g.violations parent := by
  induction g generalizing parent out with
  | empty => simp [walk, violations]
  | event i e below rest ihBelow ihRest =>
    rcases h with ⟨_, hChildren, hBelow, hRest⟩
    simp only [walk, violations]
    rw [ihBelow hBelow, ihRest hRest, Forest.violationsAt,
      hBelow.frameViolations_eq e hChildren]
    simp only [List.append_assoc]

end Grove

/- The broken properties of a forest are those of its grove. -/
theorem Forest.Shows.validate_eq
    {f : Forest}
    {g : Grove}
    (h : f.Shows g) :
    f.validate
      = orderViolations g.events ++ g.violations none := by
  unfold validate
  rw [h.eventsInOrder_eq, h.walk_eq, h.shown.walk_violations,
    List.nil_append]

/- Numbers that increase break no order. -/
theorem Forest.orderViolations_eq_nil_iff
    {es : List Event} :
    orderViolations es = [] ↔
      es.Pairwise fun a b => a.id.number < b.id.number := by
  induction es with
  | nil => simp [orderViolations]
  | cons a rest ih =>
    cases rest with
    | nil => simp [orderViolations]
    | cons b rest =>
      unfold orderViolations
      by_cases hOrder : b.id.number ≤ a.id.number
      · constructor
        · intro h
          simp [hOrder] at h
        · intro h
          have hLess := (List.pairwise_cons.mp h).1 b (by simp)
          exact absurd hLess (UInt64.not_lt.mpr hOrder)
      · have hLess : a.id.number < b.id.number :=
          UInt64.not_le.mp hOrder
        simp only [if_neg hOrder, ih]
        constructor
        · intro h
          refine List.pairwise_cons.mpr ⟨fun c hc => ?_, h⟩
          rcases List.mem_cons.mp hc with rfl | hc
          · exact hLess
          · exact UInt64.lt_trans hLess
              ((List.pairwise_cons.mp h).1 c hc)
        · intro h
          exact (List.pairwise_cons.mp h).2

------------------------------------------------------------
-- Frames That Are Closed or Left Open
------------------------------------------------------------

namespace Event

variable {e : Event}
variable {parent : Option Event}
variable {kind : FrameKind}
variable {below : List Event}

/- Only a closing event can close the wrong frame. -/
theorem closeViolations_of_plain
    (hEnds : e.ends = none) :
    Forest.closeViolations e parent = [] := by
  unfold Forest.closeViolations
  rw [hEnds]

/- A closing event closes the frame that it lies in. -/
theorem closeViolations_eq_nil_iff
    (hEnds : e.ends = some kind) :
    Forest.closeViolations e parent = [] ↔
      ∃ p, parent = some p ∧ p.opens = some kind ∧
        e.closes = some p.id := by
  unfold Forest.closeViolations
  rw [hEnds]
  cases parent with
  | none => simp
  | some p => simp

/- An event has to name the event that it is nested in. -/
theorem parentViolations_eq_nil_iff :
    Forest.parentViolations e parent = [] ↔
      e.parent = parent.map Event.id := by
  unfold Forest.parentViolations
  split <;> simp [*]

/- Only a frame can be closed too often or not at all. -/
theorem frameViolations_of_plain
    (hOpens : e.opens = none) : e.frameViolations below = [] := by
  unfold frameViolations
  rw [hOpens]

/- An event that closes no frame is not counted. -/
theorem countP_closes
    {id : EventId}
    (hPlain : ∀ c ∈ below, c.ends = none) :
    below.countP (fun c => decide (c.closes = some id)) = 0 := by
  rw [List.countP_eq_zero]
  intro c hc
  rw [closes_eq_none_iff.mpr (hPlain c hc)]
  simp

/- A frame is left open if no event below closes a frame. -/
theorem frameViolations_of_open
    (hOpens : e.opens = some kind)
    (hPlain : ∀ c ∈ below, c.ends = none) :
    e.frameViolations below = [.unclosed e.id kind] := by
  have hBy : e.closedBy below = false := by
    unfold closedBy
    cases hLast : below.getLast? with
    | none => rfl
    | some last =>
      have hMem := List.mem_of_getLast? hLast
      simp only [closes_eq_none_iff.mpr (hPlain last hMem)]
      rfl
  unfold frameViolations
  simp [hOpens, countP_closes hPlain, hBy]

/- A frame is fine if its last event is the one that closes it. -/
theorem frameViolations_of_closed
    {last : Event}
    (hPlain : ∀ c ∈ below, c.ends = none)
    (hCloses : last.closes = some e.id) :
    e.frameViolations (below ++ [last]) = [] := by
  have hBy : e.closedBy (below ++ [last]) = true := by
    simp [closedBy, hCloses]
  unfold frameViolations
  cases e.opens with
  | none => rfl
  | some kind =>
    simp [List.countP_append, countP_closes hPlain, hCloses, hBy]

/- The last event of a frame without violations closes it. -/
theorem closed_of_frameViolations
    (hOpens : e.opens = some kind)
    (hValid : e.frameViolations below = []) :
    ∃ before last, below = before ++ [last] ∧
      last.closes = some e.id ∧
      ∀ c ∈ before, c.closes ≠ some e.id := by
  unfold frameViolations at hValid
  simp only [hOpens] at hValid
  split at hValid
  · cases hValid
  · rename_i hCount
    split at hValid
    · rename_i hBy
      unfold closedBy at hBy
      cases hLast : below.getLast? with
      | none =>
        rw [hLast] at hBy
        cases hBy
      | some last =>
        rw [hLast] at hBy
        have hCloses : last.closes = some e.id := by
          simpa using hBy
        rcases List.getLast?_eq_some_iff.mp hLast with
          ⟨before, rfl⟩
        refine ⟨before, last, rfl, hCloses, ?_⟩
        intro c hc hSame
        have hZero : before.countP
            (fun c => decide (c.closes = some e.id)) = 0 := by
          simp only [List.countP_append, List.countP_singleton,
            hCloses, decide_true, if_true] at hCount
          omega
        have hNot := List.countP_eq_zero.mp hZero c hc
        exact hNot (by simpa using hSame)
    · cases hValid

end Event

end ExecTrace
