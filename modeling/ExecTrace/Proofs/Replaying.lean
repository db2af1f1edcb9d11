import ExecTrace.Proofs.Bracketing

/-
  Replaying a grove. The broken properties of a grove agree with
  a replay of its events: the frames that are left open are the
  broken properties of events that can be replayed, and the
  events of a grove without broken properties can be replayed,
  and close every frame they open.

  Main declarations:
    * `Encloses` and `Grove.Fresh`
    * `Replayed` and `Grove.replayed`
    * `Grove.violations_of_replay`
    * `Grove.replay_of_valid`
-/

namespace ExecTrace

------------------------------------------------------------
-- Groves That Can Be Replayed
------------------------------------------------------------

/- The event whose frame is the innermost one. -/
inductive Encloses : Option Event → Brackets → Prop where
  | none : Encloses none []
  | some
      {p : Event}
      {kind : FrameKind}
      {frames : Brackets}
      (hOpens : p.opens = some kind) :
      Encloses (some p) ((p.id, kind) :: frames)

/-
  What a replay has done after the events of a grove. The frames
  are the same as before, or the last of the topmost events has
  closed the innermost one, or there are no more events, and the
  frames that were opened last are left open.
-/
inductive Replayed
    (g : Grove)
    (parent : Option Event)
    (frames : Brackets)
    (rest : List Event)
    (final : Brackets) : Prop where
  | level
      (hValid : g.violations parent = [])
      (hTops : ∀ c ∈ g.topEvents, c.ends = none)
      (hRest : replay frames rest = some final)
  | closed
      (before : List Event)
      (last : Event)
      (owner : EventId)
      (kind : FrameKind)
      (around : Brackets)
      (hValid : g.violations parent = [])
      (hTops : g.topEvents = before ++ [last])
      (hBefore : ∀ c ∈ before, c.ends = none)
      (hCloses : last.closes = some owner)
      (hFrames : frames = (owner, kind) :: around)
      (hRest : replay around rest = some final)
  | leftOpen
      (opened : Brackets)
      (hLeft : g.violations parent
        = opened.reverse.map unclosedFrame)
      (hTops : ∀ c ∈ g.topEvents, c.ends = none)
      (hEnd : rest = [])
      (hFinal : final = opened ++ frames)

namespace Grove

variable {g : Grove}
variable {parent : Option Event}
variable {frames final : Brackets}
variable {rest : List Event}

/- The innermost frame is that of the event around. -/
theorem encloses_head
    (h : Encloses parent frames) :
    parent.map Event.id = frames.head?.map Prod.fst := by
  cases h <;> rfl

/- No event is replayed outside of the frame that it names. -/
theorem Linked.eq_empty
    {around : Option EventId}
    (hLinked : g.Linked around)
    (hOther : around ≠ frames.head?.map Prod.fst)
    (h : replay frames (g.events ++ rest) = some final) :
    g = .empty := by
  cases g with
  | empty => rfl
  | event i e below behind =>
    rcases replay_cons h with ⟨after, hBracket, _⟩
    have hParent := Event.parent_of_bracket hBracket
    rw [hLinked.1] at hParent
    exact absurd hParent hOther

/- Neither events nor open frames share their numbers. -/
def Fresh
    (g : Grove)
    (frames : Brackets) : Prop :=
  (g.events.map Event.id ++ frames.map Prod.fst).Nodup

section Fresh

variable {i : Nat}
variable {e : Event}
variable {below behind : Grove}

/- A number that no frame has is not the innermost one. -/
theorem head_ne_of_not_mem
    {id : EventId}
    (h : id ∉ frames.map Prod.fst) :
    some id ≠ frames.head?.map Prod.fst := by
  intro hSame
  rw [← List.head?_map] at hSame
  exact h (List.mem_of_head? hSame.symm)

/- No frame has the number of a new event. -/
theorem Fresh.head_not_mem
    (h : (event i e below behind).Fresh frames) :
    e.id ∉ frames.map Prod.fst := by
  intro hMem
  exact (List.nodup_append.mp h).2.2 e.id (by simp [events]) e.id
    hMem rfl

/- The innermost frame has a number of its own. -/
theorem Fresh.innermost_not_mem
    {id : EventId}
    {kind : FrameKind}
    (h : g.Fresh ((id, kind) :: frames)) :
    id ∉ frames.map Prod.fst :=
  (List.nodup_cons.mp (List.nodup_append.mp h).2.1).1

/- The frame of an event is a new one for the events below. -/
theorem Fresh.inside
    (h : (event i e below behind).Fresh frames)
    (kind : FrameKind) :
    below.Fresh ((e.id, kind) :: frames) := by
  unfold Fresh at h ⊢
  simp only [events, List.map_cons, List.map_append,
    List.cons_append, List.nodup_cons, List.nodup_append,
    List.mem_append, not_or] at h ⊢
  grind

/- The events behind an event have new numbers. -/
theorem Fresh.after
    (h : (event i e below behind).Fresh frames) :
    behind.Fresh frames := by
  refine List.Nodup.sublist ?_ h
  refine List.Sublist.append ?_ (List.Sublist.refl _)
  refine List.Sublist.map _ ?_
  exact (List.sublist_append_right _ _).cons e

/- The events below an event lie outside of what comes behind. -/
theorem Fresh.outside
    (h : (event i e below behind).Fresh frames)
    (hFrames : Encloses parent frames)
    (hLinked : behind.Linked (parent.map Event.id))
    (hOutside : ∀ c ∈ rest.head?,
      ∀ d ∈ (event i e below behind).events,
        c.parent ≠ some d.id) :
    ∀ c ∈ (behind.events ++ rest).head?, ∀ d ∈ below.events,
      c.parent ≠ some d.id := by
  intro c hc d hd
  cases behind with
  | empty =>
    refine hOutside c hc d ?_
    simp [events, hd]
  | event j b inner last =>
    have hHead : c = b := by
      simpa [events, eq_comm] using hc
    rw [hHead, hLinked.1]
    cases hFrames with
    | none => exact (Option.some_ne_none _).symm
    | @some p kind around hOpens =>
      intro hSame
      have hId : p.id = d.id := Option.some.inj hSame
      refine (List.nodup_append.mp h).2.2 d.id ?_ p.id ?_ hId.symm
      · refine List.mem_map_of_mem ?_
        simp [events, hd]
      · simp

end Fresh

/- An event that leaves all frames as they are changes nothing. -/
theorem replayed_cons
    {i : Nat}
    {e : Event}
    {below behind : Grove}
    (hEnds : e.ends = none)
    (hSame : (event i e below behind).violations parent
      = behind.violations parent)
    (h : Replayed behind parent frames rest final) :
    Replayed (event i e below behind) parent frames rest final := by
  have hPlain : ∀ {cs : List Event}, (∀ c ∈ cs, c.ends = none) →
      ∀ c ∈ e :: cs, c.ends = none := by
    intro cs hcs c hc
    rcases List.mem_cons.mp hc with rfl | hc
    · exact hEnds
    · exact hcs c hc
  cases h with
  | level hValid hTops hRest =>
    exact .level (hSame.trans hValid) (hPlain hTops) hRest
  | closed before last owner kind around hValid hTops hBefore
      hCloses hFrames hRest =>
    refine .closed (e :: before) last owner kind around
      (hSame.trans hValid) ?_ (hPlain hBefore) hCloses hFrames hRest
    rw [topEvents, hTops, List.cons_append]
  | leftOpen opened hLeft hTops hEnd hFinal =>
    exact .leftOpen opened (hSame.trans hLeft) (hPlain hTops) hEnd
      hFinal

/-
  The events of a grove are replayed frame by frame, if their
  numbers are new and what comes behind lies outside.
-/
theorem replayed
    (hFrames : Encloses parent frames)
    (hLinked : g.Linked (parent.map Event.id))
    (hFresh : g.Fresh frames)
    (hOutside : ∀ c ∈ rest.head?, ∀ d ∈ g.events,
      c.parent ≠ some d.id)
    (h : replay frames (g.events ++ rest) = some final) :
    Replayed g parent frames rest final := by
  induction g generalizing parent frames rest with
  | empty => exact .level rfl (fun _ hc => by cases hc) h
  | event i e below behind ihBelow ihBehind =>
    rcases hLinked with ⟨hParent, hBelow, hBehind⟩
    have hNamed : Forest.parentViolations e parent = [] :=
      Event.parentViolations_eq_nil_iff.mpr hParent
    rcases replay_cons h with ⟨after, hBracket, hAfter⟩
    replace hAfter : replay after
        (below.events ++ (behind.events ++ rest)) = some final := by
      rw [← List.append_assoc]
      exact hAfter
    rcases Event.bracket_cases hBracket with
      ⟨owner, kind, hEnds, hOpens, hInner, hCloses⟩
      | ⟨kind, hEnds, hOpens, rfl⟩ | ⟨hEnds, hOpens, rfl⟩
    · -- a closing event is the last one of its frame
      cases hFrames with
      | none => cases hInner
      | @some p kind' around hOpens' =>
        cases hInner
        have hNoBelow : below = .empty :=
          hBelow.eq_empty (head_ne_of_not_mem fun hMem =>
            hFresh.head_not_mem (List.mem_cons_of_mem _ hMem))
            hAfter
        subst hNoBelow
        have hNoBehind : behind = .empty :=
          hBehind.eq_empty
            (head_ne_of_not_mem hFresh.innermost_not_mem) hAfter
        subst hNoBehind
        refine .closed [] e p.id kind after ?_ rfl
          (fun _ hc => by cases hc) hCloses rfl hAfter
        have hCloses' : Forest.closeViolations e (some p) = [] :=
          (Event.closeViolations_eq_nil_iff hEnds).mpr
            ⟨p, rfl, hOpens', hCloses⟩
        simp only [violations, hNamed, hCloses',
          Event.frameViolations_of_plain hOpens, List.append_nil]
    · -- an opening event has its frame closed, or is left open
      have hRight : Forest.closeViolations e parent = [] :=
        Event.closeViolations_of_plain hEnds
      have hInside := ihBelow (.some hOpens) hBelow
        (hFresh.inside kind)
        (hFresh.outside hFrames hBehind hOutside) hAfter
      cases hInside with
      | level hValid hTops hRest =>
        have hNoBehind : behind = .empty := by
          refine hBehind.eq_empty ?_ hRest
          rw [encloses_head hFrames]
          exact (head_ne_of_not_mem hFresh.head_not_mem).symm
        subst hNoBehind
        have hEnd : rest = [] := by
          cases rest with
          | nil => rfl
          | cons c cs =>
            rcases replay_cons hRest with ⟨_, hNext, _⟩
            exact absurd (Event.parent_of_bracket hNext)
              (hOutside c rfl e (by simp [events]))
        subst hEnd
        refine .leftOpen [(e.id, kind)] ?_ ?_ rfl
          (Option.some.inj hRest).symm
        · simp [violations, hNamed, hRight, hValid, unclosedFrame,
            Event.frameViolations_of_open hOpens hTops]
        · intro c hc
          cases List.mem_singleton.mp hc
          exact hEnds
      | closed before last owner kind' around hValid hTops hBefore
          hCloses hSame hRest =>
        cases hSame
        refine replayed_cons hEnds ?_ (ihBehind hFrames hBehind
          hFresh.after ?_ hRest)
        · simp only [violations, hNamed, hRight, hTops, hValid,
            Event.frameViolations_of_closed hBefore hCloses,
            List.nil_append]
        · intro c hc d hd
          exact hOutside c hc d (by simp [events, hd])
      | leftOpen opened hLeft hTops hEnd hFinal =>
        rcases List.append_eq_nil_iff.mp hEnd with
          ⟨hNoBehind, rfl⟩
        cases behind with
        | event => cases hNoBehind
        | empty =>
          refine .leftOpen (opened ++ [(e.id, kind)]) ?_ ?_ rfl ?_
          · simp [violations, hNamed, hRight, hLeft, unclosedFrame,
              Event.frameViolations_of_open hOpens hTops]
          · intro c hc
            cases List.mem_singleton.mp hc
            exact hEnds
          · rw [hFinal, List.append_assoc]
            rfl
    · -- any other event has nothing below it
      have hRight : Forest.closeViolations e parent = [] :=
        Event.closeViolations_of_plain hEnds
      have hNoBelow : below = .empty :=
        hBelow.eq_empty (head_ne_of_not_mem
          hFresh.head_not_mem) hAfter
      subst hNoBelow
      refine replayed_cons hEnds ?_ (ihBehind hFrames hBehind
        hFresh.after ?_ hAfter)
      · simp only [violations, hNamed, hRight,
          Event.frameViolations_of_plain hOpens, List.nil_append]
      · intro c hc d hd
        exact hOutside c hc d (by simp [events, hd])

/-
  The broken properties of events that can be replayed are the
  frames that are left open.
-/
theorem violations_of_replay
    (hLinked : g.Linked none)
    (hNodup : (g.events.map Event.id).Nodup)
    (h : replay [] g.events = some final) :
    g.violations none = final.reverse.map unclosedFrame := by
  have hFresh : g.Fresh [] := by
    unfold Fresh
    rw [List.map_nil, List.append_nil]
    exact hNodup
  have hAll : replay [] (g.events ++ []) = some final := by
    rw [List.append_nil]
    exact h
  cases replayed .none hLinked hFresh (fun _ hc => by cases hc) hAll
    with
  | level hValid _ hRest =>
    cases hRest
    exact hValid
  | closed _ _ _ _ _ _ _ _ _ hFrames => cases hFrames
  | leftOpen opened hLeft _ _ hFinal =>
    rw [hLeft, hFinal, List.append_nil]

------------------------------------------------------------
-- Groves without Violations
------------------------------------------------------------

/- There is nothing below an event that opens no frame. -/
@[grind] def Nests : Grove → Prop
  | empty => True
  | event _ e below rest =>
    (e.opens = none → below = empty) ∧ below.Nests ∧ rest.Nests

/- Whether the last of the topmost events closes a frame. -/
def endsFrame (g : Grove) : Bool :=
  match g.topEvents.getLast? with
  | some last => last.ends.isSome
  | none => false

/- Whether a frame is closed is decided by the events behind. -/
theorem endsFrame_event
    {i : Nat}
    {e : Event}
    {below behind : Grove}
    (hEnds : e.ends = none) :
    (event i e below behind).endsFrame = behind.endsFrame := by
  cases behind with
  | empty => simp [endsFrame, topEvents, hEnds]
  | event => simp [endsFrame, topEvents]

/- The topmost events close the frame around them, if any. -/
theorem closeViolations_of_valid
    (hValid : g.violations parent = [])
    (c : Event)
    (hc : c ∈ g.topEvents) :
    Forest.closeViolations c parent = [] := by
  induction g with
  | empty => cases hc
  | event i e below behind _ ih =>
    simp only [violations, List.append_eq_nil_iff] at hValid
    rcases List.mem_cons.mp hc with rfl | hc
    · exact hValid.1.1.1.2
    · exact ih hValid.2 hc

/- The only event that may close a frame is its last one. -/
theorem tops_of_valid
    {e : Event}
    {kind : FrameKind}
    (hOpens : e.opens = some kind)
    (hFrame : e.frameViolations g.topEvents = [])
    (hValid : g.violations (some e) = []) :
    g.endsFrame = true ∧
      ∀ c ∈ g.topEvents.dropLast, c.ends = none := by
  rcases Event.closed_of_frameViolations hOpens hFrame with
    ⟨before, last, hTops, hCloses, hBefore⟩
  constructor
  · unfold endsFrame
    rw [hTops, List.getLast?_concat]
    cases hEnds : last.ends with
    | some kind => simp only [hEnds, Option.isSome_some]
    | none =>
      rw [Event.closes_eq_none_iff.mpr hEnds] at hCloses
      cases hCloses
  · intro c hc
    rw [hTops, List.dropLast_concat] at hc
    cases hEnds : c.ends with
    | none => rfl
    | some kind =>
      have hRight := closeViolations_of_valid hValid c (by
        rw [hTops]
        exact List.mem_append_left _ hc)
      rcases (Event.closeViolations_eq_nil_iff hEnds).mp hRight with
        ⟨p, hp, _, hSame⟩
      cases hp
      exact absurd hSame (hBefore c hc)

/-
  Events without violations can be replayed, and only the last
  of the topmost events may close the frame around.
-/
theorem replay_of_valid
    (hFrames : Encloses parent frames)
    (hNests : g.Nests)
    (hTops : ∀ c ∈ g.topEvents.dropLast, c.ends = none)
    (hValid : g.violations parent = []) :
    replay frames (g.events ++ rest)
      = replay (if g.endsFrame then frames.tail else frames)
          rest := by
  induction g generalizing parent frames rest with
  | empty => rfl
  | event i e below behind ihBelow ihBehind =>
    rcases hNests with ⟨hBare, hNestsBelow, hNestsBehind⟩
    simp only [violations, List.append_eq_nil_iff] at hValid
    rcases hValid with
      ⟨⟨⟨⟨hNamed, hRight⟩, hFrame⟩, hValidBelow⟩, hValidBehind⟩
    have hParent : e.parent = frames.head?.map Prod.fst := by
      rw [Event.parentViolations_eq_nil_iff.mp hNamed]
      exact encloses_head hFrames
    have hRest : (event i e below behind).events ++ rest
        = e :: (below.events ++ (behind.events ++ rest)) := by
      simp only [events, List.cons_append, List.append_assoc]
    have hTopsBehind : ∀ c ∈ behind.topEvents.dropLast,
        c.ends = none := by
      intro c hc
      refine hTops c ?_
      rw [topEvents, List.dropLast_cons_of_ne_nil]
      · exact List.mem_cons_of_mem _ hc
      · rintro hNone
        rw [hNone] at hc
        cases hc
    rw [hRest]
    cases hEnds : e.ends with
    | some kind =>
      rcases (Event.closeViolations_eq_nil_iff hEnds).mp hRight with
        ⟨p, rfl, hOpens, hCloses⟩
      cases hBare (Event.opens_of_ends hEnds)
      have hLast : behind = .empty := by
        cases behind with
        | empty => rfl
        | event j b inner last =>
          have hNone := hTops e (by simp [topEvents])
          rw [hEnds] at hNone
          cases hNone
      subst hLast
      cases hFrames with
      | some hOpens' =>
        rw [hOpens] at hOpens'
        cases hOpens'
        simp only [replay, Event.bracket_of_ends hParent hEnds
          hCloses]
        simp [endsFrame, topEvents, hEnds, events]
    | none =>
      rw [endsFrame_event hEnds]
      have hBehind : replay frames (behind.events ++ rest)
          = replay (if behind.endsFrame then frames.tail else frames)
              rest :=
        ihBehind hFrames hNestsBehind hTopsBehind hValidBehind
      cases hOpens : e.opens with
      | some kind =>
        rcases tops_of_valid hOpens hFrame hValidBelow with
          ⟨hClosed, hInner⟩
        have hBelow : replay ((e.id, kind) :: frames)
              (below.events ++ (behind.events ++ rest))
            = replay frames (behind.events ++ rest) := by
          rw [ihBelow (.some hOpens) hNestsBelow hInner hValidBelow,
            if_pos hClosed, List.tail_cons]
        simp only [replay, Event.bracket_of_opens hParent hEnds
          hOpens]
        exact hBelow.trans hBehind
      | none =>
        cases hBare hOpens
        simp only [replay, Event.bracket_of_plain hParent hEnds
          hOpens]
        exact hBehind

/- The events of a whole grove leave no frame open. -/
theorem replay_nil_of_valid
    (hNests : g.Nests)
    (hValid : g.violations none = []) :
    replay [] g.events = some [] := by
  have hPlain : ∀ c ∈ g.topEvents.dropLast, c.ends = none := by
    intro c hc
    cases hEnds : c.ends with
    | none => rfl
    | some kind =>
      have hRight := closeViolations_of_valid hValid c
        (List.dropLast_subset _ hc)
      rcases (Event.closeViolations_eq_nil_iff hEnds).mp hRight with
        ⟨p, hp, _, _⟩
      cases hp
  have hAll : replay [] (g.events ++ [])
      = replay (if g.endsFrame then [].tail else []) [] :=
    replay_of_valid .none hNests hPlain hValid
  rw [List.append_nil, List.tail_nil, ite_self] at hAll
  exact hAll

end Grove

end ExecTrace
