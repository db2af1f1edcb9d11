import ExecTrace.Proofs.Groves
import ExecTrace.Trace.Recorder

/-
  The events around an event. Every event names the event that
  opened the innermost frame around it, so the frames that are
  open in a recorder are the events around whatever is recorded
  next. An event keeps its lineage when others are recorded.

  Main declarations:
    * `Forest.lineage`
    * `Recorder.Commits` and `Recorder.commits_of_ok`
    * `Opened` and `Opened.lineage`
    * `Recorder.Ordered` and `Recorder.Commits.ordered`
-/

namespace ExecTrace

------------------------------------------------------------
-- Lineages
------------------------------------------------------------

namespace Forest

/- At most `n` events around an event, and the event. -/
def lineageWithin (f : Forest) : Nat → Event → List Event
  | 0, e => [e]
  | n + 1, e =>
    match e.parent.bind f.find? with
    | none => [e]
    | some around => f.lineageWithin n around ++ [e]

/-
  The events around an event, outermost first, and the event.
  Numbers decrease on the way outwards, so the number of an
  event tells how many there can be.
-/
def lineage
    (f : Forest)
    (e : Event) : List Event :=
  f.lineageWithin e.id.number.toNat e

variable {f : Forest}
variable {e e' : Event}
variable {id : EventId}
variable {parent : Option Nat}

/- The event that is found has the number. -/
theorem id_of_find
    (h : f.find? id = some e) : e.id = id := by
  have hId := Array.find?_some h
  simpa using hId

/- The event that is found is one of the events. -/
theorem mem_of_find
    (h : f.find? id = some e) : e ∈ f.nodes :=
  Array.mem_of_find?_eq_some h

/- Events are found as before. -/
theorem find_push
    (h : f.find? id = some e) :
    (f.push parent e').find? id = some e := by
  unfold find? at h ⊢
  rw [push_nodes, Array.find?_push, h]
  rfl

/- A new event is found if its number is new. -/
theorem find_push_new
    (h : ∀ e' ∈ f.nodes, e'.id ≠ e.id) :
    (f.push parent e).find? e.id = some e := by
  have hNone : f.nodes.find? (fun x => x.id == e.id) = none := by
    rw [Array.find?_eq_none]
    intro x hx
    simpa using h x hx
  unfold find?
  rw [push_nodes, Array.find?_push, hNone]
  simp

end Forest

------------------------------------------------------------
-- Committed Actions
------------------------------------------------------------

namespace Recorder

/- What remains of the open frames after an action. -/
def framesAfter
    (r : Recorder)
    (a : Action Unit Snapshot) : List OpenFrame :=
  match a.ends with
  | some _ => r.frames.tail
  | none =>
    match a.opens with
    | some kind => ⟨r.nextId, kind, r.forest.size⟩ :: r.frames
    | none => r.frames

/- The event of an action that is recorded next. -/
def eventOf
    (r : Recorder)
    (a : Action Unit Snapshot)
    (span : Span) : Event :=
  r.nextEvent
    (.action
      (nameFrame
        (match a.ends, r.frames with
        | some _, frame :: _ => frame.owner
        | _, _ => r.nextId) a) span)

/- What it means that an action was recorded. -/
structure Commits
    (r : Recorder)
    (a : Action Unit Snapshot)
    (span : Span)
    (r' : Recorder) : Prop where
  room : r.nextId.number ≠ 0xFFFFFFFFFFFFFFFF
  closes : ∀ kind, a.ends = some kind →
    ∃ frame rest, r.frames = frame :: rest ∧ frame.kind = kind
  forest : r'.forest =
    r.forest.push (r.frames.head?.map OpenFrame.position)
      (r.eventOf a span)
  nextId : r'.nextId = ⟨r.nextId.number + 1⟩
  frames : r'.frames = r.framesAfter a

variable {r r' : Recorder}
variable {a : Action Unit Snapshot}
variable {span : Span}

/- An event is appended if there is a number for the next. -/
theorem emit_ok
    {what : Occurrence}
    (h : r.emit? what = .ok r') :
    r.nextId.number ≠ 0xFFFFFFFFFFFFFFFF ∧ r' = r.emit what := by
  unfold emit? at h
  split at h
  · cases h
  · rename_i hRoom
    exact ⟨hRoom, (Except.ok.inj h).symm⟩

/- An action that is committed is recorded. -/
theorem commits_of_ok
    (h : r.commit a span = .ok r') : r.Commits a span r' := by
  unfold commit at h
  cases hEnds : a.ends with
  | some expected =>
    rw [hEnds] at h
    cases hFrames : r.frames with
    | nil =>
      simp only [closable, hFrames] at h
      cases h
    | cons frame rest =>
      simp only [closable, hFrames] at h
      by_cases hKind : frame.kind = expected
      · simp only [if_pos hKind] at h
        cases hEmit : r.emit?
            (.action (nameFrame frame.owner a) span) with
        | error m =>
          rw [hEmit] at h
          cases h
        | ok s =>
          rw [hEmit] at h
          rcases emit_ok hEmit with ⟨hRoom, rfl⟩
          cases h
          refine ⟨hRoom, ?_, ?_, rfl, ?_⟩
          · intro kind hKind'
            rw [hEnds] at hKind'
            cases hKind'
            exact ⟨frame, rest, hFrames, hKind⟩
          · simp only [emit, eventOf, hEnds, hFrames]
          · simp only [emit, framesAfter, hEnds]
      · simp only [if_neg hKind] at h
        cases h
  | none =>
    rw [hEnds] at h
    simp only at h
    have hNone : ∀ kind, a.ends = some kind → ∃ frame rest,
        r.frames = frame :: rest ∧ frame.kind = kind := by
      intro kind hKind
      rw [hEnds] at hKind
      cases hKind
    cases hEmit : r.emit?
        (.action (nameFrame r.nextId a) span) with
    | error m =>
      rw [hEmit] at h
      cases h
    | ok s =>
      rw [hEmit] at h
      rcases emit_ok hEmit with ⟨hRoom, rfl⟩
      cases hOpens : a.opens with
      | none =>
        rw [hOpens] at h
        cases h
        refine ⟨hRoom, hNone, ?_, rfl, ?_⟩
        · simp only [emit, eventOf, hEnds]
        · simp only [emit, framesAfter, hEnds, hOpens]
      | some kind =>
        rw [hOpens] at h
        cases h
        refine ⟨hRoom, hNone, ?_, rfl, ?_⟩
        · simp only [emit, eventOf, hEnds]
        · simp only [emit, framesAfter, hEnds, hOpens]

end Recorder

------------------------------------------------------------
-- Open Frames
------------------------------------------------------------

/-
  The frames that are open in a recorder, innermost first: the
  event that opened a frame is known, lies in the frames around
  it, and came after their events.
-/
inductive Opened (f : Forest) : List OpenFrame → Prop where
  | nil : Opened f []
  | cons
      {o : OpenFrame}
      {e : Event}
      {rest : List OpenFrame}
      (hFound : f.find? o.owner = some e)
      (hKind : e.opens = some o.kind)
      (hParent : e.parent = rest.head?.map OpenFrame.owner)
      (hLater : ∀ o' ∈ rest, o'.owner.number < o.owner.number)
      (hRest : Opened f rest) : Opened f (o :: rest)

/- The events that opened some frames, outermost first. -/
def Forest.openers
    (f : Forest)
    (frames : List OpenFrame) : List Event :=
  frames.reverse.filterMap fun o => f.find? o.owner

namespace Opened

variable {f : Forest}
variable {frames : List OpenFrame}

/- Frames stay open when an event is added. -/
theorem push
    (h : Opened f frames)
    (parent : Option Nat)
    (e : Event) : Opened (f.push parent e) frames := by
  induction h with
  | nil => exact .nil
  | cons hFound hKind hParent hLater _ ih =>
    exact .cons (Forest.find_push hFound) hKind hParent hLater ih

/- Frames without the innermost one are open. -/
theorem tail
    (h : Opened f frames) : Opened f frames.tail := by
  cases h with
  | nil => exact .nil
  | cons _ _ _ _ hRest => exact hRest

/- The events that opened the frames have been recorded. -/
theorem recorded
    (h : Opened f frames)
    (o : OpenFrame)
    (ho : o ∈ frames) : ∃ e, f.find? o.owner = some e := by
  induction h with
  | nil => cases ho
  | @cons _ e _ hFound _ _ _ _ ih =>
    rcases List.mem_cons.mp ho with rfl | ho
    · exact ⟨e, hFound⟩
    · exact ih ho

/- The lineage of an event is known as far as it goes. -/
theorem lineageWithin
    (h : Opened f frames)
    {o : OpenFrame}
    {rest : List OpenFrame}
    {e : Event}
    (hFrames : frames = o :: rest)
    (hFound : f.find? o.owner = some e)
    {n : Nat}
    (hn : o.owner.number.toNat ≤ n) :
    f.lineageWithin n e = f.openers frames := by
  induction h generalizing o rest e n with
  | nil => cases hFrames
  | @cons o e rest hFound' hKind hParent hLater hRest ih =>
    cases hFrames
    rw [hFound] at hFound'
    cases hFound'
    have hOpeners : f.openers (o :: rest)
        = f.openers rest ++ [e] := by
      simp [Forest.openers, hFound]
    rw [hOpeners]
    cases rest with
    | nil =>
      have hNone : e.parent = none := hParent
      cases n with
      | zero => rfl
      | succ n =>
        simp only [Forest.lineageWithin, hNone]
        rfl
    | cons o' rest' =>
      have hLess := hLater o' (by simp)
      rw [UInt64.lt_iff_toNat_lt] at hLess
      have hSome : e.parent = some o'.owner := hParent
      cases n with
      | zero => omega
      | succ n =>
        cases hRest with
        | @cons _ e' _ hFound'' hKind' hParent' hLater' hRest' =>
          simp only [Forest.lineageWithin, hSome,
            Option.bind_some, hFound'']
          rw [ih rfl hFound'' (by omega)]

/- The lineage of an event whose frame is open. -/
theorem lineage
    {o : OpenFrame}
    {rest : List OpenFrame}
    (h : Opened f (o :: rest))
    {e : Event}
    (hFound : f.find? o.owner = some e) :
    f.lineage e = f.openers (o :: rest) := by
  have hBound : o.owner.number.toNat ≤ e.id.number.toNat :=
    Nat.le_of_eq (by rw [Forest.id_of_find hFound])
  exact h.lineageWithin rfl hFound hBound

end Opened

------------------------------------------------------------
-- Ordered Recorders
------------------------------------------------------------

namespace Recorder

/-
  The frames of a recorder are open in its forest, and numbers
  are given in order.
-/
structure Ordered (r : Recorder) : Prop where
  earlier : ∀ e ∈ r.forest.nodes, e.id.number < r.nextId.number
  opened : Opened r.forest r.frames

variable {r r' : Recorder}
variable {a : Action Unit Snapshot}
variable {span : Span}

/- The next number is a greater one. -/
theorem number_lt_succ
    {n k : UInt64}
    (hk : k ≠ 0xFFFFFFFFFFFFFFFF)
    (h : n ≤ k) : n < k + 1 := by
  have hMax : k.toNat ≠ (0xFFFFFFFFFFFFFFFF : UInt64).toNat :=
    fun hEq => hk (UInt64.toNat_inj.mp hEq)
  have hBound := k.toNat_lt
  rw [UInt64.le_iff_toNat_le] at h
  rw [UInt64.lt_iff_toNat_lt, UInt64.toNat_add]
  have hMod : (k.toNat + (1 : UInt64).toNat) % 2 ^ 64
      = k.toNat + 1 := by
    refine Nat.mod_eq_of_lt ?_
    have hTop : (0xFFFFFFFFFFFFFFFF : UInt64).toNat
        = 18446744073709551615 := by decide
    have hOne : (1 : UInt64).toNat = 1 := by decide
    omega
  omega

/- Actions open the frame that their events open. -/
theorem eventOf_opens
    (r : Recorder)
    (a : Action Unit Snapshot)
    (span : Span) : (r.eventOf a span).opens = a.opens := by
  cases a <;> rfl

namespace Commits

/- A new event is found by its number. -/
theorem found
    (h : r.Commits a span r')
    (hr : r.Ordered) :
    r'.forest.find? r.nextId = some (r.eventOf a span) := by
  rw [h.forest]
  refine Forest.find_push_new ?_
  intro e he hSame
  have hLess := hr.earlier e he
  have hId : e.id = r.nextId := hSame
  rw [hId] at hLess
  exact absurd hLess (UInt64.lt_irrefl _)

/- The frames of a recorder stay open in the new forest. -/
theorem opened
    (h : r.Commits a span r')
    (hr : r.Ordered) : Opened r'.forest r.frames := by
  rw [h.forest]
  exact hr.opened.push _ _

/- Numbers are given in order after an action, too. -/
theorem earlier
    (h : r.Commits a span r')
    (hr : r.Ordered) :
    ∀ e ∈ r'.forest.nodes, e.id.number < r'.nextId.number := by
  intro e he
  rw [h.nextId]
  refine number_lt_succ h.room ?_
  rw [h.forest, Forest.push_nodes, Array.mem_push] at he
  rcases he with he | rfl
  · exact UInt64.le_of_lt (hr.earlier e he)
  · exact UInt64.le_refl _

/- A recorder stays ordered. -/
theorem ordered
    (h : r.Commits a span r')
    (hr : r.Ordered) : r'.Ordered := by
  refine ⟨h.earlier hr, ?_⟩
  have hOld := h.opened hr
  rw [h.frames]
  unfold framesAfter
  cases hEnds : a.ends with
  | some kind => exact hOld.tail
  | none =>
    cases hOpens : a.opens with
    | none => exact hOld
    | some kind =>
      refine .cons (h.found hr) ?_ rfl ?_ hOld
      · rw [eventOf_opens, hOpens]
      · intro o ho
        rcases hr.opened.recorded o ho with ⟨e, hFound⟩
        have hLess := hr.earlier e (Forest.mem_of_find hFound)
        rwa [Forest.id_of_find hFound] at hLess

end Commits

/- A recorder that has recorded nothing is ordered. -/
theorem ordered_create
    (echo : Bool)
    (time : Timestamp) : (create echo time).Ordered where
  earlier := by
    intro e he
    have hOnly : e = { echo := echo : Recorder }.nextEvent
        (.initialization time) := by
      simpa [create, emit, Forest.push, Forest.empty] using he
    rw [hOnly]
    exact (by decide : (1 : UInt64) < 1 + 1)
  opened := .nil

/- Suspending a recorder changes no order. -/
theorem Ordered.suspension
    (h : r.Ordered)
    (b : Bool) : { r with suspended := b }.Ordered :=
  ⟨h.earlier, h.opened⟩

end Recorder

end ExecTrace
