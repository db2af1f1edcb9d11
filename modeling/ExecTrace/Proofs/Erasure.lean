import ExecTrace.Proofs.Retelling
import ExecTrace.Proofs.Lineage
import ExecTrace.Proofs.Stillness

/-
  Events that the options ask for can be erased. What remains is
  numbered anew, in the same order: an event, the frame around it
  and the frame that it closes get the places that their numbers
  have among the remaining ones. Recording an action that is
  erased changes nothing of what remains, and recording any other
  one changes it in a way that depends on what remains only.

  Main declarations:
    * `rank` and `Entry`
    * `Recorder.reduced`
    * `Recorder.Thinned`
    * `Thinned.both` and `Thinned.alone`
-/

namespace ExecTrace

------------------------------------------------------------
-- Renumbered Events
------------------------------------------------------------

/- Whether an event is recorded only if the options say so. -/
def Event.isOptional (e : Event) : Bool :=
  e.action?.any Action.isOptional

/- The place of a number among the numbers of some events. -/
def rank
    (es : List Event)
    (id : EventId) : Nat :=
  (es.countP fun e => e.id.number < id.number) + 1

/- Name the frame that an action closes in another way. -/
def Action.rename
    {κ κ' α : Type}
    (f : κ → κ') : Action κ α → Action κ' α
  | .statement s => .statement s
  | .operation o => .operation o
  | .castAttempt value type succeeds =>
    .castAttempt value type succeeds
  | .binary operator lhs rhs result =>
    .binary operator lhs rhs result
  | .typeTest tested type result => .typeTest tested type result
  | .call callee receiver args => .call callee receiver args
  | .enter method enclosing => .enter method enclosing
  | .exit frame method how => .exit (f frame) method how
  | .resume frame cls method how =>
    .resume (f frame) cls method how

/-
  An event with places instead of numbers. Of the first event of
  a trace the time is left out.
-/
structure Entry where
  id : Nat
  parent : Option Nat
  what : Option (Action Nat Snapshot × Span)
  deriving DecidableEq, Repr

/- An event with the places of its numbers among some events. -/
def Event.entry
    (es : List Event)
    (e : Event) : Entry where
  id := rank es e.id
  parent := e.parent.map (rank es)
  what :=
    match e.what with
    | .initialization _ => none
    | .action a span => some (a.rename (rank es), span)

namespace Recorder

/- The events that are recorded whatever the options say. -/
def kept (r : Recorder) : List Event :=
  r.forest.nodes.toList.filter fun e => !e.isOptional

/- The events that remain, numbered anew. -/
def reduced (r : Recorder) : List Entry :=
  r.kept.map (Event.entry r.kept)

/- The places of the open frames among what remains. -/
def marks (r : Recorder) : List (Nat × FrameKind) :=
  r.frames.map fun o => (rank r.kept o.owner, o.kind)

end Recorder

------------------------------------------------------------
-- Places
------------------------------------------------------------

section Ranks

variable {es : List Event}
variable {e : Event}
variable {id : EventId}

/- A later event changes no places. -/
theorem rank_append
    (h : id.number ≤ e.id.number) :
    rank (es ++ [e]) id = rank es id := by
  have hLater : decide (e.id.number < id.number) = false := by
    simpa using UInt64.not_lt.mpr h
  simp [rank, List.countP_append, hLater]

/- A number behind all others takes the last place. -/
theorem rank_last
    (h : ∀ e ∈ es, e.id.number < id.number) :
    rank es id = es.length + 1 := by
  have hAll : es.countP (fun e => e.id.number < id.number)
      = es.length := by
    rw [List.countP_eq_length]
    simpa using h
  rw [rank, hAll]

/- The numbers that an event mentions. -/
def Event.mentions (e : Event) : List EventId :=
  e.id :: (e.parent.toList ++ e.closes.toList)

/- An event is numbered by the places of what it mentions. -/
theorem Event.entry_congr
    {es' : List Event}
    (h : ∀ id ∈ e.mentions, rank es' id = rank es id) :
    e.entry es' = e.entry es := by
  rcases e with ⟨id, parent, what⟩
  have hId := h id (by simp [Event.mentions])
  have hParent : parent.map (rank es') = parent.map (rank es) := by
    cases parent with
    | none => rfl
    | some p =>
      exact congrArg some (h p (by simp [Event.mentions]))
  unfold Event.entry
  simp only [hId, hParent]
  cases what with
  | initialization time => rfl
  | action a span =>
    cases a with
    | exit frame method how =>
      have hFrame := h frame (by
        simp [Event.mentions, Event.closes, Event.action?,
          Action.closes])
      simp only [Action.rename, hFrame]
    | resume frame cls method how =>
      have hFrame := h frame (by
        simp [Event.mentions, Event.closes, Event.action?,
          Action.closes])
      simp only [Action.rename, hFrame]
    | _ => rfl

end Ranks

------------------------------------------------------------
-- Numbered Recorders
------------------------------------------------------------

/- All numbers that a recorder mentions were given before. -/
structure Recorder.Numbered (r : Recorder) : Prop where
  events : ∀ e ∈ r.forest.nodes, ∀ id ∈ e.mentions,
    id.number < r.nextId.number
  owners : ∀ o ∈ r.frames, o.owner.number < r.nextId.number

/- The frame that an action closes, or else something else. -/
def framed
    {κ α β : Type}
    (a : Action κ α)
    (frames : List β)
    (other : β) : β :=
  match a.ends, frames with
  | some _, frame :: _ => frame
  | _, _ => other

/- The entry of an action behind some others, in some frames. -/
def entryOf
    (count : Nat)
    (marks : List (Nat × FrameKind))
    (a : Action Unit Snapshot)
    (span : Span) : Entry where
  id := count + 1
  parent := marks.head?.map Prod.fst
  what :=
    some
      (a.rename fun _ =>
        framed a (marks.map Prod.fst) (count + 1), span)

/- What remains of the places of open frames after an action. -/
def marksAfter
    (count : Nat)
    (marks : List (Nat × FrameKind))
    (a : Action Unit Snapshot) : List (Nat × FrameKind) :=
  match a.ends with
  | some _ => marks.tail
  | none =>
    match a.opens with
    | some kind => (count + 1, kind) :: marks
    | none => marks

namespace Recorder

variable {r r' t t' : Recorder}
variable {a : Action Unit Snapshot}
variable {span : Span}

/- An action is optional if its event is. -/
theorem isOptional_eventOf
    (r : Recorder)
    (a : Action Unit Snapshot)
    (span : Span) :
    (r.eventOf a span).isOptional = a.isOptional := by
  cases a with
  | operation o => cases o <;> rfl
  | _ => rfl

/- The event of an action names the frame that the action closes. -/
theorem eventOf_eq
    (r : Recorder)
    (a : Action Unit Snapshot)
    (span : Span) :
    r.eventOf a span
      = r.nextEvent (.action
          (nameFrame
            (framed a (r.frames.map OpenFrame.owner) r.nextId) a)
          span) := by
  unfold eventOf framed
  cases a.ends with
  | none => rfl
  | some kind => cases r.frames <;> rfl

/- The closed frame is one of the frames or the other thing. -/
theorem framed_cases
    {κ α β : Type}
    (a : Action κ α)
    (frames : List β)
    (other : β) :
    framed a frames other = other ∨
      framed a frames other ∈ frames := by
  unfold framed
  cases a.ends with
  | none => exact .inl rfl
  | some kind =>
    cases frames with
    | nil => exact .inl rfl
    | cons frame rest => exact .inr List.mem_cons_self

/- The frame that an action closes is mapped with the frames. -/
theorem map_framed
    {κ α β γ : Type}
    (f : β → γ)
    (a : Action κ α)
    (frames : List β)
    (other : β) :
    f (framed a frames other) = framed a (frames.map f) (f other) := by
  unfold framed
  cases a.ends with
  | none => rfl
  | some kind => cases frames <;> rfl

/- The event of an action mentions numbers that were given. -/
theorem mentions_eventOf
    {id : EventId}
    (h : id ∈ (r.eventOf a span).mentions) :
    id = r.nextId ∨ ∃ o ∈ r.frames, id = o.owner := by
  have hHead : ∀ id ∈ (r.frames.head?.map
      OpenFrame.owner).toList, ∃ o ∈ r.frames, id = o.owner := by
    intro id hid
    cases hFrames : r.frames with
    | nil => simp [hFrames] at hid
    | cons o rest =>
      simp [hFrames] at hid
      exact ⟨o, by simp, hid⟩
  have hClosed : ∀ id ∈ (r.eventOf a span).closes.toList,
      id = r.nextId ∨ ∃ o ∈ r.frames, id = o.owner := by
    intro id hid
    rw [eventOf_eq] at hid
    have hFrame : id
        = framed a (r.frames.map OpenFrame.owner) r.nextId := by
      cases a <;>
        simp [nextEvent, Event.closes, Event.action?,
          nameFrame, Action.closes] at hid ⊢ <;> exact hid
    rcases framed_cases a (r.frames.map OpenFrame.owner) r.nextId
      with hOther | hMem
    · exact .inl (hFrame.trans hOther)
    · rcases List.mem_map.mp hMem with ⟨o, ho, hOwner⟩
      exact .inr ⟨o, ho, hFrame.trans hOwner.symm⟩
  simp only [Event.mentions, List.mem_cons, List.mem_append] at h
  rcases h with h | h | h
  · exact .inl h
  · exact .inr (hHead id h)
  · exact hClosed id h

namespace Commits

/- The next number is greater than all that were given. -/
theorem less
    (h : r.Commits a span r')
    {id : EventId}
    (hid : id.number ≤ r.nextId.number) :
    id.number < r'.nextId.number := by
  rw [h.nextId]
  exact number_lt_succ h.room hid

/- There is a next number for what has recorded no more. -/
theorem roomBelow
    (h : r.Commits a span r')
    {t : Recorder}
    (hLess : t.nextId.number.toNat ≤ r.nextId.number.toNat) :
    t.nextId.number ≠ 0xFFFFFFFFFFFFFFFF := by
  intro hEq
  have hTop : r.nextId.number.toNat ≠ 18446744073709551615 :=
    fun hSame => h.room (UInt64.toNat_inj.mp hSame)
  have hBound := r.nextId.number.toNat_lt
  have hNat := congrArg UInt64.toNat hEq
  have hMax : (0xFFFFFFFFFFFFFFFF : UInt64).toNat
      = 18446744073709551615 := by decide
  omega

/- The next number is the one after the number that was given. -/
theorem nextId_toNat
    (h : r.Commits a span r') :
    r'.nextId.number.toNat = r.nextId.number.toNat + 1 := by
  have hLess := UInt64.lt_iff_toNat_lt.mp
    (h.less (UInt64.le_refl r.nextId.number))
  have hOne : (1 : UInt64).toNat = 1 := by decide
  rw [h.nextId] at hLess ⊢
  simp only [UInt64.toNat_add] at hLess ⊢
  omega

/- A recorder stays numbered. -/
theorem numbered
    (h : r.Commits a span r')
    (hr : r.Numbered) : r'.Numbered := by
  constructor
  · intro e he id hid
    rw [h.forest, Forest.push_nodes, Array.mem_push] at he
    rcases he with he | rfl
    · exact h.less (UInt64.le_of_lt (hr.events e he id hid))
    · rcases mentions_eventOf hid with rfl | ⟨o, ho, rfl⟩
      · exact h.less (UInt64.le_refl _)
      · exact h.less (UInt64.le_of_lt (hr.owners o ho))
  · intro o ho
    have hOld : ∀ o ∈ r.frames,
        o.owner.number < r'.nextId.number :=
      fun o ho => h.less (UInt64.le_of_lt (hr.owners o ho))
    rw [h.frames] at ho
    unfold framesAfter at ho
    split at ho
    · exact hOld o (List.mem_of_mem_tail ho)
    · split at ho
      · rcases List.mem_cons.mp ho with rfl | ho
        · exact h.less (UInt64.le_refl _)
        · exact hOld o ho
      · exact hOld o ho

/- What remains after an action. -/
theorem kept
    (h : r.Commits a span r') :
    r'.kept = r.kept
      ++ (if a.isOptional then [] else [r.eventOf a span]) := by
  unfold Recorder.kept
  rw [h.forest, Forest.push_nodes, Array.toList_push,
    List.filter_append]
  congr 1
  rw [List.filter_singleton, isOptional_eventOf]
  cases a.isOptional <;> rfl

/- The places of given numbers stay the same. -/
theorem rank_kept
    (h : r.Commits a span r')
    {id : EventId}
    (hid : id.number ≤ r.nextId.number) :
    rank r'.kept id = rank r.kept id := by
  rw [h.kept]
  split
  · rw [List.append_nil]
  · exact rank_append hid

end Commits

/- A new recorder is numbered. -/
theorem numbered_create
    (echo : Bool)
    (time : Timestamp) : (create echo time).Numbered where
  events := by
    intro e he id hid
    have hFirst : e = ⟨.first, none, .initialization time⟩ := by
      simpa [create, emit, Forest.push, Forest.empty, nextEvent]
        using he
    subst hFirst
    have hOne : id = .first := by
      simpa [Event.mentions, Event.closes, Event.action?] using hid
    subst hOne
    exact (by decide : (1 : UInt64) < 1 + 1)
  owners := nofun

/- The next event takes the last place. -/
theorem Numbered.rank_next
    (hr : r.Numbered) :
    rank r.kept r.nextId = r.kept.length + 1 := by
  refine rank_last fun e he => ?_
  have hNode : e ∈ r.forest.nodes := by
    simpa using (List.mem_filter.mp he).1
  exact hr.events e hNode e.id (by simp [Event.mentions])

/- The event of an action, with places instead of numbers. -/
theorem Numbered.entry_eventOf
    (hr : r.Numbered) :
    (r.eventOf a span).entry r.kept
      = entryOf r.kept.length r.marks a span := by
  have hParent : (r.frames.head?.map OpenFrame.owner).map
      (rank r.kept) = r.marks.head?.map Prod.fst := by
    unfold marks
    cases r.frames <;> rfl
  have hFrame : rank r.kept
        (framed a (r.frames.map OpenFrame.owner) r.nextId)
      = framed a (r.marks.map Prod.fst) (r.kept.length + 1) := by
    rw [map_framed (rank r.kept), hr.rank_next]
    unfold marks
    simp only [List.map_map]
    rfl
  have hAction : (nameFrame
        (framed a (r.frames.map OpenFrame.owner) r.nextId) a).rename
          (rank r.kept)
      = a.rename fun _ =>
        framed a (r.marks.map Prod.fst) (r.kept.length + 1) := by
    rw [← hFrame]
    cases a <;> rfl
  rw [eventOf_eq]
  unfold Event.entry entryOf
  simp only [nextEvent, hr.rank_next, hParent]
  exact congrArg (fun b => Entry.mk _ _ (some (b, span))) hAction

namespace Commits

/- What remains after an action, with places for numbers. -/
theorem reduced
    (h : r.Commits a span r')
    (hr : r.Numbered) :
    r'.reduced = r.reduced
      ++ (if a.isOptional then []
        else [entryOf r.kept.length r.marks a span]) := by
  have hOld : ∀ e ∈ r.kept, e.entry r'.kept = e.entry r.kept := by
    intro e he
    have hNode : e ∈ r.forest.nodes := by
      simpa using (List.mem_filter.mp he).1
    exact Event.entry_congr fun id hid =>
      h.rank_kept (UInt64.le_of_lt (hr.events e hNode id hid))
  have hNew : (r.eventOf a span).entry r'.kept
      = entryOf r.kept.length r.marks a span := by
    rw [← hr.entry_eventOf]
    refine Event.entry_congr fun id hid => h.rank_kept ?_
    rcases mentions_eventOf hid with rfl | ⟨o, ho, rfl⟩
    · exact UInt64.le_refl _
    · exact UInt64.le_of_lt (hr.owners o ho)
  unfold Recorder.reduced
  rw [show r'.kept.map (Event.entry r'.kept)
      = (r.kept ++ (if a.isOptional then []
          else [r.eventOf a span])).map (Event.entry r'.kept) by
      rw [← h.kept], List.map_append]
  congr 1
  · exact List.map_congr_left hOld
  · split
    · rfl
    · rw [List.map_singleton, hNew]

/- The places of the open frames after an action. -/
theorem marks
    (h : r.Commits a span r')
    (hr : r.Numbered) :
    r'.marks = marksAfter r.kept.length r.marks a := by
  have hOld : ∀ frames : List OpenFrame,
      (∀ o ∈ frames, o ∈ r.frames) →
      frames.map (fun o => (rank r'.kept o.owner, o.kind))
        = frames.map fun o => (rank r.kept o.owner, o.kind) := by
    intro frames hFrames
    refine List.map_congr_left fun o ho => ?_
    rw [h.rank_kept (UInt64.le_of_lt (hr.owners o (hFrames o ho)))]
  unfold Recorder.marks marksAfter
  rw [h.frames]
  unfold framesAfter
  cases a.ends with
  | some kind =>
    simp only
    rw [hOld _ fun o ho => List.mem_of_mem_tail ho, List.map_tail]
  | none =>
    cases a.opens with
    | none => exact hOld _ fun _ ho => ho
    | some kind =>
      simp only [List.map_cons]
      rw [hOld _ fun _ ho => ho, h.rank_kept (UInt64.le_refl _),
        hr.rank_next]

end Commits

------------------------------------------------------------
-- Thinned Recorders
------------------------------------------------------------

/-
  Two running recorders of which the same remains. The second one
  may have recorded less.
-/
structure Thinned (r r' : Recorder) : Prop where
  running : r.suspended = false
  running' : r'.suspended = false
  numbered : r.Numbered
  numbered' : r'.Numbered
  room : r'.nextId.number.toNat ≤ r.nextId.number.toNat
  reduced : r'.reduced = r.reduced
  marks : r'.marks = r.marks

/- A recorder that records an action runs on. -/
theorem suspended_of_commit
    (h : r.commit a span = .ok r') :
    r'.suspended = r.suspended := by
  have hEmit : ∀ {what : Occurrence} {t : Recorder},
      r.emit? what = .ok t → t.suspended = r.suspended := by
    intro what t ht
    rw [(emit_ok ht).2]
    rfl
  unfold commit at h
  split at h
  · split at h
    · cases h
    · split at h
      · cases h
      · rename_i t ht
        cases h
        have hSame := hEmit ht
        exact hSame
  · simp only at h
    split at h
    · cases h
    · rename_i t ht
      have hSame := hEmit ht
      split at h <;> cases h <;> exact hSame

/- An action is recorded if it fits and there is a number. -/
theorem commit_of_fits
    (hRoom : r.nextId.number ≠ 0xFFFFFFFFFFFFFFFF)
    (hFits : ∀ kind, a.ends = some kind →
      ∃ frame rest, r.frames = frame :: rest ∧ frame.kind = kind) :
    ∃ r', r.commit a span = .ok r' := by
  have hEmit : ∀ what, r.emit? what = .ok (r.emit what) := by
    intro what
    rw [emit?, if_neg hRoom]
  unfold commit
  cases hEnds : a.ends with
  | some kind =>
    rcases hFits kind hEnds with ⟨frame, rest, hFrames, hKind⟩
    simp only [closable, hFrames, if_pos hKind, hEmit]
    exact ⟨_, rfl⟩
  | none =>
    simp only [hEmit]
    cases a.opens <;> exact ⟨_, rfl⟩

namespace Thinned

/- As many events remain of both recorders. -/
theorem count
    (h : r.Thinned t) : t.kept.length = r.kept.length := by
  have hLength := congrArg List.length h.reduced
  simpa [Recorder.reduced] using hLength

/- Both record an action that the first one records. -/
theorem both
    (h : r.Thinned t)
    (hCommit : r.commit a span = .ok r') :
    ∃ t', t.commit a span = .ok t' ∧ r'.Thinned t' := by
  have hLeft := commits_of_ok hCommit
  have hFits : ∀ kind, a.ends = some kind →
      ∃ frame rest, t.frames = frame :: rest ∧
        frame.kind = kind := by
    intro kind hKind
    rcases hLeft.closes kind hKind with ⟨o, rest, hFrames, ho⟩
    have hMarks := h.marks
    unfold Recorder.marks at hMarks
    cases hOther : t.frames with
    | nil => simp [hFrames, hOther] at hMarks
    | cons o' rest' =>
      simp only [hFrames, hOther, List.map_cons, List.cons.injEq,
        Prod.mk.injEq] at hMarks
      exact ⟨o', rest', rfl, hMarks.1.2.trans ho⟩
  have hRecords : ∃ t', t.commit a span = .ok t' :=
    commit_of_fits (hLeft.roomBelow h.room) hFits
  rcases hRecords with ⟨t', hCommit'⟩
  have hRight := commits_of_ok hCommit'
  refine ⟨t', hCommit', ?_⟩
  exact
    { running := (suspended_of_commit hCommit).trans h.running
      running' := (suspended_of_commit hCommit').trans h.running'
      numbered := hLeft.numbered h.numbered
      numbered' := hRight.numbered h.numbered'
      room := by
        rw [hLeft.nextId_toNat, hRight.nextId_toNat]
        exact Nat.succ_le_succ h.room
      reduced := by
        rw [hLeft.reduced h.numbered, hRight.reduced h.numbered',
          h.reduced, h.count, h.marks]
      marks := by
        rw [hLeft.marks h.numbered, hRight.marks h.numbered',
          h.count, h.marks] }

/- The first one alone records an optional action. -/
theorem alone
    (h : r.Thinned t)
    (hOptional : a.isOptional = true)
    (hCommit : r.commit a span = .ok r') : r'.Thinned t := by
  have hLeft := commits_of_ok hCommit
  have hInner : a.opens = none ∧ a.ends = none := by
    cases a with
    | operation o => exact ⟨rfl, rfl⟩
    | binary => exact ⟨rfl, rfl⟩
    | _ => cases hOptional
  exact
    { running := (suspended_of_commit hCommit).trans h.running
      running' := h.running'
      numbered := hLeft.numbered h.numbered
      numbered' := h.numbered'
      room := by
        rw [hLeft.nextId_toNat]
        exact Nat.le_succ_of_le h.room
      reduced := by
        rw [hLeft.reduced h.numbered, if_pos hOptional,
          List.append_nil, h.reduced]
      marks := by
        rw [hLeft.marks h.numbered, marksAfter, hInner.2, hInner.1,
          h.marks] }

end Thinned

end Recorder

end ExecTrace
