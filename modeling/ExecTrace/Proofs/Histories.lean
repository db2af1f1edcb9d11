import ExecTrace.Proofs.Lineage
import ExecTrace.Proofs.Rebuilding
import ExecTrace.Proofs.Traversal

/-
  Histories of recorders. A program records actions one after
  the other. While the values of an action are captured, or
  while the program holds the recorder suspended, all of this
  may happen once more, but is not recorded. Whatever a program
  does, the events that were recorded are numbered and nested in
  order, and only the frames that are open are unclosed.

  Main declarations:
    * `History` and `History.preserves`
    * `Recorder.Sound` and `Recorder.Commits.sound`
    * `History.validate_eq_open_frames`
    * `History.eventsInOrder_roundtrip`
-/

namespace ExecTrace

------------------------------------------------------------
-- Histories
------------------------------------------------------------

section Histories

variable {σ : Type}

/- What is put into a slot is what is found there. -/
def Slot.Keeps (slot : Slot σ) : Prop :=
  ∀ r s, slot.get (slot.set r s) = some r

/-
  What a program may do in a state with a recorder. It records
  an action, which is lost if values cannot be captured or if a
  wrong frame is closed; capturing may do the same as a program.
  It suspends the recorder for a while, or for good, or it does
  something that does not concern the recorder.
-/
inductive History (slot : Slot σ) : σ → σ → Prop where
  | done (s : σ) : History slot s s
  | other
      {s s' t : σ}
      (hSame : slot.get s' = slot.get s)
      (hRest : History slot s' t) : History slot s t
  | record
      {s t : σ}
      {ε α : Type}
      (misuse : Recorder.Misuse → ε)
      (capture : α → ExceptT ε (StateM σ) Snapshot)
      (a : Action Unit α)
      (span : Span)
      (hCapture : ∀ x s, History slot s (capture x s).2)
      (hRest : History slot
        (record slot misuse capture a span s).2 t) :
      History slot s t
  | hold
      {s s' t : σ}
      {r suspended : Recorder}
      (hGet : slot.get s = some r)
      (hSuspend : r.suspend? = some suspended)
      (hInner : History slot (slot.set suspended s) s')
      (hRest : History slot (slot.update .release s') t) :
      History slot s t
  | suspend
      {s t : σ}
      {r suspended : Recorder}
      (hGet : slot.get s = some r)
      (hSuspend : r.suspend? = some suspended)
      (hRest : History slot (slot.set suspended s) t) :
      History slot s t

namespace Recorder

variable {r suspended : Recorder}

/- A suspended recorder is not suspended once more. -/
theorem suspend_of_suspended
    (h : r.suspended = true) : r.suspend? = none := by
  unfold suspend?
  rw [if_pos h]

/- A recorder is only marked as suspended. -/
theorem suspend_some
    (h : r.suspend? = some suspended) :
    suspended = { r with suspended := true } := by
  unfold suspend? at h
  split at h
  · cases h
  · exact (Option.some.inj h).symm

end Recorder

variable {slot : Slot σ}
variable {s t : σ}
variable {r : Recorder}

/- Nothing is recorded while a recorder is suspended. -/
theorem record_of_suspended
    {ε α : Type}
    (misuse : Recorder.Misuse → ε)
    (capture : α → ExceptT ε (StateM σ) Snapshot)
    (a : Action Unit α)
    (span : Span)
    (hGet : slot.get s = some r)
    (hSuspended : r.suspended = true) :
    record slot misuse capture a span s = (.ok none, s) := by
  unfold record
  rw [hGet, Option.bind_some,
    Recorder.suspend_of_suspended hSuspended]

/- A program does nothing to a suspended recorder. -/
theorem History.get_of_suspended
    (h : History slot s t)
    (hGet : slot.get s = some r)
    (hSuspended : r.suspended = true) : slot.get t = some r := by
  induction h with
  | done => exact hGet
  | other hSame _ ih => exact ih (hSame.trans hGet)
  | record misuse capture a span _ _ _ ih =>
    refine ih ?_
    rw [record_of_suspended misuse capture a span hGet hSuspended]
    exact hGet
  | hold hGet' hSuspend =>
    cases hGet.symm.trans hGet'
    rw [Recorder.suspend_of_suspended hSuspended] at hSuspend
    cases hSuspend
  | suspend hGet' hSuspend =>
    cases hGet.symm.trans hGet'
    rw [Recorder.suspend_of_suspended hSuspended] at hSuspend
    cases hSuspend

------------------------------------------------------------
-- What Programs Preserve
------------------------------------------------------------

/- A computation that leaves a suspended recorder alone. -/
def Discreet
    (slot : Slot σ)
    {ε β : Type}
    (x : ExceptT ε (StateM σ) β) : Prop :=
  ∀ s r, slot.get s = some r → r.suspended = true →
    slot.get (x s).2 = some r

/- Sequences leave it alone if their parts do. -/
theorem carries_discreet
    (slot : Slot σ)
    (ε : Type) :
    Carries (ExceptT ε (StateM σ)) (ExceptT ε (StateM σ))
      fun _ x _ => Discreet slot x where
  pure _ := fun _ _ hGet _ => hGet
  bind := by
    intro β γ x y f g hx hf s r hGet hSuspended
    have hFirst := hx s r hGet hSuspended
    change slot.get
      ((ExceptT.bindCont f (x s).1 : StateM σ _) (x s).2).2 = some r
    cases hResult : (x s).1 with
    | error e => exact hFirst
    | ok b => exact hf b (x s).2 r hFirst hSuspended

/- A recorder that is replaced is found in its place. -/
theorem Slot.Keeps.get_update
    (hSlot : slot.Keeps)
    (f : Recorder → Recorder)
    (hGet : slot.get s = some r) :
    slot.get (slot.update f s) = some (f r) := by
  unfold Slot.update
  rw [hGet]
  exact hSlot (f r) s

variable {P : Recorder → Prop}

/- Recording an action preserves what committing one does. -/
theorem record_preserves
    (hSlot : slot.Keeps)
    (hFlag : ∀ r b, P r → P { r with suspended := b })
    (hCommit : ∀ r a span r', P r → r.commit a span = .ok r' →
      P r')
    {ε α : Type}
    (misuse : Recorder.Misuse → ε)
    (capture : α → ExceptT ε (StateM σ) Snapshot)
    (a : Action Unit α)
    (span : Span)
    (hCapture : ∀ x, Discreet slot (capture x))
    (hGet : slot.get s = some r)
    (hr : P r) :
    ∃ r', slot.get (record slot misuse capture a span s).2
      = some r' ∧ P r' := by
  cases hSuspended : r.suspended with
  | true =>
    rw [record_of_suspended misuse capture a span hGet hSuspended]
    exact ⟨r, hGet, hr⟩
  | false =>
    have hSuspend : r.suspend?
        = some { r with suspended := true } := by
      unfold Recorder.suspend?
      rw [if_neg (by rw [hSuspended]; exact Bool.false_ne_true)]
    have hValues : Discreet slot (a.mapM capture) :=
      Carries.mapAction (g := capture) (carries_discreet slot ε) a
        hCapture
    have hHeld := hValues (slot.set { r with suspended := true } s)
      { r with suspended := true } (hSlot _ _) rfl
    unfold record
    rw [hGet, Option.bind_some, hSuspend]
    simp only [ExceptT.run]
    generalize a.mapM capture
      (slot.set { r with suspended := true } s) = result at hHeld
    rcases result with ⟨e | captured, s'⟩
    · exact ⟨_, hSlot.get_update _ hHeld, hFlag r false hr⟩
    · simp only at hHeld ⊢
      simp only [hHeld]
      cases hCommitted : { r with suspended := true }.commit
          captured span with
      | error m =>
        exact ⟨_, hSlot.get_update _ hHeld, hFlag r false hr⟩
      | ok r' =>
        have hr' := hCommit _ _ _ _ (hFlag r true hr) hCommitted
        exact ⟨_, hSlot _ _, hFlag r' false hr'⟩

/-
  Whatever a program does, a property of the recorder lasts if
  committing an action preserves it, and if it does not matter
  whether the recorder is suspended.
-/
theorem History.preserves
    (hSlot : slot.Keeps)
    (hFlag : ∀ r b, P r → P { r with suspended := b })
    (hCommit : ∀ r a span r', P r → r.commit a span = .ok r' →
      P r')
    (h : History slot s t)
    (hGet : slot.get s = some r)
    (hr : P r) : ∃ r', slot.get t = some r' ∧ P r' := by
  induction h generalizing r with
  | done => exact ⟨r, hGet, hr⟩
  | other hSame _ ih => exact ih (hSame.trans hGet) hr
  | record misuse capture a span hCapture _ _ ih =>
    have hDiscreet : ∀ x, Discreet slot (capture x) :=
      fun x s r hGet hSuspended =>
        (hCapture x s).get_of_suspended hGet hSuspended
    rcases record_preserves hSlot hFlag hCommit misuse capture a
      span hDiscreet hGet hr with ⟨r', hGet', hr'⟩
    exact ih hGet' hr'
  | hold hGet' hSuspend hInner _ _ ih =>
    cases hGet.symm.trans hGet'
    cases Recorder.suspend_some hSuspend
    have hHeld := hInner.get_of_suspended (hSlot _ _) rfl
    have hReleased := hFlag _ false hr
    exact ih (hSlot.get_update _ hHeld) hReleased
  | suspend hGet' hSuspend _ ih =>
    cases hGet.symm.trans hGet'
    cases Recorder.suspend_some hSuspend
    exact ih (hSlot _ _) (hFlag _ _ hr)

end Histories

------------------------------------------------------------
-- Sound Recorders
------------------------------------------------------------

/- A frame as it is replayed. -/
def OpenFrame.bracket (o : OpenFrame) : EventId × FrameKind :=
  (o.owner, o.kind)

/- A frame stands where the event is that opened it. -/
def OpenFrame.StandsIn
    (o : OpenFrame)
    (f : Forest) : Prop :=
  ∃ e, f.nodes[o.position]? = some e ∧ e.id = o.owner

namespace Recorder

/-
  What is known of a recorder and of the grove that its forest
  shows. Events are numbered and nested in the order in which
  they were recorded. The open frames stand on the right edge of
  the grove, and they are what replaying the events leaves open.
-/
structure Sound
    (r : Recorder)
    (g : Grove) : Prop where
  shows : r.forest.Shows g
  inOrder : g.positions = List.range r.forest.size
  linked : g.Linked none
  built : ∃ positions,
    Forest.Built r.forest.nodes.toList r.forest positions
  numbered : ∀ (i : Nat) (e : Event),
    r.forest.nodes[i]? = some e → e.id.number.toNat = i + 1
  next : r.nextId.number.toNat = r.forest.size + 1
  standing : ∀ o ∈ r.frames, o.StandsIn r.forest
  onEdge : ∀ o ∈ r.frames, o.position ∈ g.edge
  deeper : r.frames.Pairwise fun o o' => o'.position < o.position
  replayed : replay [] r.forest.nodes.toList
    = some (r.frames.map OpenFrame.bracket)
  started : ∃ time rest,
    r.forest.nodes.toList
      = ⟨.first, none, .initialization time⟩ :: rest ∧
    ∀ e ∈ rest, ∀ later, e.what ≠ .initialization later

variable {r r' : Recorder}
variable {g : Grove}
variable {a : Action Unit Snapshot}
variable {span : Span}

/- Actions close the frame that their events close. -/
theorem eventOf_ends
    (r : Recorder)
    (a : Action Unit Snapshot)
    (span : Span) : (r.eventOf a span).ends = a.ends := by
  cases a <;> rfl

/- A closing event names the innermost frame. -/
theorem eventOf_closes
    {kind : FrameKind}
    (hEnds : a.ends = some kind)
    {frame : OpenFrame}
    {rest : List OpenFrame}
    (hFrames : r.frames = frame :: rest) :
    (r.eventOf a span).closes = some frame.owner := by
  unfold eventOf
  rw [hEnds, hFrames]
  cases a with
  | exit => rfl
  | resume => rfl
  | _ => cases hEnds

/- The event of an action names the innermost frame around it. -/
theorem eventOf_parent
    (r : Recorder)
    (a : Action Unit Snapshot)
    (span : Span) :
    (r.eventOf a span).parent
      = (r.frames.map OpenFrame.bracket).head?.map Prod.fst := by
  rw [List.head?_map, Option.map_map]
  rfl

/- Recording an action does to the frames what replaying does. -/
theorem Commits.bracket
    (h : r.Commits a span r') :
    (r.eventOf a span).bracket (r.frames.map OpenFrame.bracket)
      = some (r'.frames.map OpenFrame.bracket) := by
  have hParent := r.eventOf_parent a span
  have hEnds := r.eventOf_ends a span
  have hOpens := r.eventOf_opens a span
  rw [h.frames]
  unfold framesAfter
  cases hKind : a.ends with
  | some kind =>
    rw [hKind] at hEnds
    rcases h.closes kind hKind with ⟨frame, rest, hFrames, rfl⟩
    have hCloses : (r.eventOf a span).closes = some frame.owner :=
      eventOf_closes hKind hFrames
    rw [hFrames] at hParent ⊢
    exact Event.bracket_of_ends hParent hEnds hCloses
  | none =>
    rw [hKind] at hEnds
    cases hNew : a.opens with
    | some kind =>
      rw [hNew] at hOpens
      exact Event.bracket_of_opens hParent hEnds hOpens
    | none =>
      rw [hNew] at hOpens
      exact Event.bracket_of_plain hParent hEnds hOpens

namespace Sound

/- The position below which the next event is pushed. -/
theorem head_mem
    {o : OpenFrame}
    {rest : List OpenFrame}
    (hr : r.Sound g)
    (hFrames : r.frames = o :: rest) : o.position ∈ g.edge :=
  hr.onEdge o (by simp [hFrames])

/-
  An event that is pushed comes last, and ends the right edge,
  where the frames around it remain.
-/
theorem push_edge
    (hr : r.Sound g)
    (e : Event) :
    let g' := g.push (r.frames.head?.map OpenFrame.position)
      r.forest.size e
    g'.positions = List.range (r.forest.size + 1) ∧
      r.forest.size ∈ g'.edge ∧
        ∀ o ∈ r.frames, o.position ∈ g'.edge := by
  have hRange : List.range (r.forest.size + 1)
      = g.positions ++ [r.forest.size] := by
    rw [hr.inOrder, List.range_succ]
  rw [hRange]
  cases hFrames : r.frames with
  | nil =>
    refine ⟨Grove.positions_snoc, ?_, fun o ho => by cases ho⟩
    simp only [List.head?_nil, Option.map_none, Grove.push,
      Grove.edge_snoc, List.mem_singleton]
  | cons o rest =>
    simp only [List.head?_cons, Option.map_some, Grove.push]
    rcases Grove.insert_edge (i := r.forest.size) (e := e)
      hr.shows.nodup (hr.head_mem hFrames) with
      ⟨hPositions, before, after, hOld, hNew⟩
    refine ⟨hPositions, ?_, ?_⟩
    · rw [hNew]
      simp
    · intro o' ho'
      have hMem := hr.onEdge o' (by rw [hFrames]; exact ho')
      have hEdge : g.edge.Pairwise (· < ·) := by
        refine List.Pairwise.sublist g.edge_sublist ?_
        rw [hr.inOrder]
        exact List.pairwise_lt_range
      rw [hOld] at hMem hEdge
      rw [hNew]
      have hAbove : o'.position ≤ o.position := by
        have hDeeper := hr.deeper
        rw [hFrames] at hDeeper
        rcases List.mem_cons.mp ho' with rfl | ho'
        · exact Nat.le_refl _
        · exact Nat.le_of_lt
            ((List.pairwise_cons.mp hDeeper).1 o' ho')
      rcases List.mem_append.mp hMem with hBefore | hAfter
      · exact List.mem_append_left _ hBefore
      · rcases List.mem_cons.mp hAfter with hHere | hAfter
        · simp [hHere]
        · have hLess := (List.pairwise_cons.mp
            (List.pairwise_append.mp hEdge).2.1).1 _ hAfter
          omega

/- An open frame stands before the next event. -/
theorem position_lt
    (hr : r.Sound g)
    {o : OpenFrame}
    (ho : o ∈ r.frames) : o.position < r.forest.size := by
  rcases hr.standing o ho with ⟨e, hNode, _⟩
  exact (Array.getElem?_eq_some_iff.mp hNode).1

/- The next event is pushed below an event of the forest. -/
theorem head_lt
    (hr : r.Sound g)
    (i : Nat)
    (hi : r.frames.head?.map OpenFrame.position = some i) :
    i < r.forest.size := by
  rcases Option.map_eq_some_iff.mp hi with ⟨o, ho, rfl⟩
  exact hr.position_lt (List.mem_of_head? ho)

/- The next event is linked to the one that it is pushed below. -/
theorem push_linked
    (hr : r.Sound g)
    (a : Action Unit Snapshot)
    (span : Span) :
    (g.push (r.frames.head?.map OpenFrame.position) r.forest.size
      (r.eventOf a span)).Linked none := by
  cases hFrames : r.frames with
  | nil =>
    refine hr.linked.snoc ?_
    rw [eventOf_parent, hFrames]
    rfl
  | cons o rest =>
    rcases hr.standing o (by simp [hFrames]) with
      ⟨d, hNode, hOwner⟩
    refine hr.linked.insert hr.shows.shown hNode ?_
    rw [eventOf_parent, hFrames, hOwner]
    rfl

/- The next event can be pushed after the others. -/
theorem push_built
    (hr : r.Sound g)
    (a : Action Unit Snapshot)
    (span : Span) :
    ∃ positions, Forest.Built
      (r.forest.nodes.toList ++ [r.eventOf a span])
      (r.forest.push (r.frames.head?.map OpenFrame.position)
        (r.eventOf a span)) positions := by
  rcases hr.built with ⟨positions, hBuilt⟩
  refine ⟨_, hBuilt.snoc ?_ ?_⟩
  · rw [eventOf_parent]
    cases hFrames : r.frames with
    | nil => rfl
    | cons o rest =>
      have hFound : positions[o.owner]? = some o.position :=
        hBuilt.indexed.mpr (hr.standing o (by simp [hFrames]))
      exact congrArg some hFound
  · intro hMem
    have hFound := Std.HashMap.mem_iff_isSome_getElem?.mp hMem
    rcases Option.isSome_iff_exists.mp hFound with ⟨i, hi⟩
    rcases hBuilt.indexed.mp hi with ⟨d, hNode, hSame⟩
    have hNumber := hr.numbered i d hNode
    have hBound := (Array.getElem?_eq_some_iff.mp hNode).1
    have hId : d.id = r.nextId := hSame
    rw [hId, hr.next] at hNumber
    unfold Forest.size at hNumber
    omega

end Sound

/- The frames after an action are old ones, or the new one. -/
theorem mem_framesAfter
    {o : OpenFrame}
    (ho : o ∈ r.framesAfter a) :
    o ∈ r.frames ∨
      o.owner = r.nextId ∧ o.position = r.forest.size := by
  unfold framesAfter at ho
  cases hEnds : a.ends with
  | some kind =>
    rw [hEnds] at ho
    exact .inl (List.mem_of_mem_tail ho)
  | none =>
    rw [hEnds] at ho
    cases hOpens : a.opens with
    | none =>
      rw [hOpens] at ho
      exact .inl ho
    | some kind =>
      rw [hOpens] at ho
      rcases List.mem_cons.mp ho with rfl | ho
      · exact .inr ⟨rfl, rfl⟩
      · exact .inl ho

namespace Commits

/- The event after the last one has a greater number. -/
theorem next_toNat
    (h : r.Commits a span r') :
    r'.nextId.number.toNat = r.nextId.number.toNat + 1 := by
  have hLess := number_lt_succ h.room (UInt64.le_refl _)
  rw [h.nextId]
  rw [UInt64.lt_iff_toNat_lt] at hLess
  rw [UInt64.toNat_add] at hLess ⊢
  have hOne : (1 : UInt64).toNat = 1 := by decide
  rw [hOne] at hLess ⊢
  omega

/- Inner frames stand behind the frames around them. -/
theorem deeper
    (h : r.Commits a span r')
    (hr : r.Sound g) :
    r'.frames.Pairwise fun o o' => o'.position < o.position := by
  rw [h.frames]
  unfold framesAfter
  cases a.ends with
  | some kind => exact hr.deeper.tail
  | none =>
    cases a.opens with
    | none => exact hr.deeper
    | some kind =>
      refine List.pairwise_cons.mpr ⟨fun o ho => ?_, hr.deeper⟩
      exact hr.position_lt ho

/- A sound recorder is sound after recording an action. -/
theorem sound
    (h : r.Commits a span r')
    (hr : r.Sound g) :
    r'.Sound (g.push (r.frames.head?.map OpenFrame.position)
      r.forest.size (r.eventOf a span)) := by
  rcases hr.push_edge (r.eventOf a span) with
    ⟨hPositions, hLast, hEdge⟩
  have hNodes : r'.forest.nodes
      = r.forest.nodes.push (r.eventOf a span) := by
    rw [h.forest, Forest.push_nodes]
  have hSize : r'.forest.size = r.forest.size + 1 := by
    rw [h.forest, Forest.size_push]
  have hNew : r'.forest.nodes[r.forest.size]?
      = some (r.eventOf a span) := by
    rw [h.forest]
    exact Forest.getElem?_push_size
  refine
    { shows := ?_
      inOrder := hPositions.trans (by rw [hSize])
      linked := hr.push_linked a span
      built := ?_
      numbered := ?_
      next := ?_
      standing := ?_
      onEdge := ?_
      deeper := h.deeper hr
      replayed := ?_
      started := ?_ }
  · rw [h.forest]
    exact hr.shows.push hr.head_lt _
  · rw [hNodes, h.forest, Array.toList_push]
    exact hr.push_built a span
  · intro i e hNode
    rw [hNodes, Array.getElem?_push] at hNode
    split at hNode
    · rename_i hi
      cases hNode
      rw [hi]
      exact hr.next
    · exact hr.numbered i e hNode
  · rw [h.next_toNat, hSize, hr.next]
  · intro o ho
    rw [h.frames] at ho
    rcases mem_framesAfter ho with ho | ⟨hOwner, hPosition⟩
    · rcases hr.standing o ho with ⟨e, hNode, hId⟩
      rw [h.forest]
      exact ⟨e, Forest.getElem?_push hNode, hId⟩
    · refine ⟨r.eventOf a span, ?_, hOwner.symm⟩
      rw [hPosition]
      exact hNew
  · intro o ho
    rw [h.frames] at ho
    rcases mem_framesAfter ho with ho | ⟨_, hPosition⟩
    · exact hEdge o ho
    · rw [hPosition]
      exact hLast
  · rw [hNodes, Array.toList_push, replay_append, hr.replayed,
      Option.bind_some]
    simp only [replay, h.bracket]
  · rcases hr.started with ⟨time, rest, hFirst, hRest⟩
    refine ⟨time, rest ++ [r.eventOf a span], ?_, ?_⟩
    · rw [hNodes, Array.toList_push, hFirst, List.cons_append]
    · intro e he
      rcases List.mem_append.mp he with he | he
      · exact hRest e he
      · cases List.mem_singleton.mp he
        intro later hWhat
        cases hWhat

end Commits

/- A new recorder is sound. -/
theorem sound_create
    (echo : Bool)
    (time : Timestamp) :
    (create echo time).Sound
      (.event 0 ⟨.first, none, .initialization time⟩ .empty
        .empty) where
  shows := ⟨rfl, rfl, ⟨rfl, rfl, trivial, trivial⟩, .refl _⟩
  inOrder := rfl
  linked := ⟨rfl, trivial, trivial⟩
  built := by
    have hBuilt : ∀ e : Event, e.parent = none →
        Forest.Built ([] ++ [e]) (Forest.empty.push none e)
          ((∅ : Forest.Positions).insert e.id 0) := by
      intro e hRoot
      refine .snoc .nil ?_ Std.HashMap.not_mem_empty
      rw [hRoot]
      rfl
    exact ⟨_, hBuilt ⟨.first, none, .initialization time⟩ rfl⟩
  numbered := by
    intro i e hNode
    cases i with
    | zero =>
      cases hNode
      rfl
    | succ i => cases hNode
  next := rfl
  standing := fun o ho => by cases ho
  onEdge := fun o ho => by cases ho
  deeper := .nil
  replayed := rfl
  started := ⟨time, [], rfl, fun e he => by cases he⟩

/- Whether a sound recorder is suspended does not matter. -/
theorem Sound.suspension
    (hr : r.Sound g)
    (b : Bool) : { r with suspended := b }.Sound g :=
  ⟨hr.shows, hr.inOrder, hr.linked, hr.built, hr.numbered, hr.next,
    hr.standing, hr.onEdge, hr.deeper, hr.replayed, hr.started⟩

end Recorder

/- After any history of a new recorder, the recorder is sound. -/
theorem History.sound
    {σ : Type}
    {slot : Slot σ}
    {s t : σ}
    {echo : Bool}
    {time : Timestamp}
    (hSlot : slot.Keeps)
    (h : History slot s t)
    (hGet : slot.get s = some (.create echo time)) :
    ∃ r, slot.get t = some r ∧ ∃ g, r.Sound g := by
  refine h.preserves hSlot ?_ ?_ hGet ⟨_, Recorder.sound_create _ _⟩
  · rintro r b ⟨g, hr⟩
    exact ⟨g, hr.suspension b⟩
  · rintro r a span r' ⟨g, hr⟩ hCommit
    exact ⟨_, (Recorder.commits_of_ok hCommit).sound hr⟩

------------------------------------------------------------
-- What Sound Recorders Have Recorded
------------------------------------------------------------

namespace Recorder.Sound

variable {r : Recorder}
variable {g : Grove}

/- The order of recording is depth first. -/
theorem events_eq
    (hr : r.Sound g) : g.events = r.forest.nodes.toList := by
  rw [hr.shows.shown.events_eq, hr.inOrder]
  exact r.forest.filterMap_nodes

/- There are as many events as the recorder has counted. -/
theorem eventCount_eq
    (hr : r.Sound g) : r.eventCount = r.forest.size := by
  have hOne : EventId.first.number.toNat = 1 := by decide
  unfold eventCount
  rw [hr.next, hOne, Nat.add_sub_cancel]

/- Events have the numbers from 1 on. -/
theorem numbers_eq
    (hr : r.Sound g) :
    (r.forest.nodes.toList.map fun e => e.id.number.toNat)
      = List.range' 1 r.eventCount := by
  rw [hr.eventCount_eq]
  refine List.ext_getElem (by simp [Forest.size]) ?_
  intro i hi hi'
  have hBound : i < r.forest.nodes.size := by
    simpa using hi
  have hNumber := hr.numbered i r.forest.nodes[i]
    (Array.getElem?_eq_getElem hBound)
  rw [List.getElem_map, Array.getElem_toList, hNumber,
    List.getElem_range']
  omega

/- Numbers increase. -/
theorem increasing
    (hr : r.Sound g) :
    r.forest.nodes.toList.Pairwise fun a b =>
      a.id.number < b.id.number := by
  have hOrder : (List.range' 1 r.eventCount).Pairwise (· < ·) :=
    List.pairwise_lt_range'
  rw [← hr.numbers_eq, List.pairwise_map] at hOrder
  exact hOrder.imp UInt64.lt_iff_toNat_lt.mpr

/- The open frames are the broken properties. -/
theorem validate_eq
    (hr : r.Sound g) :
    r.forest.validate
      = (r.frames.map OpenFrame.bracket).reverse.map
          unclosedFrame := by
  have hIncreasing := hr.increasing
  have hReplayed := hr.replayed
  rw [← hr.events_eq] at hIncreasing hReplayed
  have hNodup : (g.events.map Event.id).Nodup := by
    refine List.pairwise_map.mpr (hIncreasing.imp ?_)
    intro a b hLess hSame
    rw [hSame] at hLess
    exact UInt64.lt_irrefl _ hLess
  rw [hr.shows.validate_eq,
    Forest.orderViolations_eq_nil_iff.mpr hIncreasing,
    List.nil_append]
  exact Grove.violations_of_replay hr.linked hNodup hReplayed

/- Positions in their order are in the order of the numbers. -/
theorem sort_eq
    (hr : r.Sound g)
    {is : List Nat}
    (hSub : is.Sublist g.positions) :
    (is.mergeSort fun i j =>
        decide ((r.forest.idAt i).number
          ≤ (r.forest.idAt j).number))
      = is := by
  have hNumber : ∀ i ∈ g.positions,
      (r.forest.idAt i).number.toNat = i + 1 := by
    intro i hi
    have hBound := hr.shows.mem_positions.mp hi
    have hNode : r.forest.nodes[i]? = some r.forest.nodes[i] :=
      Array.getElem?_eq_getElem hBound
    unfold Forest.idAt
    rw [hNode]
    exact hr.numbered i _ hNode
  have hOrder : g.positions.Pairwise (· < ·) := by
    rw [hr.inOrder]
    exact List.pairwise_lt_range
  refine List.mergeSort_of_pairwise (List.Pairwise.sublist hSub ?_)
  refine List.Pairwise.imp_of_mem ?_ hOrder
  intro i j hi hj hLess
  rw [decide_eq_true_eq, UInt64.le_iff_toNat_le, hNumber i hi,
    hNumber j hj]
  omega

/- Siblings stand in the order of their numbers. -/
theorem ordered_eq
    (hr : r.Sound g) : r.forest.ordered = r.forest := by
  have hSort : ∀ is : Array Nat, is.toList.Sublist g.positions →
      r.forest.sortById is = is := by
    intro is hSub
    unfold Forest.sortById
    rw [hr.sort_eq hSub]
  have hRoots := hSort r.forest.roots (by
    rw [hr.shows.roots]
    exact g.tops_sublist)
  have hChildren : r.forest.children.map r.forest.sortById
      = r.forest.children := by
    refine Array.ext (by simp) ?_
    intro i hi hi'
    rw [Array.getElem_map]
    refine hSort _ ?_
    have hPosition : i ∈ g.positions := by
      rw [hr.shows.mem_positions]
      unfold Forest.size
      rwa [← hr.shows.sized]
    have hSub := hr.shows.shown.childrenAt_sublist hPosition
    unfold Forest.childrenAt at hSub
    rw [Array.getElem?_eq_getElem hi'] at hSub
    exact hSub
  unfold Forest.ordered
  rw [hChildren, hRoots]

/- What was recorded can be read back. -/
theorem ofEvents_eq
    (hr : r.Sound g) :
    Forest.ofEvents? r.forest.eventsInOrder = .ok r.forest := by
  rcases hr.built with ⟨positions, hBuilt⟩
  have hAll := hBuilt.pushAll_eq []
  rw [List.append_nil] at hAll
  rw [hr.shows.eventsInOrder_eq, hr.events_eq, Forest.ofEvents_eq,
    hAll]
  exact congrArg Except.ok hr.ordered_eq

end Recorder.Sound

------------------------------------------------------------
-- What Histories Leave Behind
------------------------------------------------------------

/- A state that is a recorder, or none. -/
def Slot.bare : Slot (Option Recorder) where
  get s := s
  set r _ := some r

/- A new recorder after recording a call. -/
def afterCall : Option Recorder :=
  (record .bare id (fun x : Snapshot => pure x)
    (.call ⟨"A", "m", "()"⟩ none []) .unknown
    (some (.create false .epoch))).2

/- Recording a call is a history. -/
theorem history_afterCall :
    History .bare (some (.create false .epoch)) afterCall :=
  .record id (fun x : Snapshot => pure x) _ _ (fun _ s => .done s)
    (.done _)

section Flush

variable {σ : Type}
variable {slot : Slot σ}
variable {s t : σ}
variable {echo : Bool}
variable {time : Timestamp}

/-
  Whatever was done with a new recorder, the broken properties
  of its trace are the frames that are open, outermost first. So
  none is broken if and only if no frame is open.
-/
theorem History.validate_eq_open_frames
    (hSlot : slot.Keeps)
    (h : History slot s t)
    (hGet : slot.get s = some (.create echo time)) :
    ∃ r, slot.get t = some r ∧
      r.forest.validate
        = r.frames.reverse.map
            (fun o => .unclosed o.owner o.kind) ∧
      (r.forest.validate = [] ↔ r.depth = 0) := by
  rcases h.sound hSlot hGet with ⟨r, hr, g, hSound⟩
  have hValidate : r.forest.validate = r.frames.reverse.map
      fun o => .unclosed o.owner o.kind := by
    rw [hSound.validate_eq, ← List.map_reverse, List.map_map]
    rfl
  refine ⟨r, hr, hValidate, ?_⟩
  rw [hValidate, List.map_eq_nil_iff, List.reverse_eq_nil_iff]
  exact List.length_eq_zero_iff.symm

/- A call that is recorded leaves its frame open. -/
theorem History.validate_eq_open_frames_call :
    ∃ r, Slot.bare.get afterCall = some r ∧
      r.forest.validate
        = r.frames.reverse.map
            (fun o => .unclosed o.owner o.kind) ∧
      (r.forest.validate = [] ↔ r.depth = 0) :=
  History.validate_eq_open_frames (fun _ _ => rfl)
    history_afterCall rfl

end Flush

end ExecTrace
