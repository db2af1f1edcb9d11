import ExecTrace.Proofs.Histories

/-
  Recording is all or nothing. Whatever is attempted while the
  values of an action are captured is not recorded and changes
  nothing. An action that cannot be recorded, since a value
  cannot be captured, since the frame that it closes is not the
  innermost one, or since no number is left, leaves the recorder
  as it was. So whatever is asked of the recorder later has the
  same answers as if the action had never been attempted.

  Main declarations:
    * `Recorder.Refuses` and `Recorder.refuses_of_commit`
    * `record_of_free` and `record_error`
    * `Request`, `serve` and `serveAll`
    * `Heeds` and `heeds_serveAll`
    * `record_all_or_nothing`
-/

namespace ExecTrace

------------------------------------------------------------
-- Refused Actions
------------------------------------------------------------

namespace Recorder

variable {r : Recorder}

/-
  Why a recorder refuses a captured action: the frame that it
  closes is not the innermost one, or no number is left.
-/
inductive Refuses
    (r : Recorder)
    (ends : Option FrameKind) : Misuse → Prop where
  | wrongFrame
      {expected : FrameKind} {frame : OpenFrame}
      {rest : List OpenFrame}
      (hEnds : ends = some expected)
      (hFrames : r.frames = frame :: rest)
      (hKind : frame.kind ≠ expected) :
      Refuses r ends (.wrongFrame expected frame)
  | noFrame
      {expected : FrameKind}
      (hEnds : ends = some expected)
      (hFrames : r.frames = []) :
      Refuses r ends (.noFrame expected)
  | exhausted
      (hNumber : r.nextId.number = 0xFFFFFFFFFFFFFFFF) :
      Refuses r ends .exhausted

/- A frame that cannot be closed is not the innermost one. -/
theorem refuses_of_closable
    {ends : Option FrameKind}
    {expected : FrameKind}
    {m : Misuse}
    (hEnds : ends = some expected)
    (h : r.closable expected = .error m) : r.Refuses ends m := by
  unfold closable at h
  cases hFrames : r.frames with
  | nil =>
    rw [hFrames] at h
    cases h
    exact .noFrame hEnds hFrames
  | cons frame rest =>
    rw [hFrames] at h
    by_cases hKind : frame.kind = expected
    · simp [hKind] at h
    · simp only [hKind, if_false, Except.error.injEq] at h
      rw [← h]
      exact .wrongFrame hEnds hFrames hKind

/- An event is appended unless no number is left for it. -/
theorem refuses_of_emit
    {ends : Option FrameKind}
    {what : Occurrence}
    {m : Misuse}
    (h : r.emit? what = .error m) : r.Refuses ends m := by
  unfold emit? at h
  split at h
  · rename_i hNumber
    cases h
    exact .exhausted hNumber
  · cases h

/- An action that cannot be committed is refused. -/
theorem refuses_of_commit
    {a : Action Unit Snapshot}
    {span : Span}
    {m : Misuse}
    (h : r.commit a span = .error m) : r.Refuses a.ends m := by
  unfold commit at h
  cases hEnds : a.ends with
  | none =>
    simp only [hEnds] at h
    split at h
    · rename_i m' hEmit
      cases h
      exact refuses_of_emit hEmit
    · split at h <;> cases h
  | some expected =>
    simp only [hEnds] at h
    split at h
    · rename_i m' hClosable
      cases h
      exact refuses_of_closable rfl hClosable
    · split at h
      · rename_i m' hEmit
        cases h
        exact refuses_of_emit hEmit
      · cases h

/- A recorder that is suspended and released is as it was. -/
theorem release_suspended
    (hFree : r.suspended = false) :
    { r with suspended := true }.release = r := by
  cases r
  cases hFree
  rfl

end Recorder

------------------------------------------------------------
-- Failed Attempts
------------------------------------------------------------

section Failures

variable {σ ε α : Type}
variable {slot : Slot σ}
variable {s s' : σ}
variable {r : Recorder}
variable {misuse : Recorder.Misuse → ε}
variable {capture : α → ExceptT ε (StateM σ) Snapshot}
variable {a : Action Unit α}
variable {span : Span}
variable {e : ε}

/-
  The values of an action are captured while the recorder is
  suspended. Until all of them are captured nothing happens to
  the recorder, and only then the action is committed.
-/
theorem record_of_free
    (hSlot : slot.Keeps)
    (misuse : Recorder.Misuse → ε)
    (hCapture : ∀ x, Discreet slot (capture x))
    (a : Action Unit α)
    (span : Span)
    (hGet : slot.get s = some r)
    (hFree : r.suspended = false) :
    ∃ captured t,
      slot.get t = some { r with suspended := true } ∧
      a.mapM capture (slot.set { r with suspended := true } s)
        = (captured, t) ∧
      record slot misuse capture a span s =
        match captured with
        | .error e => (.error e, slot.update .release t)
        | .ok b =>
          match { r with suspended := true }.commit b span with
          | .error m =>
            (.error (misuse m), slot.update .release t)
          | .ok r' =>
            (.ok (some r.nextId), slot.set r'.release t) := by
  have hValues : Discreet slot (a.mapM capture) :=
    Carries.mapAction (g := capture) (carries_discreet slot ε) a
      hCapture
  have hHeld := hValues (slot.set { r with suspended := true } s)
    { r with suspended := true } (hSlot _ _) rfl
  have hSuspend : r.suspend?
      = some { r with suspended := true } := by
    unfold Recorder.suspend?
    rw [if_neg (by rw [hFree]; exact Bool.false_ne_true)]
  unfold record
  rw [hGet, Option.bind_some, hSuspend]
  simp only [ExceptT.run]
  generalize a.mapM capture
    (slot.set { r with suspended := true } s) = result at hHeld
  rcases result with ⟨captured, t⟩
  refine ⟨captured, t, hHeld, rfl, ?_⟩
  cases captured with
  | error e => rfl
  | ok b =>
    simp only at hHeld ⊢
    rewrite [hHeld]
    rfl

/-
  An action that fails was attempted while the recorder was not
  suspended, and leaves the recorder as it was. Either a value
  could not be captured, or the recorder refused the action.
-/
theorem record_error
    (hSlot : slot.Keeps)
    (hCapture : ∀ x, Discreet slot (capture x))
    (hGet : slot.get s = some r)
    (h : record slot misuse capture a span s = (.error e, s')) :
    r.suspended = false ∧ slot.get s' = some r ∧
      ∃ captured t,
        a.mapM capture (slot.set { r with suspended := true } s)
          = (captured, t) ∧
        (captured = .error e ∨
          ∃ b m, captured = .ok b ∧ r.Refuses b.ends m ∧
            e = misuse m) := by
  cases hFree : r.suspended with
  | true =>
    rw [record_of_suspended misuse capture a span hGet hFree] at h
    cases h
  | false =>
    rcases record_of_free hSlot misuse hCapture a span hGet hFree
      with ⟨captured, t, hHeld, hMap, hRecord⟩
    have hReleased : slot.get (slot.update .release t) = some r := by
      rw [hSlot.get_update _ hHeld, Recorder.release_suspended hFree]
    rw [hRecord] at h
    cases captured with
    | error e' =>
      cases h
      exact ⟨rfl, hReleased, _, t, hMap, .inl rfl⟩
    | ok b =>
      simp only at h
      split at h
      · rename_i m hCommit
        cases h
        refine ⟨rfl, hReleased, _, t, hMap, .inr ⟨b, m, rfl, ?_⟩⟩
        refine ⟨?_, rfl⟩
        cases Recorder.refuses_of_commit hCommit with
        | wrongFrame hEnds hFrames hKind =>
          exact .wrongFrame hEnds hFrames hKind
        | noFrame hEnds hFrames => exact .noFrame hEnds hFrames
        | exhausted hNumber => exact .exhausted hNumber
      · cases h

end Failures

------------------------------------------------------------
-- Requests
------------------------------------------------------------

/-
  What can be asked of a recorder: to record an action, to be
  suspended, to be released, or to hand out its forest.
-/
inductive Request (α : Type) where
  | record (a : Action Unit α) (span : Span)
  | suspend
  | release
  | flush

/-
  The answer to a request. A failure to record an action is an
  answer too, since a program may go on after it.
-/
inductive Answer (ε : Type) where
  | recorded (result : Except ε (Option EventId))
  | suspended (granted : Bool)
  | released
  | flushed (forest : Option Forest)

section Requests

variable {σ ε α β : Type}

/- Answer a request. -/
def serve
    (slot : Slot σ)
    (misuse : Recorder.Misuse → ε)
    (capture : α → ExceptT ε (StateM σ) Snapshot) :
    Request α → σ → Answer ε × σ
  | .record a span, s =>
    let (result, s) := record slot misuse capture a span s
    (.recorded result, s)
  | .suspend, s =>
    match (slot.get s).bind Recorder.suspend? with
    | none => (.suspended false, s)
    | some r => (.suspended true, slot.set r s)
  | .release, s => (.released, slot.update .release s)
  | .flush, s => (.flushed ((slot.get s).map Recorder.forest), s)

/- Answer some requests one after the other. -/
def serveAll
    (slot : Slot σ)
    (misuse : Recorder.Misuse → ε)
    (capture : α → ExceptT ε (StateM σ) Snapshot) :
    List (Request α) → σ → List (Answer ε) × σ
  | [], s => ([], s)
  | request :: rest, s =>
    let (answer, s) := serve slot misuse capture request s
    let (answers, s) := serveAll slot misuse capture rest s
    (answer :: answers, s)

variable {slot : Slot σ}

/-
  A computation whose result, and what it does to the recorder,
  is determined by the recorder.
-/
def Heeds
    (slot : Slot σ)
    (x : σ → β × σ) : Prop :=
  ∀ s t, slot.get s = slot.get t →
    (x s).1 = (x t).1 ∧ slot.get (x s).2 = slot.get (x t).2

/- Sequences are determined if their parts are. -/
theorem carries_heeds
    (slot : Slot σ)
    (ε : Type) :
    Carries (ExceptT ε (StateM σ)) (ExceptT ε (StateM σ))
      fun _ x _ => Heeds slot x where
  pure _ := fun _ _ hGet => ⟨rfl, hGet⟩
  bind := by
    intro β γ x y f g hx hf s t hGet
    rcases hx s t hGet with ⟨hResult, hNext⟩
    change
      (ExceptT.bindCont f (x s).1 (x s).2 : _ × σ).1
        = (ExceptT.bindCont f (x t).1 (x t).2 : _ × σ).1 ∧
      slot.get (ExceptT.bindCont f (x s).1 (x s).2 : _ × σ).2
        = slot.get (ExceptT.bindCont f (x t).1 (x t).2 : _ × σ).2
    rw [← hResult]
    cases (x s).1 with
    | error e => exact ⟨rfl, hNext⟩
    | ok b => exact hf b _ _ hNext

/- What is attached after a change. -/
theorem Slot.Keeps.get_update_eq
    (hSlot : slot.Keeps)
    (f : Recorder → Recorder)
    (s : σ) : slot.get (slot.update f s) = (slot.get s).map f := by
  unfold Slot.update
  cases hGet : slot.get s with
  | none => exact hGet
  | some r => exact hSlot (f r) s

variable {capture : α → ExceptT ε (StateM σ) Snapshot}

/-
  What recording an action leads to is determined by the recorder
  if this is so for the capture of every value.
-/
theorem heeds_record
    (hSlot : slot.Keeps)
    (misuse : Recorder.Misuse → ε)
    (hCapture : ∀ x, Heeds slot (capture x))
    (a : Action Unit α)
    (span : Span) :
    Heeds slot (record slot misuse capture a span) := by
  intro s t hGet
  have hValues := Carries.mapAction (g := capture)
    (carries_heeds slot ε) a hCapture
  unfold record
  rw [← hGet]
  cases (slot.get s).bind Recorder.suspend? with
  | none => exact ⟨rfl, hGet⟩
  | some suspended =>
    have hHeld := hValues (slot.set suspended s)
      (slot.set suspended t) (by rw [hSlot, hSlot])
    simp only [ExceptT.run]
    generalize a.mapM capture (slot.set suspended s) = x at hHeld
    generalize a.mapM capture (slot.set suspended t) = y at hHeld
    rcases x with ⟨captured, s'⟩
    rcases y with ⟨captured', t'⟩
    rcases hHeld with ⟨hSame, hNext⟩
    simp only at hSame hNext
    subst hSame
    have hReleased : slot.get (slot.update .release s')
        = slot.get (slot.update .release t') := by
      rw [hSlot.get_update_eq, hSlot.get_update_eq, hNext]
    cases captured with
    | error e => exact ⟨rfl, hReleased⟩
    | ok b =>
      simp only at hNext ⊢
      simp only [← hNext]
      cases slot.get s' with
      | none => exact ⟨rfl, hNext⟩
      | some r =>
        simp only
        cases r.commit b span with
        | error m => exact ⟨rfl, hReleased⟩
        | ok r' => exact ⟨rfl, by rw [hSlot, hSlot]⟩

/- An answer is determined by the recorder. -/
theorem heeds_serve
    (hSlot : slot.Keeps)
    (misuse : Recorder.Misuse → ε)
    (hCapture : ∀ x, Heeds slot (capture x))
    (request : Request α) :
    Heeds slot (serve slot misuse capture request) := by
  intro s t hGet
  cases request with
  | record a span =>
    rcases heeds_record hSlot misuse hCapture a span s t hGet with
      ⟨hResult, hNext⟩
    exact ⟨congrArg Answer.recorded hResult, hNext⟩
  | suspend =>
    simp only [serve]
    rw [← hGet]
    cases (slot.get s).bind Recorder.suspend? with
    | none => exact ⟨rfl, hGet⟩
    | some r => exact ⟨rfl, by rw [hSlot, hSlot]⟩
  | release =>
    refine ⟨rfl, ?_⟩
    simp only [serve]
    rw [hSlot.get_update_eq, hSlot.get_update_eq, hGet]
  | flush =>
    refine ⟨?_, hGet⟩
    simp only [serve]
    rw [hGet]

/- The answers to some requests are determined by the recorder. -/
theorem heeds_serveAll
    (hSlot : slot.Keeps)
    (misuse : Recorder.Misuse → ε)
    (hCapture : ∀ x, Heeds slot (capture x))
    (requests : List (Request α)) :
    Heeds slot (serveAll slot misuse capture requests) := by
  induction requests with
  | nil => exact fun s t hGet => ⟨rfl, hGet⟩
  | cons request rest ih =>
    intro s t hGet
    rcases heeds_serve hSlot misuse hCapture request s t hGet with
      ⟨hAnswer, hNext⟩
    rcases ih _ _ hNext with ⟨hAnswers, hLast⟩
    exact ⟨congrArg₂ List.cons hAnswer hAnswers, hLast⟩

end Requests

------------------------------------------------------------
-- All or Nothing
------------------------------------------------------------

section Attempts

variable {σ ε α β : Type}
variable {slot : Slot σ}
variable {s : σ}
variable {r : Recorder}
variable {misuse : Recorder.Misuse → ε}
variable {capture : α → ExceptT ε (StateM σ) Snapshot}
variable {later : β → ExceptT ε (StateM σ) Snapshot}

/-
  An action is recorded whose values are captured by programs
  that may do anything with the same recorder and may fail. At
  every moment of a capture the recorder is as it was, but
  suspended, and an action that is attempted then has no result
  and changes nothing; so does the action itself if it is
  attempted while the recorder is suspended. If recording fails,
  then the recorder is as before, not suspended, and all further
  requests are answered as if there had been no attempt.
-/
theorem record_all_or_nothing
    (hSlot : slot.Keeps)
    (hCapture : ∀ x s, History slot s (capture x s).2)
    (hLater : ∀ x, Heeds slot (later x))
    (hGet : slot.get s = some r)
    (a : Action Unit α)
    (span : Span) :
    (∀ t,
      History slot (slot.set { r with suspended := true } s) t →
        slot.get t = some { r with suspended := true } ∧
          ∀ (ε' α' : Type) (misuse' : Recorder.Misuse → ε')
            (nested : α' → ExceptT ε' (StateM σ) Snapshot) b span',
            record slot misuse' nested b span' t
              = (.ok none, t)) ∧
    (r.suspended = true →
      record slot misuse capture a span s = (.ok none, s)) ∧
    ∀ e s', record slot misuse capture a span s = (.error e, s') →
      r.suspended = false ∧ slot.get s' = some r ∧
        ∀ requests,
          (serveAll slot misuse later requests s').1
            = (serveAll slot misuse later requests s).1 ∧
          slot.get (serveAll slot misuse later requests s').2
            = slot.get (serveAll slot misuse later requests s).2 := by
  have hDiscreet : ∀ x, Discreet slot (capture x) :=
    fun x s r hGet hSuspended =>
      (hCapture x s).get_of_suspended hGet hSuspended
  refine ⟨?_, ?_, ?_⟩
  · intro t h
    have hHeld := h.get_of_suspended (hSlot _ _) rfl
    refine ⟨hHeld, fun ε' α' misuse' nested b span' => ?_⟩
    exact record_of_suspended misuse' nested b span' hHeld rfl
  · exact record_of_suspended misuse capture a span hGet
  · intro e s' hFailed
    rcases record_error hSlot hDiscreet hGet hFailed with
      ⟨hFree, hRestored, _⟩
    refine ⟨hFree, hRestored, fun requests => ?_⟩
    exact heeds_serveAll hSlot misuse hLater requests s' s
      (hRestored.trans hGet.symm)

end Attempts

/- A value whose capture records a call and then fails. -/
def panicking :
    Snapshot →
      ExceptT Recorder.Misuse (StateM (Option Recorder)) Snapshot :=
  fun _ s =>
    (.error .exhausted,
      (record .bare id (fun x : Snapshot => pure x)
        (.call ⟨"A", "m", "()"⟩ none []) .unknown s).2)

/- A report of a thrown value. -/
def thrownNull : Action Unit Snapshot :=
  .statement (.throw .null)

/- The attempt to record it when it cannot be captured. -/
def failedAttempt :
    Except Recorder.Misuse (Option EventId) × Option Recorder :=
  record .bare id panicking thrownNull .unknown
    (some (.create false .epoch))

/- The attempt fails, and is as if it had not been made. -/
theorem record_all_or_nothing_panicking :
    failedAttempt.1 = .error .exhausted ∧
      failedAttempt.2 = some (.create false .epoch) ∧
      ∀ requests : List (Request Snapshot),
        (serveAll .bare id pure requests failedAttempt.2).1
          = (serveAll .bare id pure requests
              (some (.create false .epoch))).1 := by
  have hResult : failedAttempt.1 = .error .exhausted := rfl
  have hFailed :
      record .bare id panicking thrownNull .unknown
        (some (.create false .epoch))
        = (.error .exhausted, failedAttempt.2) :=
    Prod.ext hResult rfl
  rcases (record_all_or_nothing (fun _ _ => rfl)
      (fun _ s => .record id (fun x : Snapshot => pure x)
        (.call ⟨"A", "m", "()"⟩ none []) .unknown
        (fun _ s => .done s) (.done _))
      (carries_heeds .bare Recorder.Misuse).pure rfl
      thrownNull .unknown).2.2 _ _ hFailed with
    ⟨_, hRestored, hAnswers⟩
  refine ⟨hResult, hRestored, fun requests => ?_⟩
  exact (hAnswers requests).1

end ExecTrace
