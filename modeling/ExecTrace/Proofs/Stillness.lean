import ExecTrace.Proofs.Congruence
import ExecTrace.Proofs.Recording

/-
  Captures that change nothing. If no object has a text of its
  own, taking a snapshot runs no code of the program; only a
  primitive that is captured as a reference draws a number. Apart
  from that, telling an action changes the recorder and nothing
  else, and what is told depends on the heap alone.

  Main declarations:
    * `Program.isTextless`
    * `Observer.Wary`
    * `Still`
    * `noting`
    * `Splice.captured`
    * `Splice.Plain.tell_noting`
-/

namespace ExecTrace

open Run

------------------------------------------------------------
-- Programs without Texts
------------------------------------------------------------

/- Whether no class gives its objects a text of their own. -/
def Program.isTextless (p : Program) : Bool :=
  p.classes.all fun c => c.methods.all fun m =>
    m.name != "toString" || m.arity != 0 || m.isStatic

namespace Program

variable {p : Program}
variable {name : String}
variable {arity : Nat}
variable {c : ClassDef}
variable {m : MethodDef}

/- A text that a textless program finds belongs to no object. -/
theorem isStatic_of_isTextless
    (hp : p.isTextless = true)
    {cls : String}
    (h : p.findMethod? cls "toString" 0 = some (c, m)) :
    m.isStatic = true := by
  rcases mem_of_methodIn h with ⟨hc, hm⟩
  have hDeclared := mem_of_lineageWithin _ _ hc
  have hMethod := List.mem_of_find?_eq_some hm
  have hFound := List.find?_some hm
  simp only [Bool.and_eq_true, beq_iff_eq] at hFound
  simp only [isTextless, List.all_eq_true] at hp
  simpa [hFound.1, hFound.2] using hp c hDeclared m hMethod

end Program

------------------------------------------------------------
-- Misfits
------------------------------------------------------------

/- Whether a primitive would be captured as a reference. -/
def isMisfit
    (kind : Kind)
    (v : Val) : Bool :=
  kind.scalarTy?.isNone && v.boxedClass?.isSome

/-
  An observer that stops at each capture of a misfit, and at a
  capture looks at nothing but the value.
-/
structure Observer.Wary (w : Observer) : Prop where
  misfits : ∀ kind v m, isMisfit kind v = true →
    w (.captured kind v) m ≠ none
  uniform : ∀ kind v m n,
    w (.captured kind v) n = w (.captured kind v) m

------------------------------------------------------------
-- Still Computations
------------------------------------------------------------

/-
  Two computations that change no machine, and have one end on
  machines with one heap, unless the first one lacks fuel.
-/
def Still
    {α : Type}
    (x y : Run α) : Prop :=
  ∀ m n : Machine, n.heap = m.heap →
    ∃ r, x m = (r, m) ∧ (r = .error .outOfFuel ∨ y n = (r, n))

namespace Still

variable {α β κ : Type}
variable {x y : Run α}
variable {f g : α → Run β}

/- A value is returned on both sides. -/
theorem pure (a : α) :
    Still (Pure.pure a : Run α) (Pure.pure a) :=
  fun _ _ _ => ⟨.ok a, rfl, .inr rfl⟩

/- An interrupt is thrown on both sides. -/
theorem throw (c : Interrupt) :
    Still (MonadExcept.throw c : Run α) (MonadExcept.throw c) :=
  fun _ _ _ => ⟨.error c, rfl, .inr rfl⟩

/- The first computation lacks fuel. -/
theorem spent :
    Still (MonadExcept.throw .outOfFuel : Run α) y :=
  fun _ _ _ => ⟨.error .outOfFuel, rfl, .inl rfl⟩

/- Sequences are still if their parts are. -/
theorem bind
    (h : Still x y)
    (hf : ∀ a, Still (f a) (g a)) :
    Still (x >>= f) (y >>= g) := by
  intro m n hmn
  rcases h m n hmn with ⟨r, hx, hSpent | hy⟩
  · subst hSpent
    exact ⟨_, bind_error hx, .inl rfl⟩
  · cases r with
    | error c => exact ⟨_, bind_error hx, .inr (bind_error hy)⟩
    | ok a =>
      rw [bind_ok hx, bind_ok hy]
      exact hf a m n hmn

/- A look at the heap. -/
theorem look
    {f g : Machine → Run β}
    (h : ∀ m n : Machine, n.heap = m.heap → Still (f m) (g n)) :
    Still ((get : Run Machine) >>= f)
      ((get : Run Machine) >>= g) :=
  fun m n hmn => h m n hmn m n hmn

/- What is still is still in sequences. -/
theorem carries : Carries Run Run (fun _ => Still) where
  pure := .pure
  bind := .bind

/- Values are mapped one after the other. -/
theorem mapM
    (as : List α)
    (h : ∀ a, Still (f a) (g a)) :
    Still (as.mapM f) (as.mapM g) :=
  carries.mapList as fun a _ => h a

/- The values of an action are mapped. -/
theorem mapAction
    (h : ∀ a, Still (f a) (g a))
    (a : Action κ α) : Still (a.mapM f) (a.mapM g) :=
  carries.mapAction a h

end Still

------------------------------------------------------------
-- Still Captures
------------------------------------------------------------

section Captures

variable {p : Program}
variable {i j : Invoker}
variable {w : Observer}

/- A text that is missing if a still text is not given. -/
theorem still_textUnlessThrown
    {x y : Run String}
    (h : Still x y) :
    Still (textUnlessThrown x) (textUnlessThrown y) := by
  intro m n hmn
  rcases h m n hmn with ⟨r, hx, hSpent | hy⟩
  · subst hSpent
    unfold textUnlessThrown
    rw [hx]
    exact ⟨_, rfl, .inl rfl⟩
  · unfold textUnlessThrown
    rw [hx, hy]
    cases r with
    | ok s => exact ⟨_, rfl, .inr rfl⟩
    | error c => cases c <;> exact ⟨_, rfl, .inr rfl⟩

/- The text of a value in a textless program. -/
theorem still_textOf
    (hp : p.isTextless = true)
    (v : Val) :
    Still (Call.textOf p i "toString" v)
      (Call.textOf p j "toString" v) := by
  refine .look fun m n hmn => ?_
  rw [hmn]
  cases v with
  | obj a =>
    simp only
    cases hFound : p.findMethod? (m.heap.classOf a) "toString" 0 with
    | none => exact .pure _
    | some found =>
      simp only [Program.isStatic_of_isTextless hp hFound, if_true]
      exact .pure _
  | _ => exact .pure _

/- The snapshot of an object, an array or a string. -/
theorem still_referenceSnapshot
    (hp : p.isTextless = true)
    (v : Val) :
    Still (referenceSnapshot p i v) (referenceSnapshot p j v) := by
  refine .look fun m n hmn => ?_
  rw [hmn]
  exact (still_textUnlessThrown (still_textOf hp v)).bind
    fun _ => .pure _

/- A value of the wrong kind is a defect. -/
theorem still_wrongKind
    (kind : Kind)
    (v : Val) : Still (wrongKind kind v) (wrongKind kind v) := by
  refine .look fun m n hmn => ?_
  rw [hmn]
  exact .throw _

/- A wary observer watches a capture in one way. -/
theorem Observer.Wary.still_watch
    (hw : w.Wary)
    (kind : Kind)
    (v : Val) :
    Still (watch w (.captured kind v))
      (watch w (.captured kind v)) := by
  intro m n _
  unfold watch
  rw [hw.uniform kind v m n]
  cases w (.captured kind v) m <;>
    exact ⟨_, rfl, .inr rfl⟩

/- A wary observer stops before a misfit is captured. -/
theorem Observer.Wary.still_misfit
    {α : Type}
    (hw : w.Wary)
    {kind : Kind}
    {v : Val}
    (hMisfit : isMisfit kind v = true)
    (f g : Unit → Run α) :
    Still (watch w (.captured kind v) >>= f)
      (watch w (.captured kind v) >>= g) := by
  intro m n _
  rcases Option.ne_none_iff_exists'.mp (hw.misfits kind v m hMisfit)
    with ⟨why, hWhy⟩
  have hStop : ∀ k, watch w (.captured kind v) k
      = (.error (.stopped why), k) := by
    intro k
    simp only [watch, hw.uniform kind v m k, hWhy]
  exact ⟨_, bind_error (hStop m), .inr (bind_error (hStop n))⟩

/- The snapshot of a value, with some more levels at most. -/
theorem still_snapshot
    (hp : p.isTextless = true)
    (hw : w.Wary)
    {d d' : Nat}
    (hd : d ≤ d')
    (kind : Kind)
    (v : Val) :
    Still (snapshot w p i d kind v) (snapshot w p j d' kind v) := by
  have hReference := fun v =>
    still_referenceSnapshot (i := i) (j := j) hp v
  induction d generalizing d' kind v with
  | zero => exact .spent
  | succ d ih =>
    obtain ⟨d', rfl⟩ : ∃ k, d' = k + 1 := ⟨d' - 1, by omega⟩
    unfold snapshot
    by_cases hMisfit : isMisfit kind v = true
    · exact hw.still_misfit hMisfit _ _
    refine (hw.still_watch kind v).bind fun _ => ?_
    cases hKind : kind.scalarTy? with
    | some ty =>
      cases v with
      | scalar s => exact .pure _
      | _ => exact still_wrongKind _ _
    | none =>
      cases v with
      | null => exact .pure _
      | arr a =>
        simp only
        split
        · refine .look fun m n hmn => ?_
          rw [hmn]
          exact (Still.mapM _ fun u => ih (by omega) _ u).bind
            fun _ => .pure _
        · exact hReference _
      | str s => exact hReference _
      | obj a => exact hReference _
      | void => exact still_wrongKind _ _
      | scalar s =>
        refine absurd ?_ hMisfit
        cases s <;> simp [isMisfit, hKind, Val.boxedClass?]

/- A captured value, with some more fuel at most. -/
theorem still_captureValue
    (hp : p.isTextless = true)
    (hw : w.Wary)
    {d d' : Nat}
    (hd : d ≤ d')
    (kind : Kind)
    (v : Val) :
    Still (captureValue w p i d kind v)
      (captureValue w p j d' kind v) := by
  refine .look fun m n hmn => ?_
  rw [hmn]
  refine still_snapshot hp hw ?_ kind v
  unfold captureDepth
  omega

end Captures

------------------------------------------------------------
-- Noted Actions
------------------------------------------------------------

/- The machine after an action was captured, or was not. -/
def noting
    (captured : Except Interrupt (Action Unit Snapshot))
    (span : Span)
    (r : Recorder)
    (m : Machine) : End Unit :=
  match captured with
  | .error c => (.error c, m)
  | .ok a =>
    match r.commit a span with
    | .error why => (.error (misuse why), m)
    | .ok r' => (.ok (), { m with recorder := some r' })

/- Suspending a recorder does not change what it records. -/
theorem Recorder.commit_suspended
    {r : Recorder}
    (hOn : r.suspended = false)
    (a : Action Unit Snapshot)
    (span : Span) :
    ({ r with suspended := true }.commit a span).map
      Recorder.release = r.commit a span := by
  rcases r with ⟨nextId, forest, frames, suspended, echo, echoed⟩
  cases hOn
  unfold commit closable emit?
  cases a.ends with
  | some expected =>
    cases frames with
    | nil => rfl
    | cons frame rest =>
      simp only
      by_cases hKind : frame.kind = expected
      · simp only [if_pos hKind]
        by_cases hRoom : nextId.number = 0xFFFFFFFFFFFFFFFF
        · simp only [if_pos hRoom]
          rfl
        · simp only [if_neg hRoom]
          rfl
      · simp only [if_neg hKind]
        rfl
  | none =>
    simp only
    by_cases hRoom : nextId.number = 0xFFFFFFFFFFFFFFFF
    · simp only [if_pos hRoom]
      rfl
    · simp only [if_neg hRoom]
      cases a.opens <;> rfl

/- An action that is captured without a change is noted. -/
theorem recordAs_still
    {x : Run (Action Unit Snapshot)}
    {captured : Except Interrupt (Action Unit Snapshot)}
    {m : Machine}
    {r : Recorder}
    (hr : m.recorder = some r)
    (hOn : r.suspended = false)
    (hx : x { m with recorder := some { r with suspended := true } }
      = (captured,
        { m with recorder := some { r with suspended := true } }))
    (span : Span) :
    ((recordAs x span >>= fun _ => pure ()) : Run Unit) m
      = noting captured span r m := by
  have hBack : m = { m with recorder := some r } := by
    rw [← hr]
  have hReleased : r.release = r := by
    simp only [Recorder.release, ← hOn]
  have hCommit := Recorder.commit_suspended hOn
  rw [bind_apply]
  unfold recordAs noting
  simp only [hr, Option.bind_some, Recorder.suspend?, hOn,
    Bool.false_eq_true, if_false, hx]
  cases captured with
  | error c =>
    simp only [Slot.update, Machine.slot, Recorder.release]
    rw [hBack]
    simp only [← hOn]
  | ok a =>
    simp only [← hCommit a span]
    cases { r with suspended := true }.commit a span with
    | error why =>
      simp only [Slot.update, Machine.slot, Recorder.release,
        Except.map]
      rw [hBack]
      simp only [← hOn]
    | ok r' => rfl

/- Telling every action, and looking at recorders never. -/
structure Splice.Plain (X : Splice) : Prop where
  sound : ∀ a, X.sound a = true
  recorded : ∀ m, X.observer .recorded m = none
  wary : X.observer.Wary

section Telling

variable {X : Splice}
variable {p : Program}
variable {i : Invoker}
variable {n : Nat}
variable {span : Span}

/- The values of an action are captured for telling it. -/
def Splice.captures
    (X : Splice)
    (p : Program)
    (i : Invoker)
    (n : Nat)
    (a : Action Unit Shown) : Run (Action Unit Snapshot) :=
  a.mapM fun s => captureValue X.observer p i n s.kind s.value

/- What is captured does not depend on the methods. -/
theorem Splice.Plain.still_captures
    (hX : X.Plain)
    (hp : p.isTextless = true)
    (i j : Invoker)
    {n k : Nat}
    (hk : n ≤ k)
    (a : Action Unit Shown) :
    Still (X.captures p i n a) (X.captures p j k a) := by
  unfold Splice.captures
  refine Still.mapAction (fun s => ?_) a
  exact still_captureValue hp hX.wary hk s.kind s.value

/- What is captured is captured without a cut. -/
theorem Splice.uncut_captures
    (X : Splice)
    (p : Program)
    (i : Invoker)
    (n : Nat)
    (a : Action Unit Shown) : Uncut (X.captures p i n a) := by
  unfold Splice.captures
  refine uncut_mapAction (fun s => ?_) a
  exact uncut_captureValue n s.kind s.value

/- Methods that cannot be run. -/
def Invoker.spent : Invoker :=
  fun _ _ _ _ => throw .outOfFuel

/- What is captured of an action on a heap. -/
def Splice.captured
    (X : Splice)
    (p : Program)
    (n : Nat)
    (h : Heap)
    (a : Action Unit Shown) :
    Except Interrupt (Action Unit Snapshot) :=
  (X.captures p .spent n a { heap := h }).1

/- What is captured depends on the heap, and changes nothing. -/
theorem Splice.Plain.captures_apply
    (hX : X.Plain)
    (hp : p.isTextless = true)
    (i : Invoker)
    (n : Nat)
    (a : Action Unit Shown)
    (m : Machine) :
    X.captures p i n a m = (X.captured p n m.heap a, m) := by
  rcases hX.still_captures hp i .spent (Nat.le_refl n) a m
      { heap := m.heap } rfl with ⟨r, hLeft, hOne⟩
  rcases hX.still_captures hp .spent i (Nat.le_refl n) a
      { heap := m.heap } m rfl with ⟨r', hRight, hOther⟩
  have hCaptured : X.captured p n m.heap a = r' :=
    congrArg Prod.fst hRight
  rw [hCaptured]
  rcases hOther with rfl | hOther
  · rcases hOne with rfl | hOne
    · exact hLeft
    · rw [hRight] at hOne
      cases hOne
      exact hLeft
  · exact hOther

/- With more fuel the same is captured, or nothing before. -/
theorem Splice.Plain.captured_mono
    (hX : X.Plain)
    (hp : p.isTextless = true)
    {n k : Nat}
    (hk : n ≤ k)
    (h : Heap)
    (a : Action Unit Shown) :
    X.captured p n h a = .error .outOfFuel ∨
      X.captured p k h a = X.captured p n h a := by
  rcases hX.still_captures hp .spent .spent hk a { heap := h }
      { heap := h } rfl with ⟨r, hLeft, hSpent | hRight⟩
  · subst hSpent
    exact .inl (congrArg Prod.fst hLeft)
  · refine .inr ?_
    unfold Splice.captured
    rw [hLeft, hRight]

/- What is captured is neither thrown nor a fault. -/
theorem Splice.hard_captured
    {h : Heap}
    {a : Action Unit Shown}
    {c : Interrupt}
    (hCaptured : X.captured p n h a = .error c)
    (m k : Machine) : hard c m k :=
  X.uncut_captures p .spent n a { heap := h } c _
    (Prod.ext hCaptured rfl)

/- Telling an action notes what is captured of it. -/
theorem Splice.Plain.tell_noting
    (hX : X.Plain)
    (hp : p.isTextless = true)
    {m : Machine}
    {r : Recorder}
    (hr : m.recorder = some r)
    (hOn : r.suspended = false)
    (act : Machine → Action Unit Shown) :
    X.teller.tell p i n span act m
      = noting (X.captured p n m.heap (act m)) span r m := by
  have hRecording : m.recording = true := by
    simp [Machine.recording, hr, hOn]
  have hWatch : watch X.observer .recorded = pure () := by
    funext k
    simp only [watch, hX.recorded]
    rfl
  rw [X.tell_apply (hX.sound _), hRecording]
  simp only [if_true, hWatch]
  rw [record_eq_recordAs]
  exact recordAs_still hr hOn
    (hX.captures_apply hp i n (act m) _) span

end Telling

end ExecTrace
