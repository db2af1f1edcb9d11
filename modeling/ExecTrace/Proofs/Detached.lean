import ExecTrace.Machine.Eval
import ExecTrace.Proofs.Simulation
import ExecTrace.Proofs.Traversal

/-
  Computations that do not depend on local variables. A method
  runs with variables of its own, so whatever calls methods only
  is detached from the variables of its caller: so is the
  capture of values, and so is telling an action.

  Main declarations:
    * `Detached`
    * `detached_textOf`, `detached_captureValue`
    * `detached_activate`
    * `detached_record`
-/

namespace ExecTrace

open Run

/-
  Other local variables make no difference, and the variables
  stay what they are.
-/
def Detached
    {α : Type}
    (x : Run α) : Prop :=
  ∀ m l, x { m with locals := l }
    = ((x m).1, { (x m).2 with locals := l })

namespace Detached

variable {α β : Type}

------------------------------------------------------------
-- Rules
------------------------------------------------------------

/- A value does not depend on variables. -/
theorem pure (a : α) : Detached (Pure.pure a : Run α) :=
  fun _ _ => rfl

/- An interrupt does not depend on variables. -/
theorem throw
    (c : Interrupt) : Detached (MonadExcept.throw c : Run α) :=
  fun _ _ => rfl

/- A sequence is detached if its parts are. -/
theorem bind
    {x : Run α}
    {f : α → Run β}
    (hx : Detached x)
    (hf : ∀ a, Detached (f a)) : Detached (x >>= f) := by
  intro m l
  rw [bind_apply, bind_apply, hx m l]
  rcases x m with ⟨r, k⟩
  cases r with
  | error c => rfl
  | ok a => exact hf a k l

/- A look at a part of the state that has no variables. -/
theorem look
    {f : Machine → Run α}
    (hf : ∀ m, Detached (f m))
    (hSame : ∀ m l, f { m with locals := l } = f m) :
    Detached ((get : Run Machine) >>= f) := by
  intro m l
  rw [get_bind_apply, get_bind_apply, hSame]
  exact hf m m l

/- A change of a part of the state that has no variables. -/
theorem modify
    {f : Machine → Machine}
    (hf : ∀ m l,
      f { m with locals := l } = { f m with locals := l }) :
    Detached (modify f : Run Unit) := by
  intro m l
  rw [modify_apply, modify_apply, hf]

/- Detached computations go one after the other. -/
theorem carries :
    Carries Run Run (fun _ x _ => Detached x) where
  pure := pure
  bind := bind

/- Detached computations in a list. -/
theorem mapM
    {f : α → Run β}
    (as : List α)
    (hf : ∀ a, Detached (f a)) : Detached (as.mapM f) :=
  carries.mapList (g := f) as fun a _ => hf a

/- A computation with variables of its own is detached. -/
theorem withLocals
    (locals : Locals)
    (x : Run α) : Detached (ExecTrace.withLocals locals x) :=
  fun _ _ => rfl

/- A frame around a computation. -/
theorem inFrame
    {x : Run α}
    (hx : Detached x)
    (frame : Frame) : Detached (ExecTrace.inFrame frame x) := by
  intro m l
  unfold ExecTrace.inFrame
  rw [show ({ m with locals := l, frames := frame :: m.frames }
      : Machine)
    = { { m with frames := frame :: m.frames } with locals := l }
    from rfl, hx]
  rcases x { m with frames := frame :: m.frames } with ⟨r, k⟩
  cases r with
  | ok a => rfl
  | error c => cases c <;> rfl

/- A moment is watched without a look at the variables. -/
theorem watch
    {w : Observer}
    {x : Moment}
    (hw : ∀ m l, w x { m with locals := l } = w x m) :
    Detached (ExecTrace.watch w x) := by
  intro m l
  unfold ExecTrace.watch
  rw [hw]
  cases w x m <;> rfl

------------------------------------------------------------
-- Faults and Exceptions
------------------------------------------------------------

/- A fault that shows a value. -/
theorem faultShowing
    (cause : String → Fault)
    (v : Val) : Detached (Run.faultShowing cause v : Run α) :=
  look (fun _ => throw _) fun _ _ => rfl

/- A fault that shows an end. -/
theorem faultEscaped
    (cause : String → Fault)
    (flow : Flow) : Detached (Run.faultEscaped cause flow : Run α) :=
  look (fun _ => throw _) fun _ _ => rfl

/- A new exception. -/
theorem exception
    (p : Program)
    (cls : String)
    (message : Option String) :
    Detached (Run.exception p cls message) := by
  refine bind (bind (fun _ _ => rfl) fun _ _ _ => rfl) fun e => ?_
  cases e with
  | obj a =>
    cases message with
    | some text =>
      exact bind (modify fun _ _ => rfl) fun _ => pure _
    | none => exact pure _
  | _ => exact pure _

/- A new exception is thrown. -/
theorem raise
    (p : Program)
    (cls message : String) :
    Detached (Run.raise p cls message : Run α) :=
  bind (exception p cls _) fun _ => throw _

end Detached

------------------------------------------------------------
-- Texts and Snapshots
------------------------------------------------------------

/- A way to run methods that is detached. -/
def DetachedInvoker (i : Invoker) : Prop :=
  ∀ c m self args, Detached (i c m self args)

section Captures

variable {w : Observer}
variable {p : Program}
variable {i : Invoker}

/- The text of a value. -/
theorem detached_textOf
    (hi : DetachedInvoker i)
    (via : String)
    (v : Val) : Detached (Call.textOf p i via v) := by
  refine Detached.look (fun m => ?_) fun _ _ => rfl
  cases v with
  | obj a =>
    simp only
    cases p.findMethod? (m.heap.classOf a) "toString" 0 with
    | none => exact .pure _
    | some found =>
      rcases found with ⟨owner, method⟩
      simp only
      split
      · exact .pure _
      · exact ((hi owner method _ _).inFrame _).bind fun _ =>
          .look (fun _ => .pure _) fun _ _ => rfl
  | _ => exact .pure _

/- The text of a value, unless there is none. -/
theorem detached_textUnlessThrown
    {x : Run String}
    (hx : Detached x) : Detached (textUnlessThrown x) := by
  intro m l
  unfold textUnlessThrown
  rw [hx]
  rcases x m with ⟨r, k⟩
  cases r with
  | ok s => rfl
  | error c => cases c <;> rfl

/- The snapshot of a reference. -/
theorem detached_referenceSnapshot
    (hi : DetachedInvoker i)
    (v : Val) : Detached (referenceSnapshot p i v) :=
  .look
    (fun _ => (detached_textUnlessThrown
      (detached_textOf hi "toString" v)).bind fun _ => .pure _)
    fun _ _ => rfl

/- The snapshot of a value. -/
theorem detached_snapshot
    (hw : ∀ kind v m l,
      w (.captured kind v) { m with locals := l }
        = w (.captured kind v) m)
    (hi : DetachedInvoker i)
    (depth : Nat)
    (kind : Kind)
    (v : Val) : Detached (snapshot w p i depth kind v) := by
  induction depth generalizing kind v with
  | zero => exact .throw _
  | succ depth ih =>
    have hWrong : ∀ v, Detached (wrongKind kind v) := fun _ =>
      .look (fun _ => .throw _) fun _ _ => rfl
    have hReference := detached_referenceSnapshot (p := p) hi
    refine (Detached.watch (hw kind v)).bind fun _ => ?_
    cases kind.scalarTy? with
    | some ty =>
      cases v with
      | scalar s => exact .pure _
      | _ => exact hWrong _
    | none =>
      cases v with
      | null => exact .pure _
      | arr a =>
        simp only
        split
        · exact .look
            (fun _ => (Detached.mapM _ fun _ => ih _ _).bind
              fun _ => .pure _)
            fun _ _ => rfl
        · exact hReference _
      | str s => exact hReference _
      | obj a => exact hReference _
      | _ =>
        simp only
        split
        · refine Detached.bind (fun _ _ => rfl) fun _ => ?_
          exact .look (fun _ => .pure _) fun _ _ => rfl
        · exact hWrong _

/- A captured value. -/
theorem detached_captureValue
    (hw : ∀ kind v m l,
      w (.captured kind v) { m with locals := l }
        = w (.captured kind v) m)
    (hi : DetachedInvoker i)
    (fuel : Nat)
    (kind : Kind)
    (v : Val) : Detached (captureValue w p i fuel kind v) :=
  .look (fun _ => detached_snapshot hw hi _ kind v)
    fun _ _ => rfl

------------------------------------------------------------
-- Methods and Actions
------------------------------------------------------------

/- Methods have variables of their own. -/
theorem detached_activate
    (run : List Stmt → Run Flow) :
    DetachedInvoker (activate w p i run) := by
  intro c m self args
  unfold activate
  cases m.body with
  | none => exact .throw _
  | some body =>
    refine Detached.look (fun k => ?_) fun _ _ => rfl
    split
    · exact .throw _
    · split
      · exact .raise _ _ _
      · refine ((Detached.withLocals _ _).inFrame _).bind
          fun flow => ?_
        unfold resultOf
        cases flow with
        | «return» v => exact .pure _
        | normal => exact .pure _
        | _ => exact .faultEscaped _ _

/- An action whose values are captured is recorded. -/
theorem detached_record
    {α : Type}
    {f : α → Run Snapshot}
    (hf : ∀ a, Detached (f a))
    (a : Action Unit α)
    (span : Span) :
    Detached (record Machine.slot misuse f a span) := by
  have hMap := Detached.carries.mapAction (g := f) a hf
  intro m l
  unfold record
  simp only [Machine.slot, ExceptT.run]
  cases m.recorder.bind Recorder.suspend? with
  | none => rfl
  | some suspended =>
    simp only
    rw [show ({ m with locals := l, recorder := some suspended }
        : Machine)
      = { { m with recorder := some suspended } with locals := l }
      from rfl, hMap]
    rcases (a.mapM f : Run (Action Unit Snapshot))
      { m with recorder := some suspended } with
      ⟨r, heap, statics, frames, _, nextId, output, recorder, _⟩
    cases r with
    | error c => cases recorder <;> rfl
    | ok b =>
      cases recorder with
      | none => rfl
      | some r =>
        simp only [Slot.update]
        generalize r.commit b span = committed
        cases committed <;> rfl

end Captures

end ExecTrace
