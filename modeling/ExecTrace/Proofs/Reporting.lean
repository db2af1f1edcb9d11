import ExecTrace.Proofs.Inspection

/-
  Congruences of runs that report. While a probe is run, the
  values of its action are captured. A capture forgets what goes
  wrong in the program, and a recorder is released whatever a
  capture ends with, so a congruence says nothing about reports
  by itself. If it is kept by these two steps, then a probe is
  run alike in two ways if its operands are evaluated alike, and
  methods are run alike.

  Main declarations:
    * `Reporting`
    * `Reporting.captureValue`
    * `Reporting.report`
-/

namespace ExecTrace

open Run

------------------------------------------------------------
-- Changes of the Recorder
------------------------------------------------------------

section Updates

variable {m : Machine}
variable {f : Recorder → Recorder}

/- A change of the recorder is none of the variables. -/
theorem locals_update :
    (Machine.slot.update f m).locals = m.locals := by
  unfold Slot.update
  split <;> rfl

/- A change of the recorder is none of the frames. -/
theorem frames_update :
    (Machine.slot.update f m).frames = m.frames := by
  unfold Slot.update
  split <;> rfl

end Updates

------------------------------------------------------------
-- Congruences that Report
------------------------------------------------------------

/-
  A congruence that is also kept by defects, by texts that the
  program may fail to give, and by recording what is captured.
-/
structure Reporting
    (R : (β : Type) → Run β → Run β → Prop) : Prop
    extends Congruence R where
  panic : ∀ {β : Type} (text : String),
    R β (throw (.panic text)) (throw (.panic text))
  textUnlessThrown : ∀ {x y : Run String}, R String x y →
    R (Option String) (ExecTrace.textUnlessThrown x)
      (ExecTrace.textUnlessThrown y)
  record : ∀ {capture capture' : Live → Run Snapshot},
    (∀ l, R Snapshot (capture l) (capture' l)) →
      ∀ (a : Action Unit Live) (span : Span),
        R (Option EventId)
          (ExecTrace.record Machine.slot misuse capture a span)
          (ExecTrace.record Machine.slot misuse capture' a span)

namespace Reporting

variable {R : (β : Type) → Run β → Run β → Prop}
variable {p : Program}
variable {i j : Invoker}

------------------------------------------------------------
-- Captures
------------------------------------------------------------

/- The snapshot of an object, an array or a string. -/
theorem referenceSnapshot
    (h : Reporting R)
    (hi : Congruence.Invokers R p i j)
    (v : Val) :
    R Snapshot (ExecTrace.referenceSnapshot p i v)
      (ExecTrace.referenceSnapshot p j v) := by
  refine h.look fun m => ?_
  exact h.bind (h.textUnlessThrown (h.textOf hi _ v))
    fun _ => h.pure _

/- A value of another kind is a defect. -/
theorem wrongKind
    (h : Reporting R)
    (kind : Kind)
    (v : Val) :
    R Snapshot (ExecTrace.wrongKind kind v)
      (ExecTrace.wrongKind kind v) :=
  h.look fun _ => h.panic _

/- The snapshot of a value. -/
theorem snapshot
    (h : Reporting R)
    (hi : Congruence.Invokers R p i j)
    (depth : Nat)
    (kind : Kind)
    (v : Val) :
    R Snapshot (ExecTrace.snapshot .silent p i depth kind v)
      (ExecTrace.snapshot .silent p j depth kind v) := by
  induction depth generalizing kind v with
  | zero => exact h.cut _ rfl
  | succ depth ih =>
    unfold ExecTrace.snapshot
    refine h.bind (h.pure _) fun _ => ?_
    cases kind.scalarTy? with
    | some ty =>
      cases v with
      | scalar s => exact h.pure _
      | _ => exact h.wrongKind _ _
    | none =>
      cases v with
      | null => exact h.pure _
      | arr a =>
        dsimp only
        split
        · refine h.look fun m => ?_
          exact h.map (h.mapList _ fun u _ => ih _ u) _
        · exact h.referenceSnapshot hi _
      | str s => exact h.referenceSnapshot hi _
      | obj a => exact h.referenceSnapshot hi _
      | _ =>
        dsimp only
        split
        · refine h.bind h.freshId fun _ => ?_
          exact h.look fun _ => h.pure _
        · exact h.wrongKind _ _

/- The snapshot of a value, as deep as the heap allows. -/
theorem captureValue
    (h : Reporting R)
    (hi : Congruence.Invokers R p i j)
    (fuel : Nat)
    (kind : Kind)
    (v : Val) :
    R Snapshot (ExecTrace.captureValue .silent p i fuel kind v)
      (ExecTrace.captureValue .silent p j fuel kind v) :=
  h.look fun _ => h.snapshot hi _ kind v

------------------------------------------------------------
-- Probes
------------------------------------------------------------

/- The recorder is asked whether it records. -/
theorem isRecording
    (h : Reporting R) :
    R Bool ExecTrace.isRecording ExecTrace.isRecording := by
  refine h.look fun m => ?_
  split <;> exact h.pure _

/- The truth value of an operand. -/
theorem flag
    (h : Reporting R)
    (l : Live) : R Bool (ExecTrace.flag l) (ExecTrace.flag l) := by
  unfold ExecTrace.flag
  split
  · exact h.pure _
  · exact h.faultShowing _ _

/- The action of a probe with evaluated operands. -/
theorem toAction
    (h : Reporting R)
    (probe : Probe Live) :
    R (Action Unit Live) probe.toAction probe.toAction := by
  cases probe with
  | castAttempt value type succeeds =>
    exact h.map (h.flag succeeds) _
  | binary operator lhs rhs result skipped =>
    cases skipped with
    | none => exact h.pure _
    | some skipped => exact h.map (h.flag skipped) _
  | typeTest tested type result => exact h.map (h.flag result) _
  | enter method => exact h.look fun _ => h.pure _
  | _ => exact h.pure _

/-
  A probe is run whose operands are evaluated alike. Only the
  start of an activation marks a frame.
-/
theorem report
    (h : Reporting R)
    {ev ev' : Expr → Run Val}
    {probe : Probe Operand}
    (hMark : probe.isEnter = true →
      R Unit markInstrumented markInstrumented)
    (hOperands : ∀ o ∈ probe.operands,
      R Val (ev o.expr) (ev' o.expr))
    (hi : Congruence.Invokers R p i j)
    (fuel : Nat)
    (span : Span) :
    R Unit (ExecTrace.report .silent p ev i fuel probe span)
      (ExecTrace.report .silent p ev' j fuel probe span) := by
  rw [report_eq, report_eq]
  refine h.bind ?_ fun _ => ?_
  · split
    · rename_i hEnter
      exact hMark hEnter
    · exact h.pure _
  refine h.bind h.isRecording fun b => ?_
  split
  · refine h.bind ?_ fun action => ?_
    · refine h.bind (h.mapProbe _ fun o ho => ?_)
        fun live => h.toAction live
      exact h.map (hOperands o ho) _
    · refine h.bind (h.record
        (fun l => h.captureValue hi fuel _ _) action span)
        fun _ => ?_
      exact h.pure _
  · exact h.pure _

end Reporting

end ExecTrace
