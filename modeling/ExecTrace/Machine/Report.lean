import ExecTrace.Machine.Call
import ExecTrace.Machine.Observer
import ExecTrace.Syntax.Print

/-
  This file hands probes to the recorder of a machine. Operands
  are evaluated first; snapshots are taken later, when the
  recorder asks for them, and may run code of the program.

  Key definitions include:
    * `Live`
    * `snapshot`
    * `captureValue`
    * `enclosingFrames`
    * `Probe.toAction`
    * `report`
-/

namespace ExecTrace

open Run

/- An operand with its value. -/
structure Live where
  operand : Operand
  value : Val

------------------------------------------------------------
-- Snapshots
------------------------------------------------------------

/- The type of the scalars of a kind. -/
def Kind.scalarTy? : Kind → Option Ty
  | .bool => some .bool
  | .byte => some .byte
  | .short => some .short
  | .int => some .int
  | .long => some .long
  | .float => some .float
  | .double => some .double
  | .char => some .char
  | .reference => none
  | .array => none

/- A value that cannot be the value of an operand of a kind. -/
def wrongKind
    (kind : Kind)
    (v : Val) : Run Snapshot := do
  let name := (← get).heap.className v
  throw (.panic (brokenInvariant
    (kind.text ++ " operand evaluated to " ++ name)))

/- The text of a value, unless the program fails to give one. -/
def textUnlessThrown (text : Run String) : Run (Option String) :=
  fun m =>
    match text m with
    | (.ok s, m) => (.ok (some s), m)
    | (.error (.throw _), m) => (.ok none, m)
    | (.error (.fault _), m) => (.ok none, m)
    | (.error cut, m) => (.error cut, m)

/- The snapshot of an object, an array or a string. -/
def referenceSnapshot
    (p : Program)
    (invoke : Invoker)
    (v : Val) : Run Snapshot := do
  let h := (← get).heap
  let text ←
    textUnlessThrown (Call.textOf p invoke "toString" v)
  pure (Snapshot.reference (h.identity v) (h.className v) text)

/-
  The snapshot of a value as a kind. A scalar is converted to
  the type of the kind. Where a reference is asked for, a scalar
  is shown as the object that would wrap it.
-/
def snapshot
    (w : Observer)
    (p : Program)
    (invoke : Invoker) :
    Nat → Kind → Val → Run Snapshot
  | 0, _, _ => throw .outOfFuel
  | fuel + 1, kind, v => do
    watch w (.captured kind v)
    match kind.scalarTy? with
    | some ty =>
      match v with
      | .scalar s => pure (.scalar (s.convert ty))
      | v => wrongKind kind v
    | none =>
      match v with
      | .null => pure Snapshot.null
      | .arr a =>
        if kind = .array then do
          let h := (← get).heap
          let inner := (h.elementOf a).kind?.getD .reference
          let items ←
            (h.itemsOf a).toList.mapM (snapshot w p invoke fuel inner)
          pure (Snapshot.array items)
        else referenceSnapshot p invoke v
      | .str _ | .obj _ => referenceSnapshot p invoke v
      | v =>
        match v.boxedClass? with
        | some cls => do
          let id ← freshId
          pure (.ref id cls ((← get).heap.text v))
        | none => wrongKind kind v

------------------------------------------------------------
-- Reporting
------------------------------------------------------------

/-
  How many levels of a value may be captured. No chain of arrays
  without a cycle is longer than the heap has arrays, so only a
  cycle, or a conversion to text that keeps nesting arrays, goes
  deeper than that at every supply of fuel.
-/
def captureDepth
    (fuel : Nat)
    (h : Heap) : Nat :=
  fuel + h.arrays.size + 1

/- The snapshot of a value, as deep as the heap allows. -/
def captureValue
    (w : Observer)
    (p : Program)
    (invoke : Invoker)
    (fuel : Nat)
    (kind : Kind)
    (v : Val) : Run Snapshot := do
  let depth := captureDepth fuel (← get).heap
  snapshot w p invoke depth kind v

/-
  The frames without probes between the current activation and
  the nearest one with probes, outermost first.
-/
def enclosingFrames (frames : List Frame) : List OuterFrame :=
  ((frames.drop 1).takeWhile fun f => !f.instrumented).reverse.map
    fun f => ⟨f.cls, f.method, none, none⟩

/- The truth value of an operand. -/
def flag (l : Live) : Run Bool := do
  match l.value.asBool? with
  | some b => pure b
  | none =>
    faultShowing (.condition l.operand.expr.text) l.value

/- The action that a probe with evaluated operands reports. -/
def Probe.toAction : Probe Live → Run (Action Unit Live)
  | .statement s => pure (.statement s)
  | .operation o => pure (.operation o)
  | .castAttempt value type succeeds => do
    pure (.castAttempt value type (← flag succeeds))
  | .binary operator lhs rhs result none =>
    pure (.binary operator lhs (some rhs) result)
  | .binary operator lhs rhs result (some skipped) => do
    let rhs := if ← flag skipped then none else some rhs
    pure (.binary operator lhs rhs result)
  | .typeTest tested type result => do
    pure (.typeTest tested type (← flag result))
  | .call callee receiver args =>
    pure (.call callee receiver args)
  | .enter method => do
    pure (.enter method (enclosingFrames (← get).frames))
  | .exit method how => pure (.exit () method how)
  | .resume cls method how => pure (.resume () cls method how)

/- Note that the current activation has probes. -/
def markInstrumented : Run Unit :=
  modify fun m =>
    match m.frames with
    | [] => m
    | f :: rest =>
      { m with frames := { f with instrumented := true } :: rest }

/- Whether a probe tells that an activation starts. -/
def Probe.isEnter {ω : Type} : Probe ω → Bool
  | .enter _ => true
  | _ => false

/- Whether actions are recorded at the moment. -/
def isRecording : Run Bool := do
  match (← get).recorder with
  | some r => pure !r.suspended
  | none => pure false

/- The defect of recording an action out of place. -/
def misuse (m : Recorder.Misuse) : Interrupt :=
  .panic (brokenInvariant m.text)

/-
  Run a probe. Without a recorder, or while it is suspended, the
  operands are not evaluated.
-/
def report
    (w : Observer)
    (p : Program)
    (evaluate : Expr → Run Val)
    (invoke : Invoker)
    (fuel : Nat)
    (probe : Probe Operand)
    (span : Span) : Run Unit := do
  if probe.isEnter then
    markInstrumented
  if ← isRecording then
    let live ← probe.mapM fun o => do
      pure (⟨o, ← evaluate o.expr⟩ : Live)
    let action ← live.toAction
    let _ ←
      record Machine.slot misuse
        (fun l => captureValue w p invoke fuel l.operand.kind l.value)
        action span
    watch w .recorded

end ExecTrace
