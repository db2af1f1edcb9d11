import ExecTrace.Machine.Host
import ExecTrace.Proofs.Congruence
import ExecTrace.Proofs.Holding

/-
  Inspected runs. An inspector looks at every probe right before
  it is run, and at the machine, and the run is stopped if the
  inspector says so. A probe is ready if its operands have
  values, which it takes no step of the machine to find, and its
  flags are truth values. A settled probe is ready where what is
  known of the local variables holds.

  Main declarations:
    * `Inspector` and `execInspected`
    * `Probe.take`, `report_eq` and `Probe.Ready`
    * `Probe.ready_of_settled`
-/

namespace ExecTrace

open Run

------------------------------------------------------------
-- Inspected Runs
------------------------------------------------------------

/- Why a run is stopped right before a probe, if it is. -/
abbrev Inspector := Probe Operand → Machine → Option String

/- Let an inspector look at a statement, if it is a probe. -/
def inspect
    (k : Inspector)
    (s : Stmt) : Run Unit :=
  match s.form with
  | .probe probe => fun m =>
    match k probe m with
    | none => (.ok (), m)
    | some why => (.error (.stopped why), m)
  | _ => pure ()

mutual

/- Evaluate an expression and inspect the probes in it. -/
def evalInspected
    (k : Inspector)
    (p : Program) : Nat → Expr → Run Val
  | 0, _ => throw .outOfFuel
  | fuel + 1, e =>
    Runner.evalForm .silent p
      ⟨evalInspected k p fuel, execInspected k p fuel,
        invokeInspected k p fuel⟩ e

/- Run a statement and inspect the probes in it. -/
def execInspected
    (k : Inspector)
    (p : Program) : Nat → Stmt → Run Flow
  | 0, _ => throw .outOfFuel
  | fuel + 1, s => do
    inspect k s
    Runner.execForm .silent p
      ⟨evalInspected k p fuel, execInspected k p fuel,
        invokeInspected k p fuel⟩ fuel s

/- Run a method and inspect the probes in it. -/
def invokeInspected
    (k : Inspector)
    (p : Program) : Nat → Invoker
  | 0, _, _, _, _ => throw .outOfFuel
  | fuel + 1, owner, m, self, args =>
    Runner.perform .silent p
      ⟨evalInspected k p fuel, execInspected k p fuel,
        invokeInspected k p fuel⟩
      owner m self args

end

/- The inspected run of a static method that the host calls. -/
def Machine.requestInspected
    (k : Inspector)
    (p : Program)
    (fuel : Nat)
    (cls method : String)
    (args : List Val) : Run Val :=
  inFrame ⟨Machine.hostFrame, "call", false⟩
    (Call.onClass p (invokeInspected k p fuel) cls method args)

------------------------------------------------------------
-- Ready Probes
------------------------------------------------------------

/- The action of a probe, whose operands are evaluated first. -/
def Probe.take
    (evaluate : Expr → Run Val)
    (probe : Probe Operand) : Run (Action Unit Live) := do
  let live ← probe.mapM fun o => do
    pure (⟨o, ← evaluate o.expr⟩ : Live)
  live.toAction

/- A report takes the action of its probe first. -/
theorem report_eq
    (w : Observer)
    (p : Program)
    (ev : Expr → Run Val)
    (i : Invoker)
    (fuel : Nat)
    (probe : Probe Operand)
    (span : Span) :
    report w p ev i fuel probe span =
      (if probe.isEnter then markInstrumented else pure ())
        >>= fun _ => isRecording >>= fun recording =>
          if recording then
            probe.take ev >>= fun action =>
              record Machine.slot misuse
                (fun l => captureValue w p i fuel l.operand.kind
                  l.value) action span
                >>= fun _ => watch w .recorded
          else pure () := by
  unfold report Probe.take
  simp only [bind_assoc]
  cases probe.isEnter <;> rfl

/-
  A probe whose operands can be evaluated without a change of
  the machine. A fuel of two is enough for that.
-/
def Probe.Ready
    (p : Program)
    (probe : Probe Operand)
    (m : Machine) : Prop :=
  ∃ action, ∀ fuel,
    probe.take (eval .silent p (fuel + 2)) m = (.ok action, m)

/-
  Two runs that give one result on a machine, and leave it as it
  is.
-/
def Answers
    (m : Machine)
    (β : Type)
    (x y : Run β) : Prop :=
  ∃ b, x m = (.ok b, m) ∧ y m = (.ok b, m)

section Ready

variable {p : Program}
variable {Γ : Known}
variable {m : Machine}
variable {α β : Type}

/- What follows a result of which something is known. -/
theorem answer_bind
    {P : α → Prop}
    {x y : Run α}
    {f g : α → Run β}
    (hx : ∃ a, P a ∧ x m = (.ok a, m) ∧ y m = (.ok a, m))
    (hf : ∀ a, P a → Answers m β (f a) (g a)) :
    Answers m β (x >>= f) (y >>= g) := by
  rcases hx with ⟨a, ha, hx, hy⟩
  rcases hf a ha with ⟨b, hb, hb'⟩
  exact ⟨b, (bind_ok hx).trans hb, (bind_ok hy).trans hb'⟩

/- Results are found one after the other. -/
theorem carries_answer : Carries Run Run (Answers m) where
  pure b := ⟨b, rfl, rfl⟩
  bind hx hf := by
    rcases hx with ⟨a, hx, hy⟩
    exact answer_bind (P := fun _ => True)
      ⟨a, trivial, hx, hy⟩ fun a _ => hf a

/- A variable is looked up in the machine. -/
theorem getLocal_ok
    {name : String}
    {v : Val}
    (h : m.locals.get? name = some v) :
    getLocal name m = (.ok v, m) := by
  unfold getLocal
  rw [get_bind_apply, h]
  rfl

/- The value of a variable is found in the machine. -/
theorem eval_localVar
    {name : String}
    {v : Val}
    (ty : Ty)
    (span : Span)
    (fuel : Nat)
    (h : m.locals.get? name = some v) :
    eval .silent p (fuel + 1) ⟨.localVar name, ty, span⟩ m
      = (.ok v, m) := by
  simp only [eval, watch_silent, pure_bind, bind_pure]
  exact getLocal_ok h

/- The negation of a truth value is one. -/
theorem eval_negation
    {arg : Expr}
    {v : Val}
    {b : Bool}
    {fuel : Nat}
    (ty : Ty)
    (span : Span)
    (h : eval .silent p fuel arg m = (.ok v, m))
    (hb : v.asBool? = some b) :
    eval .silent p (fuel + 1) ⟨.unary .not arg, ty, span⟩ m
      = (.ok (.bool !b), m) := by
  simp only [eval, watch_silent, pure_bind, bind_pure]
  unfold Runner.evalForm
  simp only
  rw [bind_ok h]
  simp only [Val.unary, hb]
  rfl

/- A settled operand has a value. -/
theorem Operand.value_of_settled
    {o : Operand}
    (h : Γ.Holds m.locals)
    (ho : o.Settled Γ) :
    ∃ v, ∀ fuel,
      eval .silent p (fuel + 2) o.expr m = (.ok v, m) := by
  rcases o with ⟨⟨form, ty, span⟩, kind⟩
  unfold Operand.Settled at ho
  split at ho
  · rename_i name hForm
    cases hForm
    rcases Option.isSome_iff_exists.mp (h.binds name ho) with
      ⟨v, hv⟩
    exact ⟨v, fun fuel => eval_localVar ty span _ hv⟩
  · rename_i name ty' span' hForm
    cases hForm
    rcases h.truths name ho with ⟨v, b, hv, hb⟩
    exact ⟨_, fun fuel => eval_negation ty span
      (eval_localVar ty' span' fuel hv) hb⟩
  · exact ho.elim

/- A flag is a truth value. -/
theorem Operand.truth_of_settled
    {o : Operand}
    (h : Γ.Holds m.locals)
    (ho : o.IsTruth Γ) :
    ∃ v b, v.asBool? = some b ∧ ∀ fuel,
      eval .silent p (fuel + 2) o.expr m = (.ok v, m) := by
  rcases o with ⟨⟨form, ty, span⟩, kind⟩
  unfold Operand.IsTruth at ho
  split at ho
  · rename_i name hForm
    cases hForm
    rcases h.truths name ho with ⟨v, b, hv, hb⟩
    exact ⟨v, b, hb, fun fuel => eval_localVar ty span _ hv⟩
  · rename_i name ty' span' hForm
    cases hForm
    rcases h.truths name ho with ⟨v, b, hv, hb⟩
    exact ⟨_, _, rfl, fun fuel => eval_negation ty span
      (eval_localVar ty' span' fuel hv) hb⟩
  · exact ho.elim

/- The truth value of a flag is found. -/
theorem answer_flag
    {l : Live}
    {b : Bool}
    (h : l.value.asBool? = some b) :
    Answers m Bool (flag l) (flag l) := by
  unfold flag
  rw [h]
  exact ⟨b, rfl, rfl⟩

/-
  The action of a probe is found if its operands have values and
  its flags are truth values.
-/
theorem answer_action
    {f g : Operand → Run Live}
    {probe : Probe Operand}
    (hLive : ∀ o ∈ probe.operands, Answers m Live (f o) (g o))
    (hFlag : ∀ o ∈ probe.flags, ∃ l : Live,
      (∃ b, l.value.asBool? = some b) ∧
        f o m = (.ok l, m) ∧ g o m = (.ok l, m)) :
    Answers m (Action Unit Live) (probe.mapM f >>= Probe.toAction)
      (probe.mapM g >>= Probe.toAction) := by
  cases probe with
  | castAttempt value type succeeds =>
    simp only [Probe.mapM, bind_assoc, pure_bind, Probe.toAction]
    refine carries_answer.bind
      (hLive value (by simp [Probe.operands])) fun _ => ?_
    refine answer_bind (hFlag succeeds (by simp [Probe.flags])) ?_
    rintro l ⟨b, hb⟩
    exact carries_answer.map (answer_flag hb) _
  | binary operator lhs rhs result skipped =>
    simp only [Probe.mapM, bind_assoc, pure_bind]
    refine carries_answer.bind
      (hLive lhs (by simp [Probe.operands])) fun _ => ?_
    refine carries_answer.bind
      (hLive rhs (by simp [Probe.operands])) fun _ => ?_
    refine carries_answer.bind
      (hLive result (by simp [Probe.operands])) fun _ => ?_
    cases skipped with
    | none => exact carries_answer.pure _
    | some skipped =>
      simp only [optionMapM, bind_assoc, pure_bind,
        Probe.toAction]
      refine answer_bind (hFlag skipped (by simp [Probe.flags])) ?_
      rintro l ⟨b, hb⟩
      exact carries_answer.map (answer_flag hb) _
  | typeTest tested type result =>
    simp only [Probe.mapM, bind_assoc, pure_bind, Probe.toAction]
    refine carries_answer.bind
      (hLive tested (by simp [Probe.operands])) fun _ => ?_
    refine answer_bind (hFlag result (by simp [Probe.flags])) ?_
    rintro l ⟨b, hb⟩
    exact carries_answer.map (answer_flag hb) _
  | statement s =>
    simp only [Probe.mapM, bind_assoc, pure_bind, Probe.toAction]
    exact carries_answer.map (carries_answer.mapStatement s hLive) _
  | operation o =>
    simp only [Probe.mapM, bind_assoc, pure_bind, Probe.toAction]
    exact carries_answer.map (carries_answer.mapOperation o hLive) _
  | call callee receiver args =>
    simp only [Probe.mapM, bind_assoc, pure_bind, Probe.toAction]
    refine carries_answer.bind (carries_answer.mapOption receiver
      fun o ho => hLive o (List.mem_append_left _ ho)) fun _ => ?_
    exact carries_answer.map (carries_answer.mapList args
      fun o ho => hLive o (List.mem_append_right _ ho)) _
  | enter method => exact ⟨_, rfl, rfl⟩
  | exit method how =>
    simp only [Probe.mapM, bind_assoc, pure_bind, Probe.toAction]
    exact carries_answer.map (carries_answer.mapExit how hLive) _
  | resume cls method how =>
    simp only [Probe.mapM, bind_assoc, pure_bind, Probe.toAction]
    exact carries_answer.map
      (carries_answer.mapResumption how hLive) _

/- A settled probe is ready. -/
theorem Probe.ready_of_settled
    {probe : Probe Operand}
    (h : Γ.Holds m.locals)
    (hProbe : probe.Settled Γ) : probe.Ready p m := by
  suffices hAnswer : ∀ fuel, Answers m (Action Unit Live)
      (probe.take (eval .silent p (0 + 2)))
      (probe.take (eval .silent p (fuel + 2))) by
    rcases hAnswer 0 with ⟨action, hAction, _⟩
    refine ⟨action, fun fuel => ?_⟩
    rcases hAnswer fuel with ⟨action', hFirst, hSecond⟩
    rw [hAction] at hFirst
    cases hFirst
    exact hSecond
  intro fuel
  have hLive : ∀ o ∈ probe.operands, Answers m Live
      (do pure ⟨o, ← eval .silent p (0 + 2) o.expr⟩)
      (do pure ⟨o, ← eval .silent p (fuel + 2) o.expr⟩) := by
    intro o ho
    rcases Operand.value_of_settled h (hProbe.operands o ho) with
      ⟨v, hv⟩
    exact carries_answer.map ⟨v, hv 0, hv fuel⟩ _
  have hFlag : ∀ o ∈ probe.flags, ∃ l : Live,
      (∃ b, l.value.asBool? = some b) ∧
      (do pure (⟨o, ← eval .silent p (0 + 2) o.expr⟩ : Live)) m
        = (.ok l, m) ∧
      (do pure (⟨o, ← eval .silent p (fuel + 2) o.expr⟩ : Live)) m
        = (.ok l, m) := by
    intro o ho
    rcases Operand.truth_of_settled h (hProbe.flags o ho) with
      ⟨v, b, hb, hv⟩
    exact ⟨⟨o, v⟩, ⟨b, hb⟩, bind_ok (hv 0), bind_ok (hv fuel)⟩
  exact answer_action hLive hFlag

end Ready

end ExecTrace
