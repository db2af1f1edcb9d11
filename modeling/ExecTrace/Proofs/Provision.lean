import ExecTrace.Proofs.Congruence
import ExecTrace.Proofs.Passes
import ExecTrace.Proofs.Settling

/-
  Instrumentation provides what its probes read. Whatever is
  spliced into a source program is settled without any knowledge
  of the variables around it: the operands of a probe are bound
  right in front of it, in the same list of statements, and what
  has to be a truth value is the result of a test.

  Main declarations:
    * `Instrument.Makes` and `Instrument.makes_bind`
    * `Instrument.Bound.Sound`, `Instrument.CallSite.Sound`
    * `Instrument.makes_expr` and `Instrument.makes_block`
    * `Instrument.makes_methodBody`
-/

namespace ExecTrace

/- An expression that is settled without any knowledge. -/
def Expr.SettledAnywhere (e : Expr) : Prop :=
  ∀ Γ, e.Settled Γ

/- Statements that are settled without any knowledge. -/
def settledAnywhere (ss : List Stmt) : Prop :=
  ∀ Γ, settledAll Γ ss

namespace Instrument

------------------------------------------------------------
-- Results of Passes
------------------------------------------------------------

/- A pass all of whose results have a property. -/
def Makes
    {α : Type}
    (P : α → Prop)
    (x : Pass α) : Prop :=
  ∀ n a n', x n = .ok (a, n') → P a

section Makes

variable {α β : Type}
variable {P : α → Prop}
variable {Q : β → Prop}

/- The results of a sequence are those of its second part. -/
theorem makes_bind
    {x : Pass α}
    {f : α → Pass β}
    (hx : Makes P x)
    (hf : ∀ a, P a → Makes Q (f a)) : Makes Q (x >>= f) := by
  intro n b n' h
  rcases bind_ok.mp h with ⟨a, k, hFirst, hSecond⟩
  exact hf a (hx n a k hFirst) k b n' hSecond

/- A value is returned. -/
theorem makes_pure
    {a : α}
    (h : P a) : Makes P (pure a : Pass α) := by
  intro n b n' hPure
  rcases pure_ok.mp hPure with ⟨rfl, _⟩
  exact h

/- A failure has no results. -/
theorem makes_fail
    (f : Failure) : Makes P (fail f : Pass α) := by
  intro n b n' h
  exact (fail_ok.mp h).elim

/- Results may be known better than is asked for. -/
theorem makes_weaken
    {P' : α → Prop}
    {x : Pass α}
    (hx : Makes P x)
    (h : ∀ a, P a → P' a) : Makes P' x :=
  fun n a n' hRun => h a (hx n a n' hRun)

/- Nothing may be asked of the results. -/
theorem makes_any (x : Pass α) : Makes (fun _ => True) x :=
  fun _ _ _ _ => trivial

/- What follows has a fresh name. -/
theorem makes_freshName
    {hint : String}
    {f : String → Pass β}
    (hf : ∀ n, Makes Q (f (fresh hint n))) :
    Makes Q (freshName hint >>= f) := by
  refine makes_bind (P := fun x => ∃ n, x = fresh hint n) ?_ ?_
  · intro n x n' h
    exact ⟨n, (freshName_ok.mp h).1.symm⟩
  · rintro _ ⟨n, rfl⟩
    exact hf n

/- What follows has an operand that reports an expression. -/
theorem makes_operand
    {e : Expr}
    {f : Operand → Pass β}
    (hf : Makes Q (f (reporting e))) :
    Makes Q (operand e >>= f) := by
  refine makes_bind (P := fun o => o = reporting e) ?_ ?_
  · intro n o n' h
    exact (operand_ok.mp h).2.1.symm
  · rintro _ rfl
    exact hf

/- What follows has operands that report expressions. -/
theorem makes_operands
    {es : List Expr}
    {f : List Operand → Pass β}
    (hf : Makes Q (f (es.map reporting))) :
    Makes Q (operands es >>= f) := by
  refine makes_bind (P := fun os => os = es.map reporting) ?_ ?_
  · intro n os n' h
    exact (operands_ok h).1.symm
  · rintro _ rfl
    exact hf

/- What follows has an operand if there is an expression. -/
theorem makes_operand?
    {e : Option Expr}
    {f : Option Operand → Pass β}
    (hf : Makes Q (f (e.map reporting))) :
    Makes Q (operand? e >>= f) := by
  refine makes_bind (P := fun o => o = e.map reporting) ?_ ?_
  · intro n o n' h
    exact (operand?_ok h).1.symm
  · rintro _ rfl
    exact hf

/- What follows has a variable that holds a value. -/
theorem makes_bindAs
    {hint : String}
    {ty : Ty}
    {value : Expr}
    {f : Bound → Pass β}
    (hf : ∀ n, Makes Q (f (holding (fresh hint n) ty value))) :
    Makes Q (bindAs hint ty value >>= f) := by
  refine makes_bind
    (P := fun b => ∃ n, b = holding (fresh hint n) ty value) ?_ ?_
  · intro n b n' h
    exact ⟨n, (bindAs_ok.mp h).1.symm⟩
  · rintro _ ⟨n, rfl⟩
    exact hf n

/- What follows has a variable of the type of its value. -/
theorem makes_bindTo
    {hint : String}
    {value : Expr}
    {f : Bound → Pass β}
    (hf : ∀ n,
      Makes Q (f (holding (fresh hint n) value.ty value))) :
    Makes Q (bind hint value >>= f) :=
  makes_bindAs hf

/- Statements are put under a handler that throws again. -/
theorem makes_guarded
    (body : List Stmt)
    (onAbort : Operand → Probe Operand)
    (span : Span) :
    Makes
      (fun s => ∃ n,
        s = ⟨.try body [rethrowing (fresh "exc" n) onAbort span],
          span⟩)
      (guarded body onAbort span) := by
  intro n s n' h
  exact ⟨n, (guarded_ok.mp h).1.symm⟩

/- An accepted expression is what its pass has made. -/
theorem makes_checked
    {P : Expr → Prop}
    {x : Pass Expr}
    (e : Expr)
    (hx : Makes P x) : Makes P (checked e x) := by
  intro n out n' h
  exact hx n out n' (checked_ok.mp h).1

end Makes

------------------------------------------------------------
-- Variables and Probes
------------------------------------------------------------

section Blocks

variable {Γ : Known}
variable {name : String}
variable {ty : Ty}
variable {value rhs e : Expr}
variable {P : Probe Operand}
variable {span : Span}

/- The variable of the left operand is never assigned. -/
@[simp] theorem isFixed_lhs
    (n : Nat) : isFixed (fresh "lhs" n) = true := by
  simp [isFixed, fresh, hidden, List.isPrefixOf]

/- The variable of the result of a call is assigned. -/
@[simp] theorem isFixed_result
    (n : Nat) : isFixed (fresh "result" n) = false := by
  simp [isFixed, fresh, hidden]

/- The declaration of a variable is as settled as its value. -/
@[simp] theorem decl_settled :
    (holding name ty value).decl.Settled Γ ↔ value.Settled Γ :=
  Iff.rfl

/- A variable is known behind its declaration. -/
@[simp] theorem after_decl :
    Γ.after (holding name ty value).decl
      = ⟨name :: Γ.bound, value.truths name⟩ :=
  rfl

/- A variable has no probes. -/
@[simp] theorem read_settled :
    (holding name ty value).read.SettledAnywhere :=
  fun _ => trivial

/- A variable has no probes, whatever is known. -/
@[simp] theorem read_settled_in :
    (holding name ty value).read.Settled Γ :=
  trivial

/- A variable is an operand where it is known. -/
@[simp] theorem operand_settled :
    (reporting (holding name ty value).read).Settled Γ ↔
      name ∈ Γ.bound :=
  Iff.rfl

/- A variable is a truth where it is known to be one. -/
@[simp] theorem operand_isTruth :
    (reporting (holding name ty value).read).IsTruth Γ ↔
      name ∈ Γ.truths :=
  Iff.rfl

/- A negation is an operand where it negates a truth. -/
@[simp] theorem negation_settled :
    (reporting
      (rebuilt e (.unary .not (holding name ty value).read))).Settled
        Γ ↔ name ∈ Γ.truths :=
  Iff.rfl

/- A negation of a truth is a truth. -/
@[simp] theorem negation_isTruth :
    (reporting
      (rebuilt e (.unary .not (holding name ty value).read))).IsTruth
        Γ ↔ name ∈ Γ.truths :=
  Iff.rfl

/- Both operands of a conjunction that has a value are truths. -/
@[simp] theorem truths_and
    {x : String}
    (h : isFixed x = true) :
    (rebuilt e (.binary .and (holding x ty value).read rhs)).truths
      name = [name, x] := by
  simp [Expr.truths, rebuilt, Expr.fixed, holding, h]

/- The left operand of a disjunction that has a value is one. -/
@[simp] theorem truths_or
    {x : String}
    (h : isFixed x = true) :
    (rebuilt e (.binary .or (holding x ty value).read rhs)).truths
      name = [name, x] := by
  simp [Expr.truths, rebuilt, Expr.fixed, holding, h]

/- The result of a test for a type is a truth. -/
@[simp] theorem truths_typeTest
    {target : Ty} :
    (rebuilt e (.typeTest value target)).truths name = [name] :=
  rfl

/- Whether a value can be cast is a truth. -/
@[simp] theorem truths_castable
    {target : Ty} :
    (castable span value target).truths name = [name] :=
  rfl

/- An expression with other parts is as settled as its form. -/
@[simp] theorem rebuilt_settled
    {form : ExprForm} :
    (rebuilt e form).Settled Γ ↔ form.Settled Γ :=
  Iff.rfl

/- A probe is as settled as its action. -/
@[simp] theorem probeAt_settled :
    (probeAt P span).Settled Γ ↔
      (∀ o ∈ P.operands, o.Settled Γ) ∧
        ∀ o ∈ P.flags, o.IsTruth Γ :=
  ⟨fun h => ⟨h.operands, h.flags⟩, fun h => ⟨h.1, h.2⟩⟩

/- A store binds nothing. -/
@[simp] theorem after_store :
    Γ.after (store e value span) = Γ.forget :=
  rfl

/- What is known to be bound is not forgotten. -/
@[simp] theorem bound_forget : Γ.forget.bound = Γ.bound :=
  rfl

/- Statements in front of an expression are in a scope. -/
theorem settled_letIn
    {ss : List Stmt}
    {body : Expr}
    (hStmts : settledAnywhere ss)
    (hBody : body.SettledAnywhere) :
    (Expr.letIn ss body).SettledAnywhere :=
  fun _ => ⟨hStmts _, hBody _⟩

end Blocks

------------------------------------------------------------
-- Conditions and Reads
------------------------------------------------------------

section Reads

/- A probe that has one operand, which is no flag. -/
structure Single (report : Operand → Probe Operand) : Prop where
  operands : ∀ o, (report o).operands = [o]
  flags : ∀ o, (report o).flags = []

/- An operand that reads a known variable. -/
def IsBound
    (Γ : Known)
    (o : Operand) : Prop :=
  ∃ name ty value,
    o = reporting (holding name ty value).read ∧ name ∈ Γ.bound

/- A known variable can be an operand. -/
theorem IsBound.settled
    {Γ : Known}
    {o : Operand}
    (h : IsBound Γ o) : o.Settled Γ := by
  rcases h with ⟨name, ty, value, rfl, hName⟩
  exact hName

/- A variable stays known. -/
theorem IsBound.after
    {Γ : Known}
    {o : Operand}
    (s : Stmt)
    (h : IsBound Γ o) : IsBound (Γ.after s) o := by
  rcases h with ⟨name, ty, value, rfl, hName⟩
  exact ⟨name, ty, value, rfl, Known.mem_after s hName⟩

/- The outcome of a condition is reported. -/
theorem makes_recordCondition
    {span : Span}
    {cond : Expr}
    {report : Operand → Probe Operand}
    (hCond : cond.SettledAnywhere)
    (hReport : Single report) :
    Makes Expr.SettledAnywhere
      (recordCondition span cond report) := by
  refine makes_bindTo fun n => ?_
  refine makes_operand ?_
  refine makes_pure (settled_letIn (fun Γ => ?_) read_settled)
  simp [settledAll, hCond Γ, hReport.operands, hReport.flags]

/- The outcome of the condition of a loop is reported. -/
theorem makes_recordLoopCondition
    {span : Span}
    {cond : Expr}
    (kind : LoopKind)
    (hCond : cond.SettledAnywhere) :
    Makes Expr.SettledAnywhere
      (recordLoopCondition kind span cond) :=
  makes_recordCondition hCond ⟨fun _ => rfl, fun _ => rfl⟩

/-
  The value in a place is reported, whose operands are bound by
  the statements in front of the reading.
-/
theorem makes_recordRead
    {span : Span}
    {before : List Stmt}
    {read : Expr}
    {place : Pass (Place Operand)}
    (hBefore : settledAnywhere before)
    (hRead : read.SettledAnywhere)
    (hPlace : Makes
      (fun p => ∀ Γ, ∀ o ∈ p.operands,
        IsBound (Known.afterAll Γ before) o)
      place) :
    Makes Expr.SettledAnywhere
      (recordRead span before read place) := by
  refine makes_bindTo fun n => ?_
  refine makes_bind hPlace fun p hp => ?_
  refine makes_operand ?_
  refine makes_pure (settled_letIn (fun Γ => ?_) read_settled)
  refine (settledAll_append _ _).mpr ⟨hBefore Γ, ?_⟩
  have hOperands := fun o ho => ((hp Γ o ho).after
    (holding (fresh "read" n) read.ty read).decl).settled
  simp only [after_decl] at hOperands
  simpa [settledAll, hRead _, operationAt, Probe.operands,
    Operation.operands, Probe.flags, or_imp, forall_and]
    using hOperands

/- The value of a field of an object is reported. -/
theorem makes_recordFieldRead
    {e object : Expr}
    {cls field : String}
    (hObject : object.SettledAnywhere) :
    Makes Expr.SettledAnywhere
      (recordFieldRead e object cls field) := by
  refine makes_bindTo fun n => ?_
  refine makes_recordRead ?_ ?_ ?_
  · intro Γ
    simp [settledAll, hObject Γ]
  · exact fun _ => trivial
  · refine makes_operand ?_
    refine makes_pure fun Γ o ho => ?_
    rcases List.mem_singleton.mp ho with rfl
    exact ⟨_, _, _, rfl, by simp [Known.afterAll]⟩

/- The value of an element of an array is reported. -/
theorem makes_recordElementRead
    {e array index : Expr}
    (hArray : array.SettledAnywhere)
    (hIndex : index.SettledAnywhere) :
    Makes Expr.SettledAnywhere
      (recordElementRead e array index) := by
  refine makes_bindTo fun n => ?_
  refine makes_bindTo fun k => ?_
  refine makes_recordRead ?_ ?_ ?_
  · intro Γ
    simp [settledAll, hArray Γ, hIndex _]
  · exact fun _ => ⟨trivial, trivial⟩
  · refine makes_operand ?_
    refine makes_operand ?_
    refine makes_pure fun Γ o ho => ?_
    simp only [Place.operands, List.mem_cons, List.not_mem_nil,
      or_false] at ho
    rcases ho with rfl | rfl <;>
      exact ⟨_, _, _, rfl, by simp [Known.afterAll]⟩

end Reads

------------------------------------------------------------
-- Operators and Types
------------------------------------------------------------

section Operators

variable {e lhs rhs arg : Expr}

/- An operator with one operand is reported. -/
theorem makes_recordUnary
    (op : UnaryOp)
    (hArg : arg.SettledAnywhere) :
    Makes Expr.SettledAnywhere (recordUnary e op arg) := by
  refine makes_bindTo fun n => ?_
  refine makes_bindTo fun k => ?_
  refine makes_operand ?_
  refine makes_operand ?_
  refine makes_pure (settled_letIn (fun Γ => ?_) read_settled)
  simp [settledAll, hArg Γ, ExprForm.Settled, operationAt,
    Probe.operands, Operation.operands, Probe.flags]

/-
  A short-circuit operator is reported. Once it has a result the
  left operand is known to be a truth value.
-/
theorem makes_recordShortCircuit
    (op : BinaryOp)
    (hOp : op.isShortCircuit = true)
    (hLeft : lhs.SettledAnywhere)
    (hRight : rhs.SettledAnywhere) :
    Makes Expr.SettledAnywhere
      (recordShortCircuit e op lhs rhs) := by
  refine makes_bindTo fun n => ?_
  refine makes_bindTo fun k => ?_
  refine makes_operand ?_
  refine makes_operand ?_
  refine makes_operand ?_
  refine makes_pure (settled_letIn (fun Γ => ?_) read_settled)
  have hResult : ExprForm.Settled
      ⟨fresh "lhs" n :: Γ.forget.bound,
        lhs.truths (fresh "lhs" n)⟩
      (.binary op (holding (fresh "lhs" n) lhs.ty lhs).read rhs) :=
    ⟨trivial, hRight _⟩
  cases op with
  | and =>
    simpa [settledAll, hLeft _, Probe.operands, Probe.flags, skips]
      using hResult
  | or =>
    simpa [settledAll, hLeft _, Probe.operands, Probe.flags, skips]
      using hResult
  | _ => cases hOp

/- An operator that needs both operands is reported. -/
theorem makes_recordStrict
    (op : BinaryOp)
    (hLeft : lhs.SettledAnywhere)
    (hRight : rhs.SettledAnywhere) :
    Makes Expr.SettledAnywhere (recordStrict e op lhs rhs) := by
  refine makes_bindTo fun n => ?_
  refine makes_bindTo fun k => ?_
  refine makes_bindTo fun l => ?_
  refine makes_operand ?_
  refine makes_operand ?_
  refine makes_operand ?_
  refine makes_pure (settled_letIn (fun Γ => ?_) read_settled)
  simp [settledAll, hLeft Γ, hRight _, ExprForm.Settled,
    Probe.operands, Probe.flags]

/- An operator with two operands is reported. -/
theorem makes_recordBinary
    (op : BinaryOp)
    (hLeft : lhs.SettledAnywhere)
    (hRight : rhs.SettledAnywhere) :
    Makes Expr.SettledAnywhere (recordBinary e op lhs rhs) := by
  unfold recordBinary
  split
  · exact makes_recordShortCircuit op ‹_› hLeft hRight
  · exact makes_recordStrict op hLeft hRight

/- A cast is reported. -/
theorem makes_recordCast
    (target : Ty)
    (hArg : arg.SettledAnywhere) :
    Makes Expr.SettledAnywhere (recordCast e target arg) := by
  refine makes_bindTo fun n => ?_
  refine makes_bindTo fun k => ?_
  refine makes_operand ?_
  refine makes_operand ?_
  refine makes_pure
    (settled_letIn (fun Γ => ?_) fun _ => trivial)
  have hCastable : ∀ Δ, (castable e.span
      (holding (fresh "casted" n) arg.ty arg).read
      target).Settled Δ :=
    fun _ => ⟨⟨trivial, trivial⟩, trivial⟩
  simp [settledAll, hArg Γ, hCastable, Probe.operands,
    Probe.flags]

/- A test for a type is reported. -/
theorem makes_recordTypeTest
    (target : Ty)
    (hArg : arg.SettledAnywhere) :
    Makes Expr.SettledAnywhere (recordTypeTest e arg target) := by
  refine makes_bindTo fun n => ?_
  refine makes_bindTo fun k => ?_
  refine makes_operand ?_
  refine makes_operand ?_
  refine makes_pure (settled_letIn (fun Γ => ?_) read_settled)
  simp [settledAll, hArg Γ, ExprForm.Settled, Probe.operands,
    Probe.flags]

/- The selector of a switch expression is reported. -/
theorem makes_recordSelector
    {selector : Expr}
    {arms : Pass (List Arm)}
    (hSelector : selector.SettledAnywhere)
    (hArms : Makes (fun as => ∀ Γ, settledArms Γ as) arms) :
    Makes Expr.SettledAnywhere
      (recordSelector e selector arms) := by
  refine makes_bindTo fun n => ?_
  refine makes_operand ?_
  refine makes_bind hArms fun as has => ?_
  refine makes_pure
    (settled_letIn (fun Γ => ?_) fun _ => ⟨trivial, has _⟩)
  simp [settledAll, hSelector Γ, operationAt, Probe.operands,
    Operation.operands, Probe.flags]

end Operators

------------------------------------------------------------
-- Calls
------------------------------------------------------------

section Calls

variable {Γ : Known}
variable {e : Expr}

/- A variable that holds the value of a settled expression. -/
def Bound.Sound (b : Bound) : Prop :=
  ∃ name ty value,
    b = holding name ty value ∧ value.SettledAnywhere

/- The declarations of some variables. -/
theorem settledAll_decls
    {bs : List Bound}
    (h : ∀ b ∈ bs, b.Sound) : settledAll Γ (bs.map Bound.decl) := by
  induction bs generalizing Γ with
  | nil => trivial
  | cons b rest ih =>
    rcases h b List.mem_cons_self with ⟨name, ty, value, rfl, hv⟩
    exact ⟨hv Γ, ih fun b hb => h b (List.mem_cons_of_mem _ hb)⟩

/- Some variables are known behind their declarations. -/
theorem isBound_decls
    {bs : List Bound}
    (h : ∀ b ∈ bs, b.Sound) :
    ∀ o ∈ bs.map fun b => reporting b.read,
      IsBound (Γ.afterAll (bs.map Bound.decl)) o := by
  induction bs generalizing Γ with
  | nil => exact fun o ho => by cases ho
  | cons b rest ih =>
    intro o ho
    rcases List.mem_cons.mp ho with rfl | ho
    · rcases h b List.mem_cons_self with ⟨name, ty, value, rfl, _⟩
      refine ⟨name, ty, value, rfl, ?_⟩
      exact Known.mem_afterAll (rest.map Bound.decl)
        List.mem_cons_self
    · exact ih (fun b hb => h b (List.mem_cons_of_mem _ hb)) o ho

/- Some variables have no probes. -/
theorem settledExprs_reads
    {bs : List Bound}
    (h : ∀ b ∈ bs, b.Sound) :
    settledExprs Γ (bs.map Bound.read) := by
  induction bs with
  | nil => trivial
  | cons b rest ih =>
    rcases h b List.mem_cons_self with ⟨name, ty, value, rfl, _⟩
    exact ⟨trivial, ih fun b hb => h b (List.mem_cons_of_mem _ hb)⟩

/- A call whose parts are bound before they are reported. -/
structure CallSite.Sound (c : CallSite) : Prop where
  before : settledAnywhere c.before
  call : c.call.SettledAnywhere

/- Variables in front of the probe that reports them. -/
theorem settledAll_reported
    {bs : List Bound}
    {callee : Callee}
    {receiver : Option Operand}
    {args : List Operand}
    {span : Span}
    (h : ∀ b ∈ bs, b.Sound)
    (hOperands : receiver.toList ++ args
      = bs.map fun b => reporting b.read) :
    settledAll Γ
      (bs.map Bound.decl
        ++ [probeAt (.call callee receiver args) span]) := by
  refine (settledAll_append _ _).mpr ⟨settledAll_decls h, ?_⟩
  refine ⟨⟨fun o ho => ?_, List.forall_mem_nil _⟩, trivial⟩
  simp only [Probe.operands, hOperands] at ho
  exact (isBound_decls h o ho).settled

/- A call is prepared with its receiver and arguments bound. -/
theorem makes_callSite
    {callee : Callee}
    {receiver : Option Bound}
    {args : List Bound}
    (hReceiver : ∀ b ∈ receiver, b.Sound)
    (hArgs : ∀ b ∈ args, b.Sound) :
    Makes CallSite.Sound (callSite e callee receiver args) := by
  have hAll : ∀ b ∈ receiver.toList ++ args, b.Sound := by
    intro b hb
    rcases List.mem_append.mp hb with hb | hb
    · exact hReceiver b (Option.mem_toList.mp hb)
    · exact hArgs b hb
  refine makes_operand? ?_
  refine makes_operands ?_
  refine makes_pure ⟨fun Γ => ?_, fun Γ => ⟨?_, ?_⟩⟩
  · rw [← List.map_append]
    refine settledAll_reported hAll ?_
    cases receiver <;> simp
  · cases receiver with
    | none => trivial
    | some b =>
      rcases hReceiver b rfl with ⟨name, ty, value, rfl, _⟩
      trivial
  · exact settledExprs_reads hArgs

/- The making of an object is prepared like a call. -/
theorem makes_constructorSite
    {cls signature : String}
    {args : List Bound}
    (hArgs : ∀ b ∈ args, b.Sound) :
    Makes CallSite.Sound
      (constructorSite e cls signature args) := by
  refine makes_operands ?_
  refine makes_pure ⟨fun Γ => ?_, fun Γ => settledExprs_reads hArgs⟩
  exact settledAll_reported hArgs (by simp)

/- The handler that reports what it throws again. -/
theorem settled_rethrowing
    {name : String}
    {onAbort : Operand → Probe Operand}
    {span : Span}
    (hAbort : Single onAbort) :
    settledCatches Γ [rethrowing name onAbort span] := by
  refine ⟨⟨?_, trivial, trivial⟩, trivial⟩
  exact .one (hAbort.operands _) (hAbort.flags _)
    List.mem_cons_self

/- Statements under the handler that throws again. -/
theorem makes_guarded_settled
    {body : List Stmt}
    {onAbort : Operand → Probe Operand}
    {span : Span}
    (hBody : settledAnywhere body)
    (hAbort : Single onAbort) :
    Makes
      (fun s => ∀ Γ, s.Settled Γ ∧ Γ.after s = Γ.forget)
      (guarded body onAbort span) := by
  refine makes_weaken (makes_guarded body onAbort span) ?_
  rintro _ ⟨n, rfl⟩ Γ
  exact ⟨⟨hBody _, settled_rethrowing hAbort⟩, rfl⟩

/- A call for its value is reported, and what it returns. -/
theorem makes_valueCall
    {c : CallSite}
    (hc : c.Sound) :
    Makes Expr.SettledAnywhere (valueCall e c) := by
  refine makes_freshName fun n => ?_
  refine makes_bind (makes_guarded_settled ?_
    ⟨fun _ => rfl, fun _ => rfl⟩) fun call hCall => ?_
  · exact fun Γ =>
      ⟨⟨isFixed_result n, trivial, hc.call _⟩, trivial⟩
  · refine makes_operand ?_
    refine makes_pure (settled_letIn (fun Γ => ?_) fun _ => trivial)
    refine (settledAll_append _ _).mpr ⟨hc.before Γ, trivial, ?_⟩
    refine ⟨(hCall _).1, .one rfl rfl ?_, trivial⟩
    rw [(hCall _).2]
    exact List.mem_cons_self

/- A call without a result is reported, and that it is over. -/
theorem makes_voidCall
    {span : Span}
    {c : CallSite}
    (hc : c.Sound) :
    Makes (fun s => ∀ Γ, s.Settled Γ) (voidCall span c) := by
  refine makes_bind (makes_guarded_settled ?_
    ⟨fun _ => rfl, fun _ => rfl⟩) fun call hCall => ?_
  · exact fun Γ => ⟨hc.call _, trivial⟩
  · refine makes_pure fun Γ => ?_
    refine (settledAll_append _ _).mpr ⟨?_, ?_⟩
    · exact hc.before _
    · exact ⟨(hCall _).1, .bare rfl rfl, trivial⟩

end Calls

------------------------------------------------------------
-- Assignments
------------------------------------------------------------

section Assignments

variable {e value : Expr}
variable {p : BoundPlace}

/-
  A place whose parts are bound before it is used, and that is
  no fixed variable.
-/
structure BoundPlace.Sound (p : BoundPlace) : Prop where
  before : settledAnywhere p.before
  target : p.target.SettledAnywhere
  settable : p.target.Settable
  place : ∀ Γ, ∀ o ∈ p.place.operands,
    IsBound (Known.afterAll Γ p.before) o

/- An assignment is reported after it is made. -/
theorem makes_recordAssign
    (hp : p.Sound)
    (hValue : value.SettledAnywhere) :
    Makes Expr.SettledAnywhere (recordAssign e p value) := by
  refine makes_bindAs fun n => ?_
  refine makes_operand ?_
  refine makes_pure (settled_letIn (fun Γ => ?_) read_settled)
  refine (settledAll_append _ _).mpr ⟨hp.before Γ, hValue _, ?_⟩
  refine ⟨⟨hp.settable, hp.target _, trivial⟩,
    ⟨fun o ho => ?_, List.forall_mem_nil _⟩, trivial⟩
  rcases List.mem_append.mp ho with ho | ho
  · exact (((hp.place Γ o ho).after _).after _).settled
  · rcases List.mem_singleton.mp ho with rfl
    exact List.mem_cons_self

/- The value that a compound assignment makes has no probes. -/
theorem combined_settled
    {span : Span}
    {op : BinaryOp}
    {ty : Ty}
    {old rhs : Expr}
    (hOld : old.SettledAnywhere)
    (hRight : rhs.SettledAnywhere) :
    (combined span op ty old rhs).SettledAnywhere := by
  intro Γ
  unfold combined
  dsimp only
  split
  · exact ⟨hOld Γ, hRight Γ⟩
  · exact ⟨hOld Γ, hRight Γ⟩

/- A compound assignment is reported after it is made. -/
theorem makes_recordCompound
    {x : Pass Expr}
    (op : BinaryOp)
    (hp : p.Sound)
    (hValue : Makes Expr.SettledAnywhere x) :
    Makes Expr.SettledAnywhere (recordCompound e op p x) := by
  refine makes_bindTo fun n => ?_
  refine makes_bind hValue fun value hv => ?_
  refine makes_bindTo fun k => ?_
  refine makes_bindTo fun l => ?_
  refine makes_operand ?_
  refine makes_operand ?_
  refine makes_operand ?_
  refine makes_pure (settled_letIn (fun Γ => ?_) read_settled)
  refine (settledAll_append _ _).mpr ⟨hp.before Γ, ?_⟩
  refine ⟨hp.target _, hv _,
    combined_settled read_settled read_settled _, ?_⟩
  refine ⟨⟨hp.settable, hp.target _, trivial⟩,
    ⟨fun o ho => ?_, List.forall_mem_nil _⟩, trivial⟩
  rcases List.mem_append.mp ho with ho | ho
  · exact ((((hp.place Γ o ho).after _).after _).after _
      |>.after _).settled
  · simp only [List.mem_cons, List.not_mem_nil, or_false] at ho
    rcases ho with rfl | rfl | rfl <;> simp

/- A step is reported after it is made. -/
theorem makes_recordStep
    (op : StepOp)
    (hp : p.Sound) :
    Makes Expr.SettledAnywhere (recordStep e op p) := by
  refine makes_bindTo fun n => ?_
  refine makes_bindTo fun k => ?_
  refine makes_bindTo fun l => ?_
  refine makes_operand ?_
  refine makes_operand ?_
  refine makes_operand ?_
  refine makes_pure (settled_letIn (fun Γ => ?_) read_settled)
  refine (settledAll_append _ _).mpr ⟨hp.before Γ, ?_⟩
  refine ⟨hp.target _, ⟨hp.settable, hp.target _⟩,
    hp.target _, ⟨fun o ho => ?_, List.forall_mem_nil _⟩, trivial⟩
  rcases List.mem_append.mp ho with ho | ho
  · exact (((hp.place Γ o ho).after _).after _ |>.after _).settled
  · simp only [List.mem_cons, List.not_mem_nil, or_false] at ho
    rcases ho with rfl | rfl | rfl <;> simp

end Assignments

------------------------------------------------------------
-- Trees
------------------------------------------------------------

/- Statements taken as one are settled if they are. -/
theorem settled_asOne
    {span : Span}
    {ss : List Stmt}
    (h : settledAnywhere ss)
    (Γ : Known) : (asOne span ss).Settled Γ := by
  rcases ss with _ | ⟨s, _ | ⟨s', rest⟩⟩
  · trivial
  · exact (h Γ).1
  · exact h Γ.forget

/- A loop between its probes. -/
theorem settled_looped
    {kind : LoopKind}
    {span : Span}
    {form : StmtForm}
    (h : ∀ Γ, form.Settled Γ) :
    settledAnywhere (looped kind span form) :=
  fun _ => ⟨.bare rfl rfl, h _, .bare rfl rfl, trivial⟩

/- A value that is bound, reported and then used. -/
theorem settled_reported
    {name : String}
    {ty : Ty}
    {value : Expr}
    {span span' : Span}
    {form : StmtForm}
    (report : Operand → Statement Operand)
    (hValue : value.SettledAnywhere)
    (hReport : ∀ o, (report o).operands = [o])
    (hForm : ∀ Γ, form.Settled Γ) :
    settledAnywhere
      [(holding name ty value).decl,
        statementAt
          (report (reporting (holding name ty value).read)) span,
        ⟨form, span'⟩] := by
  intro Γ
  exact ⟨hValue Γ, .one (hReport _) rfl List.mem_cons_self,
    hForm _, trivial⟩

mutual

/- An instrumented expression is settled. -/
theorem makes_expr
    (o : Options)
    (site : Site) :
    ∀ e : Expr, e.passes Test.source = true →
      Makes Expr.SettledAnywhere (expr o site e)
  | ⟨form, ty, span⟩, h => by
    unfold expr
    refine makes_checked _ ?_
    have hForm := h
    simp only [Expr.passes, Bool.and_eq_true] at hForm
    exact makes_exprForm o site ⟨form, ty, span⟩ form
      (fun Γ => Expr.settled_of_source Γ _ h) hForm.2

/- An instrumented form of expressions is settled. -/
theorem makes_exprForm
    (o : Options)
    (site : Site)
    (e : Expr) :
    ∀ form, e.SettledAnywhere → form.passes Test.source = true →
      Makes Expr.SettledAnywhere (exprForm o site e form)
  | .literal _, he, _ => makes_pure he
  | .self, he, _ => makes_pure he
  | .letIn _ _, he, _ => makes_pure he
  | .localVar name, he, _ => by
    unfold exprForm
    split
    · exact makes_recordRead (fun _ => trivial) he
        (makes_pure fun _ => List.forall_mem_nil _)
    · exact makes_pure he
  | .staticField cls field, he, _ => by
    unfold exprForm
    split
    · exact makes_recordRead (fun _ => trivial) he
        (makes_pure fun _ => List.forall_mem_nil _)
    · exact makes_pure he
  | .instanceField object cls field, _, h => by
    unfold exprForm
    refine makes_bind (makes_expr o site object h) fun x hx => ?_
    split
    · exact makes_recordFieldRead hx
    · exact makes_pure fun Γ => hx Γ
  | .index array index, _, h => by
    simp only [ExprForm.passes, Bool.and_eq_true] at h
    unfold exprForm
    refine makes_bind (makes_expr o site array h.1) fun x hx => ?_
    refine makes_bind (makes_expr o site index h.2) fun y hy => ?_
    split
    · exact makes_recordElementRead hx hy
    · exact makes_pure fun Γ => ⟨hx Γ, hy Γ⟩
  | .length array, _, h =>
    makes_bind (makes_expr o site array h) fun _ hx =>
      makes_pure fun Γ => hx Γ
  | .unary op arg, _, h => by
    unfold exprForm
    refine makes_bind (makes_expr o site arg h) fun x hx => ?_
    split
    · exact makes_recordUnary op hx
    · exact makes_pure fun Γ => hx Γ
  | .binary op lhs rhs, _, h => by
    simp only [ExprForm.passes, Bool.and_eq_true] at h
    unfold exprForm
    refine makes_bind (makes_expr o site lhs h.1) fun x hx => ?_
    refine makes_bind (makes_expr o site rhs h.2) fun y hy => ?_
    split
    · exact makes_recordBinary op hx hy
    · exact makes_pure fun Γ => ⟨hx Γ, hy Γ⟩
  | .conditional cond onTrue onFalse, _, h => by
    simp only [ExprForm.passes, Bool.and_eq_true] at h
    unfold exprForm
    refine makes_bind (makes_expr o site cond h.1.1) fun x hx => ?_
    refine makes_bind (makes_recordCondition hx
      ⟨fun _ => rfl, fun _ => rfl⟩) fun c hc => ?_
    refine makes_bind (makes_expr o site onTrue h.1.2)
      fun y hy => ?_
    refine makes_bind (makes_expr o site onFalse h.2)
      fun z hz => ?_
    exact makes_pure fun Γ => ⟨hc Γ, hy Γ, hz Γ⟩
  | .assign target value, _, h => by
    simp only [ExprForm.passes, Bool.and_eq_true] at h
    unfold exprForm
    refine makes_bind (makes_place o site target h.1) fun p hp => ?_
    refine makes_bind (makes_expr o site value h.2) fun x hx => ?_
    exact makes_recordAssign hp hx
  | .compoundAssign op target value, _, h => by
    simp only [ExprForm.passes, Bool.and_eq_true] at h
    unfold exprForm
    refine makes_bind (makes_place o site target h.1) fun p hp => ?_
    exact makes_recordCompound op hp (makes_expr o site value h.2)
  | .step op target, _, h => by
    unfold exprForm
    refine makes_bind (makes_place o site target h) fun p hp => ?_
    exact makes_recordStep op hp
  | .call callee receiver args, _, h => by
    simp only [ExprForm.passes, Bool.and_eq_true] at h
    unfold exprForm
    split
    · exact makes_fail _
    · refine makes_bind (makes_boundReceiver o site receiver h.1)
        fun r hr => ?_
      refine makes_bind (makes_boundArgs o site args h.2)
        fun as has => ?_
      refine makes_bind (makes_callSite hr has) fun c hc => ?_
      exact makes_valueCall hc
  | .new cls signature args, _, h => by
    unfold exprForm
    refine makes_bind (makes_boundArgs o site args h)
      fun as has => ?_
    refine makes_bind (makes_constructorSite has) fun c hc => ?_
    exact makes_valueCall hc
  | .newArray element length, _, h =>
    makes_bind (makes_expr o site length h) fun _ hx =>
      makes_pure fun Γ => hx Γ
  | .arrayOf element items, _, h =>
    makes_bind (makes_exprs o site items h) fun _ hx =>
      makes_pure fun Γ => hx Γ
  | .cast target arg, _, h => by
    unfold exprForm
    refine makes_bind (makes_expr o site arg h) fun x hx => ?_
    split
    · exact makes_recordCast target hx
    · exact makes_pure fun Γ => hx Γ
  | .typeTest arg target, _, h => by
    unfold exprForm
    refine makes_bind (makes_expr o site arg h) fun x hx => ?_
    exact makes_recordTypeTest target hx
  | .switch selector armList, _, h => by
    simp only [ExprForm.passes, Bool.and_eq_true] at h
    unfold exprForm
    refine makes_bind (makes_expr o site selector h.1)
      fun x hx => ?_
    exact makes_recordSelector hx (makes_arms o _ armList h.2)

/- Instrumented expressions are settled. -/
theorem makes_exprs
    (o : Options)
    (site : Site) :
    ∀ es : List Expr, passExprs Test.source es = true →
      Makes (fun es => ∀ Γ, settledExprs Γ es) (exprs o site es)
  | [], _ => makes_pure fun _ => trivial
  | e :: rest, h => by
    simp only [passExprs, Bool.and_eq_true] at h
    refine makes_bind (makes_expr o site e h.1) fun x hx => ?_
    refine makes_bind (makes_exprs o site rest h.2)
      fun xs hxs => ?_
    exact makes_pure fun Γ => ⟨hx Γ, hxs Γ⟩

/- An optional instrumented expression is settled. -/
theorem makes_expr?
    (o : Options)
    (site : Site) :
    ∀ e : Option Expr, passOption Test.source e = true →
      Makes (fun e => ∀ Γ, settledOption Γ e) (expr? o site e)
  | none, _ => makes_pure fun _ => trivial
  | some e, h =>
    makes_bind (makes_expr o site e h) fun _ hx =>
      makes_pure fun Γ => hx Γ

/- The receiver of a call is bound. -/
theorem makes_boundReceiver
    (o : Options)
    (site : Site) :
    ∀ e : Option Expr, passOption Test.source e = true →
      Makes (fun r => ∀ b ∈ r, Bound.Sound b)
        (boundReceiver o site e)
  | none, _ => makes_pure fun _ h => by cases h
  | some e, h => by
    refine makes_bind (makes_expr o site e h) fun x hx => ?_
    refine makes_bindTo fun n => ?_
    refine makes_pure ?_
    rintro _ ⟨⟩
    exact ⟨_, _, _, rfl, hx⟩

/- The arguments of a call are bound. -/
theorem makes_boundArgs
    (o : Options)
    (site : Site) :
    ∀ es : List Expr, passExprs Test.source es = true →
      Makes (fun bs => ∀ b ∈ bs, Bound.Sound b)
        (boundArgs o site es)
  | [], _ => makes_pure (List.forall_mem_nil _)
  | e :: rest, h => by
    simp only [passExprs, Bool.and_eq_true] at h
    refine makes_bind (makes_expr o site e h.1) fun x hx => ?_
    refine makes_bindTo fun n => ?_
    refine makes_bind (makes_boundArgs o site rest h.2)
      fun bs hbs => ?_
    refine makes_pure fun b hb => ?_
    rcases List.mem_cons.mp hb with rfl | hb
    · exact ⟨_, _, _, rfl, hx⟩
    · exact hbs b hb

/- The parts of a place are bound. -/
theorem makes_place
    (o : Options)
    (site : Site) :
    ∀ e : Expr, e.passes Test.source = true →
      Makes BoundPlace.Sound (place o site e)
  | ⟨form, ty, span⟩, h => by
    cases form with
    | localVar name =>
      exact makes_pure
        ⟨fun _ => trivial, fun _ => trivial,
          Expr.settable_of_source h, fun _ => List.forall_mem_nil _⟩
    | staticField cls field =>
      exact makes_pure
        ⟨fun _ => trivial, fun _ => trivial, trivial,
          fun _ => List.forall_mem_nil _⟩
    | instanceField object cls field =>
      simp only [Expr.passes, Bool.and_eq_true] at h
      unfold place
      refine makes_bind (makes_expr o site object h.2)
        fun x hx => ?_
      refine makes_bindTo fun n => ?_
      refine makes_operand ?_
      refine makes_pure
        ⟨fun Γ => ⟨hx Γ, trivial⟩, fun _ => trivial, trivial, ?_⟩
      intro Γ o ho
      rcases List.mem_singleton.mp ho with rfl
      exact ⟨_, _, _, rfl, by simp [Known.afterAll]⟩
    | index array index =>
      simp only [Expr.passes, ExprForm.passes, Bool.and_eq_true]
        at h
      unfold place
      refine makes_bind (makes_expr o site array h.2.1)
        fun x hx => ?_
      refine makes_bindTo fun n => ?_
      refine makes_bind (makes_expr o site index h.2.2)
        fun y hy => ?_
      refine makes_bindTo fun k => ?_
      refine makes_operand ?_
      refine makes_operand ?_
      refine makes_pure
        ⟨fun Γ => ⟨hx Γ, hy _, trivial⟩,
          fun _ => ⟨trivial, trivial⟩, trivial, ?_⟩
      intro Γ o ho
      simp only [Place.operands, List.mem_cons, List.not_mem_nil,
        or_false] at ho
      rcases ho with rfl | rfl <;>
        exact ⟨_, _, _, rfl, by simp [Known.afterAll]⟩
    | _ => exact makes_fail _

/- The arms of an instrumented switch are settled. -/
theorem makes_arms
    (o : Options)
    (site : Site) :
    ∀ as : List Arm, passArms Test.source as = true →
      Makes (fun as => ∀ Γ, settledArms Γ as) (arms o site as)
  | [], _ => makes_pure fun _ => trivial
  | ⟨labels, body⟩ :: rest, h => by
    simp only [passArms, Bool.and_eq_true] at h
    refine makes_bind (makes_block o site body h.1)
      fun ss hss => ?_
    refine makes_bind (makes_arms o site rest h.2)
      fun as has => ?_
    exact makes_pure fun Γ => ⟨hss _, has Γ⟩

/- An instrumented form of statements is settled. -/
theorem makes_stmtForm
    (o : Options)
    (site : Site)
    (span : Span) :
    ∀ form, Test.source.stmt ⟨form, span⟩ = true →
      form.passes Test.source = true →
      Makes settledAnywhere (stmtForm o site span form)
  | .declare name ty none, _, _ =>
    makes_pure fun _ => ⟨.bare rfl rfl, trivial, trivial⟩
  | .declare name ty (some init), _, h => by
    unfold stmtForm
    refine makes_bind (makes_expr o site init h) fun x hx => ?_
    refine makes_bindAs fun n => ?_
    refine makes_operand ?_
    refine makes_pure fun Γ => ⟨.bare rfl rfl, ?_, trivial⟩
    refine settled_letIn (fun Δ => ?_) read_settled _
    exact ⟨hx Δ, .one rfl rfl List.mem_cons_self, trivial⟩
  | .expr e, _, h => by
    unfold stmtForm
    refine makes_bind (makes_discarded o site span e h)
      fun s hs => ?_
    exact makes_pure fun Γ => ⟨.bare rfl rfl, hs _, trivial⟩
  | .block stmts, _, h => by
    unfold stmtForm
    refine makes_bind (makes_block o site stmts h)
      fun ss hss => ?_
    exact makes_pure fun Γ => ⟨hss _, trivial⟩
  | .cond cond onTrue onFalse, _, h => by
    simp only [StmtForm.passes, Bool.and_eq_true] at h
    unfold stmtForm
    refine makes_bind (makes_expr o site cond h.1.1) fun x hx => ?_
    refine makes_bind (makes_recordCondition hx
      ⟨fun _ => rfl, fun _ => rfl⟩) fun c hc => ?_
    refine makes_bind (makes_single o site onTrue h.1.2)
      fun s hs => ?_
    refine makes_bind (makes_single? o site onFalse h.2)
      fun t ht => ?_
    exact makes_pure fun Γ => ⟨⟨hc Γ, hs _, ht _⟩, trivial⟩
  | .while label cond body, _, h => by
    simp only [StmtForm.passes, Bool.and_eq_true] at h
    unfold stmtForm
    refine makes_bind (makes_expr o _ cond h.1) fun x hx => ?_
    refine makes_bind (makes_recordLoopCondition _ hx)
      fun c hc => ?_
    refine makes_bind (makes_single o _ body h.2) fun s hs => ?_
    exact makes_pure (settled_looped fun Γ => ⟨hc Γ, hs _⟩)
  | .doWhile label body cond, _, h => by
    simp only [StmtForm.passes, Bool.and_eq_true] at h
    unfold stmtForm
    refine makes_bind (makes_single o _ body h.1) fun s hs => ?_
    refine makes_bind (makes_expr o _ cond h.2) fun x hx => ?_
    refine makes_bind (makes_recordLoopCondition _ hx)
      fun c hc => ?_
    exact makes_pure (settled_looped fun Γ => ⟨hs _, hc Γ⟩)
  | .for label init cond update body, _, h => by
    simp only [StmtForm.passes, Bool.and_eq_true] at h
    unfold stmtForm
    refine makes_bind (makes_block o site init h.1.1.1)
      fun ss hss => ?_
    refine makes_bind (makes_forCondition o _ cond h.1.1.2)
      fun c hc => ?_
    refine makes_bind (makes_exprs o _ update h.1.2)
      fun us hus => ?_
    refine makes_bind (makes_single o _ body h.2) fun s hs => ?_
    exact makes_pure
      (settled_looped fun Γ => ⟨hss _, hc Γ, hus Γ, hs _⟩)
  | .forEach label var ty iterable body, _, h => by
    simp only [StmtForm.passes, Bool.and_eq_true] at h
    unfold stmtForm
    refine makes_bind (makes_expr o site iterable h.1)
      fun x hx => ?_
    refine makes_operand ?_
    refine makes_bind (makes_single o _ body h.2) fun s hs => ?_
    refine makes_pure (settled_looped fun Γ => ⟨hx Γ, ?_⟩)
    exact ⟨.one rfl rfl List.mem_cons_self, hs _, trivial⟩
  | .switch selector armList, _, h => by
    simp only [StmtForm.passes, Bool.and_eq_true] at h
    unfold stmtForm
    refine makes_bind (makes_expr o site selector h.1)
      fun x hx => ?_
    refine makes_bindTo fun n => ?_
    refine makes_operand ?_
    refine makes_bind (makes_arms o _ armList h.2) fun as has => ?_
    exact makes_pure (settled_reported .switch hx
      (fun _ => rfl) fun Γ => ⟨trivial, has Γ⟩)
  | .return none, _, _ =>
    makes_pure fun _ =>
      ⟨.bare rfl rfl, .bare rfl rfl, trivial, trivial⟩
  | .return (some value), _, h => by
    unfold stmtForm
    refine makes_bind (makes_expr o site value h) fun x hx => ?_
    refine makes_bindAs fun n => ?_
    refine makes_operand ?_
    exact makes_pure fun Γ => ⟨hx Γ, .bare rfl rfl,
      .one rfl rfl List.mem_cons_self, trivial, trivial⟩
  | .break label, _, _ => by
    unfold stmtForm
    refine makes_bind (makes_any _) fun _ _ => ?_
    exact makes_pure fun _ => ⟨.bare rfl rfl, trivial, trivial⟩
  | .continue label, _, _ => by
    unfold stmtForm
    refine makes_bind (makes_any _) fun _ _ => ?_
    exact makes_pure fun _ => ⟨.bare rfl rfl, trivial, trivial⟩
  | .yield value, _, h => by
    unfold stmtForm
    refine makes_bind (makes_any _) fun _ _ => ?_
    refine makes_bind (makes_expr o site value h) fun x hx => ?_
    refine makes_bindTo fun n => ?_
    refine makes_operand ?_
    exact makes_pure (settled_reported (fun o => .yield o _) hx
      (fun _ => rfl) fun _ => trivial)
  | .throw exception, _, h => by
    unfold stmtForm
    refine makes_bind (makes_expr o site exception h)
      fun x hx => ?_
    refine makes_bindTo fun n => ?_
    refine makes_operand ?_
    exact makes_pure (settled_reported .throw hx
      (fun _ => rfl) fun _ => trivial)
  | .try body handlers, _, h => by
    simp only [StmtForm.passes, Bool.and_eq_true] at h
    unfold stmtForm
    refine makes_bind (makes_block o site body h.1)
      fun ss hss => ?_
    refine makes_bind (makes_catches o site handlers h.2)
      fun cs hcs => ?_
    exact makes_pure fun Γ => ⟨⟨hss _, hcs Γ⟩, trivial⟩
  | .assert cond message, _, h => by
    simp only [StmtForm.passes, Bool.and_eq_true] at h
    unfold stmtForm
    refine makes_bind (makes_expr o site cond h.1) fun x hx => ?_
    refine makes_bindTo fun n => ?_
    refine makes_operand ?_
    refine makes_bind (makes_expr? o site message h.2)
      fun y hy => ?_
    exact makes_pure (settled_reported (fun o => .assertion o _)
      hx (fun _ => rfl) fun Γ => ⟨trivial, hy Γ⟩)
  | .superCall signature args, _, h => by
    unfold stmtForm
    refine makes_bind (makes_exprs o site args h) fun xs hxs => ?_
    exact makes_pure fun Γ => ⟨hxs Γ, trivial⟩
  | .probe _, hNone, _ => by cases hNone

/- The parts of a call are bound. -/
theorem makes_parts
    (o : Options)
    (site : Site) :
    ∀ (form : ExprForm) callee receiver args,
      form = .call callee receiver args →
      form.passes Test.source = true →
      Makes (fun r => ∀ b ∈ r, Bound.Sound b)
          (boundReceiver o site receiver) ∧
        Makes (fun bs => ∀ b ∈ bs, Bound.Sound b)
          (boundArgs o site args)
  | .call _ receiver args, _, _, _, rfl, h => by
    simp only [ExprForm.passes, Bool.and_eq_true] at h
    exact ⟨makes_boundReceiver o site receiver h.1,
      makes_boundArgs o site args h.2⟩

/- An instrumented discarded expression is settled. -/
theorem makes_discarded
    (o : Options)
    (site : Site)
    (span : Span) :
    ∀ e : Expr, e.passes Test.source = true →
      Makes (fun s => ∀ Γ, s.Settled Γ) (discarded o site span e)
  | ⟨form, ty, pos⟩, h => by
    have hPasses := h
    simp only [Expr.passes, Bool.and_eq_true] at hPasses
    have hParts := makes_parts o site form
    have hForm := makes_exprForm o site ⟨form, ty, pos⟩ form
      (fun Γ => Expr.settled_of_source Γ _ h) hPasses.2
    unfold discarded
    split
    · rename_i hCall
      cases hCall
      rcases hParts _ _ _ rfl hPasses.2 with ⟨hReceiver, hArgs⟩
      refine makes_bind hReceiver fun r hr => ?_
      refine makes_bind hArgs fun as has => ?_
      refine makes_bind (makes_callSite hr has) fun c hc => ?_
      exact makes_voidCall hc
    · rename_i hOther
      cases hOther
      refine makes_bind (makes_checked _ hForm) fun x hx => ?_
      exact makes_pure fun Γ => hx Γ

/- The instrumented condition of a loop is settled. -/
theorem makes_forCondition
    (o : Options)
    (site : Site) :
    ∀ e : Option Expr, passOption Test.source e = true →
      Makes (fun e => ∀ Γ, settledOption Γ e)
        (forCondition o site e)
  | none, _ => makes_pure fun _ => trivial
  | some cond, h => by
    unfold forCondition
    refine makes_bind (makes_expr o site cond h) fun x hx => ?_
    refine makes_bind (makes_recordLoopCondition _ hx)
      fun c hc => ?_
    exact makes_pure fun Γ => hc Γ

/- An instrumented single statement is settled. -/
theorem makes_single
    (o : Options)
    (site : Site) :
    ∀ s : Stmt, s.passes Test.source = true →
      Makes (fun s => ∀ Γ, s.Settled Γ) (single o site s)
  | ⟨form, span⟩, h => by
    simp only [Stmt.passes, Bool.and_eq_true] at h
    unfold single
    refine makes_bind (makes_stmtForm o site span form h.1 h.2)
      fun ss hss => ?_
    exact makes_pure (settled_asOne hss)

/- An optional instrumented statement is settled. -/
theorem makes_single?
    (o : Options)
    (site : Site) :
    ∀ s : Option Stmt, passStmt? Test.source s = true →
      Makes (fun s => ∀ Γ, settledStmt? Γ s) (single? o site s)
  | none, _ => makes_pure fun _ => trivial
  | some s, h =>
    makes_bind (makes_single o site s h) fun _ hs =>
      makes_pure fun Γ => hs Γ

/- Instrumented statements are settled. -/
theorem makes_block
    (o : Options)
    (site : Site) :
    ∀ ss : List Stmt, passStmts Test.source ss = true →
      Makes settledAnywhere (block o site ss)
  | [], _ => makes_pure fun _ => trivial
  | ⟨form, span⟩ :: rest, h => by
    simp only [passStmts, Stmt.passes, Bool.and_eq_true] at h
    unfold block stmt
    refine makes_bind (makes_stmtForm o site span form h.1.1 h.1.2)
      fun ss hss => ?_
    refine makes_bind (makes_block o site rest h.2)
      fun ts hts => ?_
    exact makes_pure fun Γ =>
      (settledAll_append ss ts).mpr ⟨hss Γ, hts _⟩

/- Instrumented handlers are settled. -/
theorem makes_catches
    (o : Options)
    (site : Site) :
    ∀ cs : List Catch, passCatches Test.source cs = true →
      Makes (fun cs => ∀ Γ, settledCatches Γ cs)
        (catches o site cs)
  | [], _ => makes_pure fun _ => trivial
  | ⟨param, ty, body, span⟩ :: rest, h => by
    simp only [passCatches, Bool.and_eq_true] at h
    unfold catches
    refine makes_operand ?_
    refine makes_bind (makes_block o site body h.1)
      fun ss hss => ?_
    refine makes_bind (makes_catches o site rest h.2)
      fun cs hcs => ?_
    exact makes_pure fun Γ =>
      ⟨⟨.one rfl rfl List.mem_cons_self, hss _⟩, hcs Γ⟩

end

------------------------------------------------------------
-- Methods
------------------------------------------------------------

section Methods

variable {body : List Stmt}

/- The super call at the start of a constructor is settled. -/
theorem makes_superFirst
    (o : Options)
    (site : Site)
    (m : MethodDef)
    (h : passStmts Test.source body = true) :
    Makes
      (fun r => settledAnywhere r.1 ∧
        passStmts Test.source r.2 = true)
      (superFirst o site m body) := by
  unfold superFirst
  split
  · rename_i signature args span rest
    split
    · have hParts := h
      simp only [passStmts, Stmt.passes, Bool.and_eq_true]
        at hParts
      refine makes_bind (makes_stmtForm o site span _
        hParts.1.1 hParts.1.2) fun ss hss => ?_
      exact makes_pure ⟨hss, hParts.2⟩
    · exact makes_pure ⟨fun _ => trivial, h⟩
  · exact makes_pure ⟨fun _ => trivial, h⟩

/- The probe at the end of a body has no operands. -/
theorem settled_endOfBody
    (m : MethodDef) : settledAnywhere (endOfBody m) := by
  unfold endOfBody
  split
  · exact fun _ => ⟨.bare rfl rfl, trivial⟩
  · exact fun _ => trivial

/- The body of an instrumented method is settled. -/
theorem makes_methodBody
    (o : Options)
    (cls : String)
    (m : MethodDef)
    (h : passStmts Test.source body = true) :
    Makes settledAnywhere (methodBody o cls m body) := by
  unfold methodBody
  refine makes_bind (makes_superFirst o _ m h) ?_
  rintro ⟨first, rest⟩ ⟨hFirst, hRest⟩
  refine makes_bind (makes_block o _ rest hRest)
    fun inner hInner => ?_
  refine makes_bind (makes_guarded_settled (fun Γ => ?_)
    ⟨fun _ => rfl, fun _ => rfl⟩) fun run hRun => ?_
  · exact (settledAll_append _ _).mpr
      ⟨hInner Γ, settled_endOfBody m _⟩
  · refine makes_pure fun Γ => ?_
    refine (settledAll_append _ _).mpr ⟨hFirst Γ, ?_⟩
    exact ⟨.bare rfl rfl, (hRun _).1, trivial⟩

/- A method whose body, if it has one, is settled. -/
def Provided (m : MethodDef) : Prop :=
  ∀ body ∈ m.body, settledAnywhere body

/- A source method is provided, whether instrumented or not. -/
theorem provided_of_source
    {m : MethodDef}
    (h : m.passes Test.source = true) : Provided m := by
  intro body hBody
  simp only [MethodDef.passes, Bool.and_eq_true] at h
  rw [hBody] at h
  exact fun Γ => settledAll_of_source Γ body h.2

/- An instrumented method is provided. -/
theorem makes_method
    (o : Options)
    (cls : String)
    {m : MethodDef}
    (h : m.passes Test.source = true) :
    Makes Provided (method o cls m) := by
  unfold method
  split
  · exact makes_pure (provided_of_source h)
  · rename_i body hBody
    simp only [MethodDef.passes, hBody, Bool.and_eq_true] at h
    refine makes_bind (makes_methodBody o cls m h.2)
      fun ss hss => ?_
    refine makes_pure ?_
    rintro _ ⟨⟩
    exact hss

/- The results of a pass for each of some things. -/
theorem makes_mapM
    {α β : Type}
    {Q : β → Prop}
    {f : α → Pass β}
    {as : List α}
    (h : ∀ a ∈ as, Makes Q (f a)) :
    Makes (fun bs => ∀ b ∈ bs, Q b) (as.mapM f) := by
  induction as with
  | nil =>
    rw [List.mapM_nil]
    exact makes_pure (List.forall_mem_nil _)
  | cons a rest ih =>
    rw [List.mapM_cons]
    refine makes_bind (h a List.mem_cons_self) fun b hb => ?_
    refine makes_bind
      (ih fun a ha => h a (List.mem_cons_of_mem _ ha))
      fun bs hbs => ?_
    refine makes_pure fun c hc => ?_
    rcases List.mem_cons.mp hc with rfl | hc
    · exact hb
    · exact hbs c hc

/- The methods of an instrumented class are provided. -/
theorem makes_classDef
    (o : Options)
    (exclusions : List Pattern)
    {c : ClassDef}
    (h : ∀ m ∈ c.methods, m.passes Test.source = true) :
    Makes (fun c => ∀ m ∈ c.methods, Provided m)
      (classDef o exclusions c) := by
  unfold classDef
  split
  · exact makes_pure fun m hm => provided_of_source (h m hm)
  · refine makes_bind
      (makes_mapM fun m hm => makes_method o c.name (h m hm))
      fun ms hms => ?_
    exact makes_pure hms

end Methods

end Instrument

open Instrument in
/- The methods of an instrumented source program are provided. -/
theorem provided_of_instrument
    {o : Options}
    {p q : Program}
    (hSource : p.passes Test.source = true)
    (hInstrument : instrument o p = .ok q) :
    ∀ c m, q.Declares c m → Provided m := by
  simp only [Program.passes, List.all_eq_true] at hSource
  unfold instrument at hInstrument
  split at hInstrument
  · cases hInstrument
  · rename_i exclusions hExclusions
    split at hInstrument
    · rename_i classes k hRun
      cases hInstrument
      have hClasses := makes_mapM
        (fun c hc => makes_classDef o exclusions (hSource c hc))
        _ _ _ hRun
      exact fun c m h => hClasses c h.1 m h.2
    · cases hInstrument

end ExecTrace
