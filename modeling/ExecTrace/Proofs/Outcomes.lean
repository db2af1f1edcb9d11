import ExecTrace.Proofs.Splicing.Assignments

/-
  Outcomes of passes. A pass meets a demand if it fails only in
  ways that are allowed and if what it gives fits. An operand
  can be reported unless its type is `void`, so that whatever is
  built around operands meets a demand on their types only. What
  is spliced has the type of what it stands for.

  Main declarations:
    * `Instrument.Meets` and `Instrument.Meets.bind`
    * `Instrument.Valued` and `Instrument.meets_reported`
    * `Instrument.meets_recordRead` and its companions
    * `Instrument.meets_mapM`
-/

namespace ExecTrace.Instrument

------------------------------------------------------------
-- Demands
------------------------------------------------------------

/-
  Whether a pass fails only in ways that are allowed, and gives
  only what fits, whatever names were handed out before.
-/
def Meets
    {α : Type}
    (allows : Failure → Prop)
    (fits : α → Prop)
    (x : Pass α) : Prop :=
  ∀ n,
    match x n with
    | .ok (a, _) => fits a
    | .error f => allows f

/-
  Whether values of a type can be reported: there are some, or
  it is allowed to fail at an operand without a value.
-/
def Valued
    (allows : Failure → Prop)
    (ty : Ty) : Prop :=
  ty = .void → ∀ e, allows (.voidOperand e)

/- There are values of all types but one. -/
theorem valued_of_ne_void
    {allows : Failure → Prop}
    {ty : Ty}
    (h : ty ≠ .void) : Valued allows ty :=
  fun hVoid => absurd hVoid h

section Demands

variable {α β : Type}
variable {allows : Failure → Prop}
variable {fits : α → Prop}

/- A value that fits is given. -/
theorem meets_pure
    {a : α}
    (h : fits a) : Meets allows fits (pure a) :=
  fun _ => h

/- A pass may fail as allowed. -/
theorem meets_fail
    {f : Failure}
    (h : allows f) : Meets allows fits (fail f) :=
  fun _ => h

/- A sequence meets what its second part meets. -/
theorem Meets.bind
    {between : β → Prop}
    {x : Pass β}
    {f : β → Pass α}
    (hx : Meets allows between x)
    (hf : ∀ b, between b → Meets allows fits (f b)) :
    Meets allows fits (x >>= f) := by
  intro n
  have hFirst := hx n
  change match (x n).bind fun (b, k) => f b k with
    | .ok (a, _) => fits a
    | .error f => allows f
  cases hResult : x n with
  | error c =>
    rw [hResult] at hFirst
    exact hFirst
  | ok r =>
    rw [hResult] at hFirst
    exact hf r.1 hFirst r.2

/- What fits more is given by what is given. -/
theorem Meets.weaken
    {fits' : α → Prop}
    {x : Pass α}
    (hx : Meets allows fits x)
    (h : ∀ a, fits a → fits' a) : Meets allows fits' x := by
  intro n
  have hOutcome := hx n
  cases hResult : x n with
  | error c =>
    rw [hResult] at hOutcome
    exact hOutcome
  | ok r =>
    rw [hResult] at hOutcome
    exact h r.1 hOutcome

/- What is known anyway holds of what is given. -/
theorem Meets.also
    {known : Prop}
    {x : Pass α}
    (hx : Meets allows fits x)
    (h : known) : Meets allows (fun a => fits a ∧ known) x :=
  hx.weaken fun _ hFits => ⟨hFits, h⟩

/- A pass that succeeds gives what fits. -/
theorem Meets.fits_of_ok
    {x : Pass α}
    {a : α}
    {n n' : Nat}
    (hx : Meets allows fits x)
    (h : x n = .ok (a, n')) : fits a := by
  have hOutcome := hx n
  rw [h] at hOutcome
  exact hOutcome

/- Whether all of a list fits is met item by item. -/
theorem meets_mapM
    {items : List β}
    {f : β → Pass α}
    {fits : β → Prop}
    (h : ∀ b ∈ items, Meets allows (fun _ => fits b) (f b)) :
    Meets allows (fun _ => ∀ b ∈ items, fits b)
      (items.mapM f) := by
  induction items with
  | nil =>
    rw [List.mapM_nil]
    apply meets_pure
    intro b hb
    cases hb
  | cons b rest ih =>
    rw [List.mapM_cons]
    apply (h b List.mem_cons_self).bind
    intro _ hFirst
    apply (ih fun c hc => h c (List.mem_cons_of_mem b hc)).bind
    intro _ hRest
    apply meets_pure
    intro c hc
    rcases List.mem_cons.mp hc with rfl | hc
    · exact hFirst
    · exact hRest c hc

end Demands

------------------------------------------------------------
-- Steps
------------------------------------------------------------

section Steps

variable {α : Type}
variable {allows : Failure → Prop}
variable {fits : α → Prop}

/- A fresh name can always be had. -/
theorem meets_fresh
    {hint : String}
    {f : String → Pass α}
    (h : ∀ name, Meets allows fits (f name)) :
    Meets allows fits (freshName hint >>= f) := by
  have hFresh : Meets allows (fun _ => True) (freshName hint) :=
    fun _ => trivial
  exact hFresh.bind fun name _ => h name

/- A value is bound to a variable of a type. -/
theorem meets_boundAs
    {hint : String}
    {ty : Ty}
    {value : Expr}
    {f : Bound → Pass α}
    (h : ∀ b, b.read.ty = ty → Meets allows fits (f b)) :
    Meets allows fits (bindAs hint ty value >>= f) := by
  have hBound : Meets allows (fun b => b.read.ty = ty)
      (bindAs hint ty value) := by
    apply meets_fresh
    intro name
    exact meets_pure rfl
  exact hBound.bind h

/- A value is bound to a variable of its type. -/
theorem meets_bound
    {hint : String}
    {value : Expr}
    {f : Bound → Pass α}
    (h : ∀ b, b.read.ty = value.ty → Meets allows fits (f b)) :
    Meets allows fits (bind hint value >>= f) :=
  meets_boundAs h

/- An operand with a value is reported. -/
theorem meets_reported
    {e : Expr}
    {f : Operand → Pass α}
    (hValued : Valued allows e.ty)
    (h : ∀ o, Meets allows fits (f o)) :
    Meets allows fits (operand e >>= f) := by
  have hOperand : Meets allows (fun _ => True) (operand e) := by
    unfold operand
    cases hNone : Operand.of? e with
    | some o => exact meets_pure trivial
    | none =>
      apply meets_fail
      apply hValued
      cases hTy : e.ty <;>
        simp [Operand.of?, hTy, Ty.kind?] at hNone ⊢
  exact hOperand.bind fun o _ => h o

/- Operands with values are reported. -/
theorem meets_operands
    {es : List Expr}
    (hValued : ∀ e ∈ es, Valued allows e.ty) :
    Meets allows (fun _ => True) (operands es) := by
  induction es with
  | nil => exact meets_pure trivial
  | cons e rest ih =>
    apply meets_reported (hValued e List.mem_cons_self)
    intro o
    apply (ih fun e he =>
      hValued e (List.mem_cons_of_mem _ he)).bind
    intro os _
    exact meets_pure trivial

/- An operand with a value is reported, if there is one. -/
theorem meets_operand?
    {e : Option Expr}
    (hValued : ∀ e' ∈ e, Valued allows e'.ty) :
    Meets allows (fun _ => True) (operand? e) := by
  cases e with
  | none => exact meets_pure trivial
  | some e =>
    apply meets_reported (hValued e rfl)
    intro o
    exact meets_pure trivial

/- A jump may want a landing where that is allowed. -/
theorem meets_landing
    {site : Site}
    {jump : Jump}
    {label : Option String}
    (h : resolve? site.around jump label = none →
      allows (.noLanding jump label)) :
    Meets allows (fun _ => True) (landing site jump label) := by
  unfold landing
  split
  · exact meets_pure trivial
  · rename_i hNone
    exact meets_fail (h hNone)

/- What can be thrown can be reported. -/
theorem meets_guarded
    {body : List Stmt}
    {onAbort : Operand → Probe Operand}
    {span : Span} :
    Meets allows (fun _ => True) (guarded body onAbort span) := by
  apply meets_fresh
  intro name
  apply meets_reported
  · exact valued_of_ne_void nofun
  · intro o
    exact meets_pure trivial

end Steps

------------------------------------------------------------
-- Conditions and Reads
------------------------------------------------------------

section Records

variable {allows : Failure → Prop}

/- A condition is reported. -/
theorem meets_recordCondition
    {span : Span}
    {cond : Expr}
    {report : Operand → Probe Operand}
    (hCond : Valued allows cond.ty) :
    Meets allows (fun _ => True)
      (recordCondition span cond report) := by
  apply meets_bound
  intro outcome hTy
  apply meets_reported (by rwa [hTy])
  intro o
  exact meets_pure trivial

/- A value that is read is reported. -/
theorem meets_recordRead
    {span : Span}
    {before : List Stmt}
    {read : Expr}
    {place : Pass (Place Operand)}
    (hPlace : Meets allows (fun _ => True) place)
    (hRead : Valued allows read.ty) :
    Meets allows (fun out => out.ty = read.ty)
      (recordRead span before read place) := by
  apply meets_bound
  intro value hTy
  apply hPlace.bind
  intro p _
  apply meets_reported (by rwa [hTy])
  intro o
  exact meets_pure hTy

/- A read of a place without parts is reported. -/
theorem meets_recordPlainRead
    {e : Expr}
    {place : Place Operand}
    (he : Valued allows e.ty) :
    Meets allows (fun out => out.ty = e.ty)
      (recordRead e.span [] e (pure place)) := by
  apply meets_recordRead
  · exact meets_pure trivial
  · exact he

/- A read of a field is reported. -/
theorem meets_recordFieldRead
    {e object : Expr}
    {cls field : String}
    (hObject : Valued allows object.ty)
    (he : Valued allows e.ty) :
    Meets allows (fun out => out.ty = e.ty)
      (recordFieldRead e object cls field) := by
  apply meets_bound
  intro obj hTy
  refine meets_recordRead ?_ he
  apply meets_reported (by rwa [hTy])
  intro o
  exact meets_pure trivial

/- A read of an element is reported. -/
theorem meets_recordElementRead
    {e array index : Expr}
    (hArray : Valued allows array.ty)
    (hIndex : Valued allows index.ty)
    (he : Valued allows e.ty) :
    Meets allows (fun out => out.ty = e.ty)
      (recordElementRead e array index) := by
  apply meets_bound
  intro arr hArr
  apply meets_bound
  intro idx hIdx
  refine meets_recordRead ?_ he
  apply meets_reported (by rwa [hArr])
  intro a
  apply meets_reported (by rwa [hIdx])
  intro i
  exact meets_pure trivial

------------------------------------------------------------
-- Operators and Types
------------------------------------------------------------

/- An operator with one operand is reported. -/
theorem meets_recordUnary
    {e arg : Expr}
    {op : UnaryOp}
    (hArg : Valued allows arg.ty)
    (he : Valued allows e.ty) :
    Meets allows (fun out => out.ty = e.ty)
      (recordUnary e op arg) := by
  apply meets_bound
  intro a hTy
  apply meets_bound
  intro result hResult
  apply meets_reported (by rwa [hTy])
  intro o
  apply meets_reported (by rwa [hResult])
  intro r
  exact meets_pure hResult

/- Whether the right operand is skipped is told by the left. -/
theorem ty_skips
    (op : BinaryOp)
    (lhs : Expr) : (skips op lhs).ty = lhs.ty := by
  cases op <;> rfl

/- A short-circuit operator is reported. -/
theorem meets_recordShortCircuit
    {e lhs rhs : Expr}
    {op : BinaryOp}
    (hLeft : Valued allows lhs.ty)
    (he : Valued allows e.ty) :
    Meets allows (fun out => out.ty = e.ty)
      (recordShortCircuit e op lhs rhs) := by
  apply meets_bound
  intro left hTy
  apply meets_bound
  intro result hResult
  apply meets_reported (by rwa [hTy])
  intro l
  apply meets_reported (by rwa [hResult])
  intro r
  apply meets_reported (by rwa [ty_skips, hTy])
  intro skipped
  exact meets_pure hResult

/- An operator that evaluates both operands is reported. -/
theorem meets_recordStrict
    {e lhs rhs : Expr}
    {op : BinaryOp}
    (hLeft : Valued allows lhs.ty)
    (hRight : Valued allows rhs.ty)
    (he : Valued allows e.ty) :
    Meets allows (fun out => out.ty = e.ty)
      (recordStrict e op lhs rhs) := by
  apply meets_bound
  intro left hTy
  apply meets_bound
  intro right hTy'
  apply meets_bound
  intro result hResult
  apply meets_reported (by rwa [hTy])
  intro l
  apply meets_reported (by rwa [hTy'])
  intro r
  apply meets_reported (by rwa [hResult])
  intro v
  exact meets_pure hResult

/- An operator with two operands is reported. -/
theorem meets_recordBinary
    {e lhs rhs : Expr}
    {op : BinaryOp}
    (hLeft : Valued allows lhs.ty)
    (hRight : Valued allows rhs.ty)
    (he : Valued allows e.ty) :
    Meets allows (fun out => out.ty = e.ty)
      (recordBinary e op lhs rhs) := by
  unfold recordBinary
  split
  · exact meets_recordShortCircuit hLeft he
  · exact meets_recordStrict hLeft hRight he

/- A cast between references is reported. -/
theorem meets_recordCast
    {e value : Expr}
    {target : Ty}
    (hValue : Valued allows value.ty) :
    Meets allows (fun out => out.ty = e.ty)
      (recordCast e target value) := by
  apply meets_bound
  intro v hTy
  apply meets_bound
  intro succeeds hSucceeds
  apply meets_reported (by rwa [hTy])
  intro o
  have hTruth : succeeds.read.ty ≠ .void := by
    rw [hSucceeds]
    nofun
  apply meets_reported (valued_of_ne_void hTruth)
  intro s
  exact meets_pure rfl

/- A test for a type is reported. -/
theorem meets_recordTypeTest
    {e value : Expr}
    {target : Ty}
    (hValue : Valued allows value.ty)
    (he : Valued allows e.ty) :
    Meets allows (fun out => out.ty = e.ty)
      (recordTypeTest e value target) := by
  apply meets_bound
  intro tested hTy
  apply meets_bound
  intro result hResult
  apply meets_reported (by rwa [hTy])
  intro o
  apply meets_reported (by rwa [hResult])
  intro r
  exact meets_pure hResult

/- A selector is reported in front of the arms. -/
theorem meets_recordSelector
    {e selector : Expr}
    {arms : Pass (List Arm)}
    {learned : Prop}
    (hSelector : Valued allows selector.ty)
    (hArms : Meets allows (fun _ => learned) arms) :
    Meets allows (fun out => out.ty = e.ty ∧ learned)
      (recordSelector e selector arms) := by
  apply meets_bound
  intro sel hTy
  apply meets_reported (by rwa [hTy])
  intro o
  apply hArms.bind
  intro as hLearned
  apply meets_pure
  constructor
  · rfl
  · exact hLearned

------------------------------------------------------------
-- Calls
------------------------------------------------------------

/- The arguments of a call are reported. -/
theorem meets_callSite
    {e : Expr}
    {callee : Callee}
    {receiver : Option Bound}
    {args : List Bound}
    (hReceiver : ∀ b ∈ receiver, Valued allows b.read.ty)
    (hArgs : ∀ b ∈ args, Valued allows b.read.ty) :
    Meets allows (fun _ => True)
      (callSite e callee receiver args) := by
  have hRead : ∀ r ∈ receiver.map Bound.read,
      Valued allows r.ty := by
    intro r hr
    rcases Option.map_eq_some_iff.mp hr with ⟨b, hb, rfl⟩
    exact hReceiver b hb
  have hReads : ∀ r ∈ args.map Bound.read,
      Valued allows r.ty := by
    intro r hr
    rcases List.mem_map.mp hr with ⟨b, hb, rfl⟩
    exact hArgs b hb
  apply (meets_operand? hRead).bind
  intro r _
  apply (meets_operands hReads).bind
  intro as _
  exact meets_pure trivial

/- The arguments of a constructor are reported. -/
theorem meets_constructorSite
    {e : Expr}
    {cls signature : String}
    {args : List Bound}
    (hArgs : ∀ b ∈ args, Valued allows b.read.ty) :
    Meets allows (fun _ => True)
      (constructorSite e cls signature args) := by
  have hReads : ∀ r ∈ args.map Bound.read,
      Valued allows r.ty := by
    intro r hr
    rcases List.mem_map.mp hr with ⟨b, hb, rfl⟩
    exact hArgs b hb
  apply (meets_operands hReads).bind
  intro as _
  exact meets_pure trivial

/- The value of a call is reported. -/
theorem meets_valueCall
    {e : Expr}
    {c : CallSite}
    (he : Valued allows e.ty) :
    Meets allows (fun out => out.ty = e.ty) (valueCall e c) := by
  apply meets_fresh
  intro name
  apply meets_guarded.bind
  intro call _
  apply meets_reported
  · exact he
  · intro o
    exact meets_pure rfl

/- A call without a result has nothing to report. -/
theorem meets_voidCall
    {span : Span}
    {c : CallSite} :
    Meets allows (fun _ => True) (voidCall span c) := by
  apply meets_guarded.bind
  intro call _
  exact meets_pure trivial

------------------------------------------------------------
-- Assignments
------------------------------------------------------------

/- The value of an assignment is reported. -/
theorem meets_recordAssign
    {e value : Expr}
    {p : BoundPlace}
    (hTarget : Valued allows p.target.ty) :
    Meets allows (fun out => out.ty = p.target.ty)
      (recordAssign e p value) := by
  apply meets_boundAs
  intro v hTy
  apply meets_reported (by rwa [hTy])
  intro o
  exact meets_pure hTy

/- Both operands of a compound assignment are reported. -/
theorem meets_recordCompound
    {e : Expr}
    {op : BinaryOp}
    {p : BoundPlace}
    {value : Pass Expr}
    {learned : Prop}
    (hTarget : Valued allows p.target.ty)
    (hValue : Meets allows
      (fun v => Valued allows v.ty ∧ learned) value) :
    Meets allows (fun out => out.ty = p.target.ty ∧ learned)
      (recordCompound e op p value) := by
  apply meets_bound
  intro old hOld
  apply hValue.bind
  rintro v ⟨hValued, hLearned⟩
  apply meets_bound
  intro rhs hRhs
  apply meets_bound
  intro new hNew
  rw [ty_combined] at hNew
  apply meets_reported (by rwa [hOld])
  intro a
  apply meets_reported (by rwa [hRhs])
  intro b
  apply meets_reported (by rwa [hNew])
  intro c
  apply meets_pure
  constructor
  · exact hNew
  · exact hLearned

/- Three values of a step are reported. -/
theorem meets_recordStep
    {e : Expr}
    {op : StepOp}
    {p : BoundPlace}
    (hTarget : Valued allows p.target.ty)
    (he : Valued allows e.ty) :
    Meets allows (fun out => out.ty = e.ty)
      (recordStep e op p) := by
  apply meets_bound
  intro old hOld
  apply meets_bound
  intro result hResult
  apply meets_bound
  intro new hNew
  apply meets_reported (by rwa [hOld])
  intro a
  apply meets_reported (by rwa [hNew])
  intro b
  apply meets_reported (by rwa [hResult])
  intro r
  exact meets_pure hResult

end Records

end ExecTrace.Instrument
