import ExecTrace.Instrument.Program
import ExecTrace.Proofs.Scopes

/-
  What passes produce. A pass that succeeds has run all of its
  parts with success, and what it built can be read off. The
  names that it hands out are hidden, and no name is handed out
  twice, since the count of names never falls.

  Main declarations:
    * `Instrument.fresh` and `Instrument.fresh_inj`
    * `Instrument.bind_ok` and `Instrument.operand_ok`
    * `Instrument.Climbs` and `Instrument.climbs_expr`
-/

namespace ExecTrace.Instrument

------------------------------------------------------------
-- Fresh Names
------------------------------------------------------------

/- The name with a hint that is handed out behind `n` others. -/
def fresh
    (hint : String)
    (n : Nat) : String :=
  "$" ++ hint ++ toString (n + 1)

/- Names that are handed out are hidden. -/
@[simp] theorem hidden_fresh
    (hint : String)
    (n : Nat) : hidden (fresh hint n) = true := by
  simp [hidden, fresh]

/- Whether a hint has no digits. -/
def isWord (hint : String) : Bool :=
  hint.toList.all fun c => !c.isDigit

/- What comes before digits and the digits can be told apart. -/
theorem append_digits_inj
    {xs ys ds es : List Char}
    (hx : ∀ c ∈ xs, c.isDigit = false)
    (hy : ∀ c ∈ ys, c.isDigit = false)
    (hd : ∀ c ∈ ds, c.isDigit = true)
    (he : ∀ c ∈ es, c.isDigit = true)
    (h : xs ++ ds = ys ++ es) : xs = ys ∧ ds = es := by
  have hTake : ∀ {us vs : List Char},
      (∀ c ∈ us, c.isDigit = false) →
      (∀ c ∈ vs, c.isDigit = true) →
      (us ++ vs).takeWhile (fun c => !c.isDigit) = us := by
    intro us vs hu hv
    rw [List.takeWhile_append_of_pos (by simpa using hu)]
    cases vs with
    | nil => simp
    | cons v vs => simp [hv v (by simp)]
  have hFront : xs = ys := by
    rw [← hTake hx hd, h, hTake hy he]
  subst hFront
  exact ⟨rfl, List.append_cancel_left h⟩

/- A name determines its hint and its number. -/
theorem fresh_inj
    {hint hint' : String}
    {n k : Nat}
    (hWord : isWord hint = true)
    (hWord' : isWord hint' = true)
    (h : fresh hint n = fresh hint' k) :
    hint = hint' ∧ n = k := by
  have hChars : ∀ {s : String}, isWord s = true →
      ∀ c ∈ '$' :: s.toList, c.isDigit = false := by
    intro s hs c hc
    rcases List.mem_cons.mp hc with rfl | hc
    · rfl
    · simp only [isWord, List.all_eq_true] at hs
      simpa using hs c hc
  have hDigits : ∀ k c, c ∈ Nat.toDigits 10 k →
      c.isDigit = true :=
    fun _ _ hc =>
      Nat.isDigit_of_mem_toDigits (by omega) (by omega) hc
  have hLists := congrArg String.toList h
  simp only [fresh, String.toList_append,
    Nat.toString_eq_repr, Nat.toList_repr] at hLists
  rcases append_digits_inj (hChars hWord) (hChars hWord')
      (hDigits (n + 1)) (hDigits (k + 1)) hLists with
    ⟨hHints, hNumbers⟩
  have hSame := congrArg (Nat.ofDigitChars 10 · 0) hNumbers
  simp only [Nat.ofDigitChars_ten_toDigits] at hSame
  exact ⟨String.toList_inj.mp (List.cons.inj hHints).2,
    by omega⟩

/- Names with different hints differ. -/
theorem fresh_ne
    {hint hint' : String}
    (n k : Nat)
    (hWord : isWord hint = true)
    (hWord' : isWord hint' = true)
    (hHint : hint ≠ hint') : fresh hint n ≠ fresh hint' k :=
  fun h => hHint (fresh_inj hWord hWord' h).1

------------------------------------------------------------
-- Successful Passes
------------------------------------------------------------

section Success

variable {α β : Type}
variable {n n' : Nat}

/- A sequence of passes succeeds if both parts do. -/
theorem bind_ok
    {x : Pass α}
    {f : α → Pass β}
    {b : β} :
    (x >>= f) n = .ok (b, n') ↔
      ∃ a k, x n = .ok (a, k) ∧ f a k = .ok (b, n') := by
  change (x n).bind (fun (a, k) => f a k) = _ ↔ _
  cases hx : x n with
  | error c => simp [Except.bind]
  | ok r =>
    rcases r with ⟨a, k⟩
    constructor
    · exact fun h => ⟨a, k, rfl, h⟩
    · rintro ⟨a', k', hSame, h⟩
      cases hSame
      exact h

/- A value is returned without a name. -/
theorem pure_ok
    {a b : α} :
    (pure a : Pass α) n = .ok (b, n') ↔ a = b ∧ n = n' := by
  change Except.ok (a, n) = _ ↔ _
  simp

/- A failure is no success. -/
theorem fail_ok
    {f : Failure}
    {b : α} :
    fail f n = .ok (b, n') ↔ False := by
  simp [fail]

/- The next name is handed out. -/
theorem freshName_ok
    {hint x : String} :
    freshName hint n = .ok (x, n') ↔
      fresh hint n = x ∧ n + 1 = n' := by
  simp [freshName, fresh]

/- The operand that reports an expression with a value. -/
def reporting (e : Expr) : Operand :=
  ⟨e, e.ty.kind?.getD .reference⟩

/- Expressions with values have operands. -/
theorem operand_ok
    {e : Expr}
    {o : Operand} :
    operand e n = .ok (o, n') ↔
      e.ty ≠ .void ∧ reporting e = o ∧ n = n' := by
  rcases e with ⟨form, ty, span⟩
  unfold operand Operand.of? reporting
  cases ty <;>
    simp [Ty.kind?, pure_ok, fail_ok]

/- All operands of some expressions with values. -/
theorem operands_ok
    {es : List Expr}
    {os : List Operand} :
    operands es n = .ok (os, n') →
      es.map reporting = os ∧ n = n' := by
  induction es generalizing n os with
  | nil =>
    simp only [operands, pure_ok]
    intro h
    exact h
  | cons e rest ih =>
    simp only [operands, bind_ok, operand_ok, pure_ok]
    rintro ⟨o, k, ⟨_, rfl, rfl⟩, os', k', hRest, rfl, rfl⟩
    rcases ih hRest with ⟨rfl, rfl⟩
    exact ⟨rfl, rfl⟩

/- The operand of an expression, if there is one. -/
theorem operand?_ok
    {e : Option Expr}
    {o : Option Operand} :
    operand? e n = .ok (o, n') →
      e.map reporting = o ∧ n = n' := by
  cases e with
  | none =>
    simp only [operand?, pure_ok]
    exact id
  | some e =>
    simp only [operand?, bind_ok, operand_ok, pure_ok]
    rintro ⟨o, k, ⟨_, rfl, rfl⟩, rfl, rfl⟩
    exact ⟨rfl, rfl⟩

/- A variable with a name that holds the value of `value`. -/
def holding
    (name : String)
    (ty : Ty)
    (value : Expr) : Bound where
  decl := ⟨.declare name ty (some value), value.span⟩
  read := ⟨.localVar name, ty, value.span⟩

/- A value is bound to a fresh name. -/
theorem bindAs_ok
    {hint : String}
    {ty : Ty}
    {value : Expr}
    {b : Bound} :
    bindAs hint ty value n = .ok (b, n') ↔
      holding (fresh hint n) ty value = b ∧ n + 1 = n' := by
  simp only [bindAs, bind_ok, freshName_ok, pure_ok, holding]
  constructor
  · rintro ⟨x, k, ⟨rfl, rfl⟩, rfl, rfl⟩
    exact ⟨rfl, rfl⟩
  · rintro ⟨rfl, rfl⟩
    exact ⟨_, _, ⟨rfl, rfl⟩, rfl, rfl⟩

/- A value is bound to a fresh name of its type. -/
theorem bindTo_ok
    {hint : String}
    {value : Expr}
    {b : Bound} :
    bind hint value n = .ok (b, n') ↔
      holding (fresh hint n) value.ty value = b ∧ n + 1 = n' :=
  bindAs_ok

/- The handler that reports what is thrown. -/
def rethrowing
    (name : String)
    (onAbort : Operand → Probe Operand)
    (span : Span) : Catch :=
  let exception : Expr := ⟨.localVar name, Ty.throwable, span⟩
  ⟨name, Ty.throwable,
    [probeAt (onAbort (reporting exception)) span,
      ⟨.throw exception, span⟩],
    span⟩

/- Statements are put under a handler with a fresh name. -/
theorem guarded_ok
    {body : List Stmt}
    {onAbort : Operand → Probe Operand}
    {span : Span}
    {s : Stmt} :
    guarded body onAbort span n = .ok (s, n') ↔
      ⟨.try body [rethrowing (fresh "exc" n) onAbort span], span⟩
        = s ∧ n + 1 = n' := by
  simp only [guarded, bind_ok, freshName_ok, operand_ok, pure_ok]
  constructor
  · rintro ⟨x, k, ⟨rfl, rfl⟩, o, k', ⟨_, rfl, rfl⟩, rfl, rfl⟩
    exact ⟨rfl, rfl⟩
  · rintro ⟨rfl, rfl⟩
    exact ⟨_, _, ⟨rfl, rfl⟩, _, _, ⟨nofun, rfl, rfl⟩, rfl, rfl⟩

/- The landing of a jump is found among the constructs. -/
theorem landing_ok
    {site : Site}
    {jump : Jump}
    {label : Option String}
    {t : JumpTarget} :
    landing site jump label n = .ok (t, n') ↔
      resolve? site.around jump label = some t ∧ n = n' := by
  unfold landing
  cases resolve? site.around jump label <;>
    simp [pure_ok, fail_ok]

/- An expression is accepted if it keeps its type. -/
theorem checked_ok
    {e out : Expr}
    {x : Pass Expr} :
    checked e x n = .ok (out, n') ↔
      x n = .ok (out, n') ∧ out.ty = e.ty := by
  simp only [checked, bind_ok]
  constructor
  · rintro ⟨a, k, hx, hOut⟩
    split at hOut
    · rename_i hTy
      rcases pure_ok.mp hOut with ⟨rfl, rfl⟩
      exact ⟨hx, hTy⟩
    · exact (fail_ok.mp hOut).elim
  · rintro ⟨hx, hTy⟩
    exact ⟨out, n', hx, by rw [if_pos hTy]; rfl⟩

end Success

------------------------------------------------------------
-- Counts of Names
------------------------------------------------------------

/- A pass that never takes names back. -/
def Climbs
    {α : Type}
    (x : Pass α) : Prop :=
  ∀ n b n', x n = .ok (b, n') → n ≤ n'

section Climbs

variable {α β : Type}

/- Both parts of a sequence hand out names. -/
@[grind ←] theorem climbs_bind
    {x : Pass α}
    {f : α → Pass β}
    (hx : Climbs x)
    (hf : ∀ a, Climbs (f a)) : Climbs (x >>= f) := by
  intro n b n' h
  rcases bind_ok.mp h with ⟨a, k, hFirst, hSecond⟩
  exact Nat.le_trans (hx n a k hFirst) (hf a k b n' hSecond)

/- A value takes no name back. -/
@[grind ←] theorem climbs_pure
    (a : α) : Climbs (pure a : Pass α) := by
  intro n b n' h
  exact Nat.le_of_eq (pure_ok.mp h).2

/- A failure takes no name back. -/
@[grind ←] theorem climbs_fail
    (f : Failure) : Climbs (fail f : Pass α) := by
  intro n b n' h
  exact (fail_ok.mp h).elim

/- A fresh name is a new one. -/
@[grind ←] theorem climbs_freshName
    (hint : String) : Climbs (freshName hint) := by
  intro n b n' h
  have hNext := (freshName_ok.mp h).2
  omega

/- An operand needs no name. -/
@[grind ←] theorem climbs_operand
    (e : Expr) : Climbs (operand e) := by
  intro n b n' h
  exact Nat.le_of_eq (operand_ok.mp h).2.2

/- Operands need no names. -/
@[grind ←] theorem climbs_operands
    (es : List Expr) : Climbs (operands es) := by
  intro n b n' h
  exact Nat.le_of_eq (operands_ok h).2

/- An optional operand needs no name. -/
@[grind ←] theorem climbs_operand?
    (e : Option Expr) : Climbs (operand? e) := by
  intro n b n' h
  exact Nat.le_of_eq (operand?_ok h).2

/- A landing needs no name. -/
@[grind ←] theorem climbs_landing
    (site : Site)
    (jump : Jump)
    (label : Option String) : Climbs (landing site jump label) := by
  intro n b n' h
  exact Nat.le_of_eq (landing_ok.mp h).2

/- A value is bound to a fresh name. -/
@[grind ←] theorem climbs_bindAs
    (hint : String)
    (ty : Ty)
    (value : Expr) : Climbs (bindAs hint ty value) := by
  grind [bindAs]

/- A value is bound to a fresh name. -/
@[grind ←] theorem climbs_bindTo
    (hint : String)
    (value : Expr) : Climbs (bind hint value) :=
  climbs_bindAs hint value.ty value

/- A handler takes a fresh name. -/
@[grind ←] theorem climbs_guarded
    (body : List Stmt)
    (onAbort : Operand → Probe Operand)
    (span : Span) : Climbs (guarded body onAbort span) := by
  grind [guarded]

/- An accepted expression keeps the names of its pass. -/
@[grind ←] theorem climbs_checked
    (e : Expr)
    {x : Pass Expr}
    (hx : Climbs x) : Climbs (checked e x) := by
  grind [checked]

/- Reporting a condition takes no name back. -/
@[grind ←] theorem climbs_recordCondition
    (span : Span)
    (cond : Expr)
    (report : Operand → Probe Operand) :
    Climbs (recordCondition span cond report) := by
  grind [recordCondition]

/- Reporting a read takes no name back. -/
@[grind ←] theorem climbs_recordRead
    (span : Span)
    (before : List Stmt)
    (read : Expr)
    {place : Pass (Place Operand)}
    (hPlace : Climbs place) :
    Climbs (recordRead span before read place) := by
  grind [recordRead]

/- Reporting the read of an element takes no name back. -/
@[grind ←] theorem climbs_recordElementRead
    (e array index : Expr) :
    Climbs (recordElementRead e array index) := by
  grind [recordElementRead]

/- Reporting a binary operator takes no name back. -/
@[grind ←] theorem climbs_recordBinary
    (e : Expr)
    (op : BinaryOp)
    (lhs rhs : Expr) : Climbs (recordBinary e op lhs rhs) := by
  unfold recordBinary
  split
  · grind [recordShortCircuit]
  · grind [recordStrict]

/- Reporting a selector takes no name back. -/
@[grind ←] theorem climbs_recordSelector
    (e selector : Expr)
    {arms : Pass (List Arm)}
    (hArms : Climbs arms) :
    Climbs (recordSelector e selector arms) := by
  grind [recordSelector]

/- Reporting a call takes no name back. -/
@[grind ←] theorem climbs_valueCall
    (e : Expr)
    (c : CallSite) : Climbs (valueCall e c) := by
  grind [valueCall, CallSite.guarded]

/- Reporting a call without a result takes no name back. -/
@[grind ←] theorem climbs_voidCall
    (span : Span)
    (c : CallSite) : Climbs (voidCall span c) := by
  grind [voidCall, CallSite.guarded]

/- Reporting a compound assignment takes no name back. -/
@[grind ←] theorem climbs_recordCompound
    (e : Expr)
    (op : BinaryOp)
    (p : BoundPlace)
    {value : Pass Expr}
    (hValue : Climbs value) :
    Climbs (recordCompound e op p value) := by
  unfold recordCompound
  refine climbs_bind (climbs_bindTo _ _) fun old => ?_
  refine climbs_bind hValue fun value => ?_
  refine climbs_bind (climbs_bindTo _ _) fun rhs => ?_
  grind

/- Reporting a step takes no name back. -/
@[grind ←] theorem climbs_recordStep
    (e : Expr)
    (op : StepOp)
    (p : BoundPlace) : Climbs (recordStep e op p) := by
  grind [recordStep]

end Climbs

mutual

/- Instrumenting an expression takes no name back. -/
theorem climbs_expr
    (o : Options)
    (site : Site) : ∀ e : Expr, Climbs (expr o site e)
  | ⟨form, ty, span⟩ => by
    have hForm := climbs_exprForm o site ⟨form, ty, span⟩ form
    grind [expr]

/- Instrumenting a form of expressions takes no name back. -/
theorem climbs_exprForm
    (o : Options)
    (site : Site)
    (e : Expr) : ∀ form, Climbs (exprForm o site e form)
  | .literal _ => by grind [exprForm]
  | .self => by grind [exprForm]
  | .letIn _ _ => by grind [exprForm]
  | .localVar _ => by grind [exprForm]
  | .staticField _ _ => by grind [exprForm]
  | .instanceField object _ _ => by
    have hObject := climbs_expr o site object
    grind [exprForm, recordFieldRead]
  | .index array index => by
    have hArray := climbs_expr o site array
    have hIndex := climbs_expr o site index
    grind [exprForm]
  | .length array => by
    have hArray := climbs_expr o site array
    grind [exprForm]
  | .unary _ arg => by
    have hArg := climbs_expr o site arg
    grind [exprForm, recordUnary]
  | .binary _ lhs rhs => by
    have hLeft := climbs_expr o site lhs
    have hRight := climbs_expr o site rhs
    grind [exprForm]
  | .conditional cond onTrue onFalse => by
    have hCond := climbs_expr o site cond
    have hTrue := climbs_expr o site onTrue
    have hFalse := climbs_expr o site onFalse
    grind [exprForm]
  | .assign target value => by
    have hPlace := climbs_place o site target
    have hValue := climbs_expr o site value
    grind [exprForm, recordAssign]
  | .compoundAssign _ target value => by
    have hPlace := climbs_place o site target
    have hValue := climbs_expr o site value
    grind [exprForm]
  | .step _ target => by
    have hPlace := climbs_place o site target
    grind [exprForm]
  | .call _ receiver args => by
    have hReceiver := climbs_boundReceiver o site receiver
    have hArgs := climbs_boundArgs o site args
    grind [exprForm, callSite]
  | .new _ _ args => by
    have hArgs := climbs_boundArgs o site args
    grind [exprForm, constructorSite]
  | .newArray _ length => by
    have hLength := climbs_expr o site length
    grind [exprForm]
  | .arrayOf _ items => by
    have hItems := climbs_exprs o site items
    grind [exprForm]
  | .cast _ arg => by
    have hArg := climbs_expr o site arg
    grind [exprForm, recordCast]
  | .typeTest arg _ => by
    have hArg := climbs_expr o site arg
    grind [exprForm, recordTypeTest]
  | .switch selector armList => by
    have hSelector := climbs_expr o site selector
    have hArms := climbs_arms o
      (site.inside ⟨.switchExpr, none, e.span⟩) armList
    grind [exprForm]

/- Instrumenting expressions takes no name back. -/
theorem climbs_exprs
    (o : Options)
    (site : Site) : ∀ es : List Expr, Climbs (exprs o site es)
  | [] => by grind [exprs]
  | e :: rest => by
    have hFirst := climbs_expr o site e
    have hRest := climbs_exprs o site rest
    grind [exprs]

/- Instrumenting an optional expression takes no name back. -/
theorem climbs_expr?
    (o : Options)
    (site : Site) : ∀ e : Option Expr, Climbs (expr? o site e)
  | none => by grind [expr?]
  | some e => by
    have hExpr := climbs_expr o site e
    grind [expr?]

/- Binding a receiver takes no name back. -/
theorem climbs_boundReceiver
    (o : Options)
    (site : Site) :
    ∀ e : Option Expr, Climbs (boundReceiver o site e)
  | none => by grind [boundReceiver]
  | some e => by
    have hExpr := climbs_expr o site e
    grind [boundReceiver]

/- Binding arguments takes no name back. -/
theorem climbs_boundArgs
    (o : Options)
    (site : Site) :
    ∀ es : List Expr, Climbs (boundArgs o site es)
  | [] => by grind [boundArgs]
  | e :: rest => by
    have hFirst := climbs_expr o site e
    have hRest := climbs_boundArgs o site rest
    grind [boundArgs]

/- Binding the parts of a place takes no name back. -/
theorem climbs_place
    (o : Options)
    (site : Site) : ∀ e : Expr, Climbs (place o site e)
  | ⟨.instanceField object _ _, _, _⟩ => by
    have hObject := climbs_expr o site object
    grind [place]
  | ⟨.index array index, _, _⟩ => by
    have hArray := climbs_expr o site array
    have hIndex := climbs_expr o site index
    grind [place]
  | ⟨.localVar _, _, _⟩ => by grind [place]
  | ⟨.staticField _ _, _, _⟩ => by grind [place]
  | ⟨.literal _, _, _⟩ => by grind [place]
  | ⟨.self, _, _⟩ => by grind [place]
  | ⟨.length _, _, _⟩ => by grind [place]
  | ⟨.unary _ _, _, _⟩ => by grind [place]
  | ⟨.binary _ _ _, _, _⟩ => by grind [place]
  | ⟨.conditional _ _ _, _, _⟩ => by grind [place]
  | ⟨.assign _ _, _, _⟩ => by grind [place]
  | ⟨.compoundAssign _ _ _, _, _⟩ => by grind [place]
  | ⟨.step _ _, _, _⟩ => by grind [place]
  | ⟨.call _ _ _, _, _⟩ => by grind [place]
  | ⟨.new _ _ _, _, _⟩ => by grind [place]
  | ⟨.newArray _ _, _, _⟩ => by grind [place]
  | ⟨.arrayOf _ _, _, _⟩ => by grind [place]
  | ⟨.cast _ _, _, _⟩ => by grind [place]
  | ⟨.typeTest _ _, _, _⟩ => by grind [place]
  | ⟨.switch _ _, _, _⟩ => by grind [place]
  | ⟨.letIn _ _, _, _⟩ => by grind [place]

/- Instrumenting the arms of a switch takes no name back. -/
theorem climbs_arms
    (o : Options)
    (site : Site) : ∀ as : List Arm, Climbs (arms o site as)
  | [] => by grind [arms]
  | ⟨_, body⟩ :: rest => by
    have hBody := climbs_block o site body
    have hRest := climbs_arms o site rest
    grind [arms]

/- Instrumenting a form of statements takes no name back. -/
theorem climbs_stmtForm
    (o : Options)
    (site : Site)
    (span : Span) :
    ∀ form, Climbs (stmtForm o site span form)
  | .declare _ _ none => by grind [stmtForm]
  | .declare _ _ (some init) => by
    have hInit := climbs_expr o site init
    grind [stmtForm]
  | .expr e => by
    have hExpr := climbs_discarded o site span e
    grind [stmtForm]
  | .block stmts => by
    have hStmts := climbs_block o site stmts
    grind [stmtForm]
  | .cond cond onTrue onFalse => by
    have hCond := climbs_expr o site cond
    have hTrue := climbs_single o site onTrue
    have hFalse := climbs_single? o site onFalse
    grind [stmtForm]
  | .while label cond body => by
    have hCond := climbs_expr o (site.inLoop .while label span) cond
    have hBody :=
      climbs_single o (site.inLoop .while label span) body
    grind [stmtForm, recordLoopCondition]
  | .doWhile label body cond => by
    have hCond :=
      climbs_expr o (site.inLoop .doWhile label span) cond
    have hBody :=
      climbs_single o (site.inLoop .doWhile label span) body
    grind [stmtForm, recordLoopCondition]
  | .for label init cond update body => by
    have hInit := climbs_block o site init
    have hCond :=
      climbs_forCondition o (site.inLoop .for label span) cond
    have hUpdate :=
      climbs_exprs o (site.inLoop .for label span) update
    have hBody :=
      climbs_single o (site.inLoop .for label span) body
    grind [stmtForm]
  | .forEach label _ _ iterable body => by
    have hIterable := climbs_expr o site iterable
    have hBody :=
      climbs_single o (site.inLoop .forEach label span) body
    grind [stmtForm]
  | .switch selector armList => by
    have hSelector := climbs_expr o site selector
    have hArms :=
      climbs_arms o (site.inside ⟨.switch, none, span⟩) armList
    grind [stmtForm]
  | .return none => by grind [stmtForm]
  | .return (some value) => by
    have hValue := climbs_expr o site value
    grind [stmtForm]
  | .break _ => by grind [stmtForm]
  | .continue _ => by grind [stmtForm]
  | .yield value => by
    have hValue := climbs_expr o site value
    grind [stmtForm]
  | .throw exception => by
    have hException := climbs_expr o site exception
    grind [stmtForm]
  | .try body handlers => by
    have hBody := climbs_block o site body
    have hHandlers := climbs_catches o site handlers
    grind [stmtForm]
  | .assert cond message => by
    have hCond := climbs_expr o site cond
    have hMessage := climbs_expr? o site message
    grind [stmtForm]
  | .superCall _ args => by
    have hArgs := climbs_exprs o site args
    grind [stmtForm]
  | .probe _ => by grind [stmtForm]

/- Binding the parts of a call takes no name back. -/
theorem climbs_parts
    (o : Options)
    (site : Site) :
    ∀ (form : ExprForm) callee receiver args,
      form = .call callee receiver args →
      Climbs (boundReceiver o site receiver) ∧
        Climbs (boundArgs o site args)
  | .call _ receiver args, _, _, _, rfl =>
    ⟨climbs_boundReceiver o site receiver,
      climbs_boundArgs o site args⟩

/- Instrumenting a discarded expression takes no name back. -/
theorem climbs_discarded
    (o : Options)
    (site : Site)
    (span : Span) : ∀ e : Expr, Climbs (discarded o site span e)
  | ⟨form, ty, pos⟩ => by
    have hForm := climbs_exprForm o site ⟨form, ty, pos⟩ form
    have hParts := climbs_parts o site form
    unfold discarded
    split
    · rename_i hCall
      cases hCall
      rcases hParts _ _ _ rfl with ⟨hReceiver, hArgs⟩
      grind [callSite]
    · rename_i hOther
      cases hOther
      grind

/- Instrumenting the condition of a loop takes no name back. -/
theorem climbs_forCondition
    (o : Options)
    (site : Site) :
    ∀ e : Option Expr, Climbs (forCondition o site e)
  | none => by grind [forCondition]
  | some cond => by
    have hCond := climbs_expr o site cond
    grind [forCondition, recordLoopCondition]

/- Instrumenting a single statement takes no name back. -/
theorem climbs_single
    (o : Options)
    (site : Site) : ∀ s : Stmt, Climbs (single o site s)
  | ⟨form, span⟩ => by
    have hForm := climbs_stmtForm o site span form
    grind [single]

/- Instrumenting an optional statement takes no name back. -/
theorem climbs_single?
    (o : Options)
    (site : Site) :
    ∀ s : Option Stmt, Climbs (single? o site s)
  | none => by grind [single?]
  | some s => by
    have hStmt := climbs_single o site s
    grind [single?]

/- Instrumenting statements takes no name back. -/
theorem climbs_block
    (o : Options)
    (site : Site) : ∀ ss : List Stmt, Climbs (block o site ss)
  | [] => by grind [block]
  | ⟨form, span⟩ :: rest => by
    have hForm := climbs_stmtForm o site span form
    have hRest := climbs_block o site rest
    grind [block, stmt]

/- Instrumenting handlers takes no name back. -/
theorem climbs_catches
    (o : Options)
    (site : Site) :
    ∀ cs : List Catch, Climbs (catches o site cs)
  | [] => by grind [catches]
  | ⟨_, _, body, _⟩ :: rest => by
    have hBody := climbs_block o site body
    have hRest := climbs_catches o site rest
    grind [catches]

end

end ExecTrace.Instrument
