import ExecTrace.Proofs.Outcomes
import ExecTrace.Proofs.Visits

/-
  Acceptance of trees. A contract consists of a test that trees
  pass at their sites, of the failures that are allowed to them,
  and of what is learned from a success, with the rules by which
  the test excuses each failure. Every contract is kept: a tree
  that passes the test becomes one of the same type, or fails as
  allowed. One induction over trees shows it for all contracts.

  Main declarations:
    * `Instrument.Contract`
    * `Instrument.Contract.meets_expr`
    * `Instrument.Contract.meets_block`
    * `Instrument.Contract.meets_classDef`
    * `Instrument.Contract.outcome_instrument`
-/

namespace ExecTrace.Instrument

------------------------------------------------------------
-- Contracts
------------------------------------------------------------

/- The type of what instrumentation makes of an expression. -/
def rewrittenTy (e : Expr) : Ty :=
  (e.form.destination?.getD e).ty

/-
  What trees promise and what they get for it. The rules say
  what the test of a node excuses: a failure at the node itself,
  or operands without a value. What is learned of a node may use
  that it was not refused.
-/
structure Contract where
  test : SiteTest
  learned : SiteTest
  allows : Failure → Prop
  voidCall
    {site : Site}
    {e : Expr}
    (h : test.expr site e = true)
    (hCall : e.isVoidCall = true) : allows (.voidCall e)
  notAPlace
    {site : Site}
    {e target : Expr}
    (h : test.expr site e = true)
    (hTarget : e.form.target? = some target)
    (hPlace : target.isPlace = false) :
    allows (.notAPlace target)
  typeChanged
    {site : Site}
    {e : Expr}
    (h : test.expr site e = true)
    (hTy : rewrittenTy e ≠ e.ty) :
    allows (.typeChanged e (rewrittenTy e))
  target
    {site : Site}
    {e target : Expr}
    (h : test.expr site e = true)
    (hTarget : e.form.target? = some target)
    (hPlace : target.isPlace = true) : Valued allows target.ty
  value
    {site : Site}
    {e : Expr}
    (h : test.expr site e = true)
    (hCall : e.isVoidCall = false)
    (hParts : ∀ part ∈ e.form.typedBy, Valued allows part.ty)
    (hTarget : ∀ target ∈ e.form.target?,
      Valued allows target.ty) : Valued allows e.ty
  variableTy
    {site : Site}
    {s : Stmt}
    (h : test.stmt site s = true) :
    ∀ ty ∈ s.form.variableTys, Valued allows ty
  returned
    {site : Site}
    {s : Stmt}
    (h : test.stmt site s = true)
    (hReturns : s.form.returnsValue = true) :
    Valued allows site.ret
  noLanding
    {site : Site}
    {s : Stmt}
    {jump : Jump}
    {label : Option String}
    (h : test.stmt site s = true)
    (hJump : s.form.jump? = some (jump, label))
    (hNone : resolve? site.around jump label = none) :
    allows (.noLanding jump label)
  update
    {site : Site}
    {s : Stmt}
    (h : test.stmt site s = true) :
    ∀ e ∈ s.form.updates, e.isVoidCall = true →
      allows (.voidCall e)
  learnExpr
    {site : Site}
    {e : Expr}
    (h : test.expr site e = true)
    (hTy : rewrittenTy e = e.ty) : learned.expr site e = true
  learnStmt
    {site : Site}
    {s : Stmt}
    (h : test.stmt site s = true)
    (hUpdates : ∀ e ∈ s.form.updates, e.isVoidCall = false) :
    learned.stmt site s = true

namespace Contract

variable (k : Contract)

/-
  Whether an expression keeps its type, can be reported, and is
  one of which all is learned.
-/
def Kept
    (site : Site)
    (e out : Expr) : Prop :=
  out.ty = e.ty ∧ Valued k.allows e.ty ∧
    e.passesAt k.learned site = true

variable {k}

/- An expression that is kept can be reported. -/
theorem Kept.valued
    {site : Site}
    {e out : Expr}
    (h : k.Kept site e out) : Valued k.allows out.ty := by
  rw [h.1]
  exact h.2.1

/- Most forms have a type of their own. -/
theorem valued_of_test
    {site : Site}
    {e : Expr}
    (h : k.test.expr site e = true)
    (hCall : e.isVoidCall = false)
    (hParts : e.form.typedBy = [])
    (hTarget : e.form.target? = none) :
    Valued k.allows e.ty := by
  apply k.value h hCall
  · rw [hParts]
    simp
  · rw [hTarget]
    simp

/- A changed place gives the change its value. -/
theorem valued_of_target
    {site : Site}
    {e target : Expr}
    (h : k.test.expr site e = true)
    (hCall : e.isVoidCall = false)
    (hParts : e.form.typedBy = [])
    (hTarget : e.form.target? = some target)
    (hPlace : target.isPlace = true) :
    Valued k.allows e.ty := by
  have hValued := k.target h hTarget hPlace
  apply k.value h hCall
  · rw [hParts]
    simp
  · rw [hTarget]
    intro t ht
    cases ht
    exact hValued

variable (k)
variable (o : Options)

/- A type that is kept passes the check. -/
theorem meets_checked
    {site : Site}
    {form : ExprForm}
    {ty : Ty}
    {span : Span}
    {x : Pass Expr}
    (h : k.test.expr site ⟨form, ty, span⟩ = true)
    (hx : Meets k.allows
      (fun out => out.ty = rewrittenTy ⟨form, ty, span⟩ ∧
        Valued k.allows ty ∧
        form.passesAt k.learned site span = true) x) :
    Meets k.allows (k.Kept site ⟨form, ty, span⟩)
      (checked ⟨form, ty, span⟩ x) := by
  apply hx.bind
  rintro out ⟨hOut, hValued, hForm⟩
  by_cases hTy : out.ty = ty
  · rw [if_pos hTy]
    apply meets_pure
    have hLearned := k.learnExpr h (hOut.symm.trans hTy)
    refine ⟨hTy, hValued, ?_⟩
    unfold Expr.passesAt
    rw [hLearned, hForm]
    rfl
  · rw [if_neg hTy]
    apply meets_fail
    rw [hOut]
    apply k.typeChanged h
    rwa [← hOut]

/- What is learned of a statement and of its parts is all. -/
theorem meets_learned
    {site : Site}
    {form : StmtForm}
    {span : Span}
    {x : Pass (List Stmt)}
    (h : k.test.stmt site ⟨form, span⟩ = true)
    (hx : Meets k.allows
      (fun _ => form.passesAt k.learned site span = true ∧
        ∀ e ∈ form.updates, e.isVoidCall = false) x) :
    Meets k.allows
      (fun _ => Stmt.passesAt k.learned site ⟨form, span⟩ = true)
      x := by
  apply hx.weaken
  rintro _ ⟨hForm, hUpdates⟩
  unfold Stmt.passesAt
  rw [k.learnStmt h hUpdates, hForm]
  rfl

-- The induction is on the tree. What it carries from the parts to
-- the whole is `Kept`: the types of the parts decide whether the
-- operands that are built of them can be reported.

mutual

/- An expression is kept. -/
theorem meets_expr
    (site : Site) :
    ∀ e : Expr, e.passesAt k.test site = true →
      Meets k.allows (k.Kept site e) (expr o site e)
  | ⟨form, ty, span⟩, h => by
    unfold Expr.passesAt at h
    rcases Bool.and_eq_true_iff.mp h with ⟨hTest, hForm⟩
    unfold expr
    apply k.meets_checked hTest
    exact meets_exprForm site ty span form hTest hForm

/- A form of expressions becomes an expression of its type. -/
theorem meets_exprForm
    (site : Site)
    (ty : Ty)
    (span : Span) :
    ∀ form : ExprForm,
      k.test.expr site ⟨form, ty, span⟩ = true →
      form.passesAt k.test site span = true →
      Meets k.allows
        (fun out => out.ty = rewrittenTy ⟨form, ty, span⟩ ∧
          Valued k.allows ty ∧
          form.passesAt k.learned site span = true)
        (exprForm o site ⟨form, ty, span⟩ form)
  | .literal _, hTest, _ => by
    have hValued := valued_of_test hTest rfl rfl rfl
    unfold exprForm
    exact meets_pure ⟨rfl, hValued, rfl⟩
  | .self, hTest, _ => by
    have hValued := valued_of_test hTest rfl rfl rfl
    unfold exprForm
    exact meets_pure ⟨rfl, hValued, rfl⟩
  | .letIn _ _, hTest, _ => by
    have hValued := valued_of_test hTest rfl rfl rfl
    unfold exprForm
    exact meets_pure ⟨rfl, hValued, rfl⟩
  | .localVar _, hTest, _ => by
    have hValued := valued_of_test hTest rfl rfl rfl
    unfold exprForm
    split
    · exact (meets_recordPlainRead hValued).also
        ⟨hValued, rfl⟩
    · exact meets_pure ⟨rfl, hValued, rfl⟩
  | .staticField _ _, hTest, _ => by
    have hValued := valued_of_test hTest rfl rfl rfl
    unfold exprForm
    split
    · exact (meets_recordPlainRead hValued).also
        ⟨hValued, rfl⟩
    · exact meets_pure ⟨rfl, hValued, rfl⟩
  | .instanceField object _ _, hTest, hForm => by
    have hValued := valued_of_test hTest rfl rfl rfl
    unfold ExprForm.passesAt at hForm ⊢
    unfold exprForm
    apply (meets_expr site object hForm).bind
    intro obj hObject
    split
    · exact (meets_recordFieldRead hObject.valued hValued).also
        ⟨hValued, hObject.2.2⟩
    · exact meets_pure ⟨rfl, hValued, hObject.2.2⟩
  | .index array index, hTest, hForm => by
    have hValued := valued_of_test hTest rfl rfl rfl
    simp only [ExprForm.passesAt, Bool.and_eq_true] at hForm ⊢
    unfold exprForm
    apply (meets_expr site array hForm.1).bind
    intro arr hArray
    apply (meets_expr site index hForm.2).bind
    intro idx hIndex
    have hLearned := And.intro hArray.2.2 hIndex.2.2
    split
    · exact (meets_recordElementRead hArray.valued
        hIndex.valued hValued).also ⟨hValued, hLearned⟩
    · exact meets_pure ⟨rfl, hValued, hLearned⟩
  | .length array, hTest, hForm => by
    have hValued := valued_of_test hTest rfl rfl rfl
    unfold ExprForm.passesAt at hForm ⊢
    unfold exprForm
    apply (meets_expr site array hForm).bind
    intro arr hArray
    exact meets_pure ⟨rfl, hValued, hArray.2.2⟩
  | .unary op arg, hTest, hForm => by
    unfold ExprForm.passesAt at hForm ⊢
    unfold exprForm
    apply (meets_expr site arg hForm).bind
    intro out hArg
    have hValued : Valued k.allows ty := by
      apply k.value hTest rfl
      · simpa [ExprForm.typedBy] using hArg.2.1
      · nofun
    split
    · exact (meets_recordUnary hArg.valued hValued).also
        ⟨hValued, hArg.2.2⟩
    · exact meets_pure ⟨rfl, hValued, hArg.2.2⟩
  | .binary op lhs rhs, hTest, hForm => by
    simp only [ExprForm.passesAt, Bool.and_eq_true] at hForm ⊢
    unfold exprForm
    apply (meets_expr site lhs hForm.1).bind
    intro left hLeft
    apply (meets_expr site rhs hForm.2).bind
    intro right hRight
    have hLearned := And.intro hLeft.2.2 hRight.2.2
    have hValued : Valued k.allows ty := by
      apply k.value hTest rfl
      · simpa [ExprForm.typedBy] using
          And.intro hLeft.2.1 hRight.2.1
      · nofun
    split
    · exact (meets_recordBinary hLeft.valued hRight.valued
        hValued).also ⟨hValued, hLearned⟩
    · exact meets_pure ⟨rfl, hValued, hLearned⟩
  | .conditional cond onTrue onFalse, hTest, hForm => by
    simp only [ExprForm.passesAt, Bool.and_eq_true] at hForm ⊢
    unfold exprForm
    apply (meets_expr site cond hForm.1.1).bind
    intro outcome hCond
    apply (meets_recordCondition hCond.valued).bind
    intro reported _
    apply (meets_expr site onTrue hForm.1.2).bind
    intro left hTrue
    apply (meets_expr site onFalse hForm.2).bind
    intro right hFalse
    have hValued : Valued k.allows ty := by
      apply k.value hTest rfl
      · simpa [ExprForm.typedBy] using
          And.intro hTrue.2.1 hFalse.2.1
      · nofun
    exact meets_pure ⟨rfl, hValued,
      ⟨hCond.2.2, hTrue.2.2⟩, hFalse.2.2⟩
  | .assign target value, hTest, hForm => by
    simp only [ExprForm.passesAt, Bool.and_eq_true] at hForm ⊢
    unfold exprForm
    apply (meets_place site target hForm.1
      (k.notAPlace hTest rfl)).bind
    rintro p ⟨hTy, hPlace, hParts⟩
    have hTarget := k.target hTest rfl hPlace
    have hValued := valued_of_target hTest rfl rfl rfl hPlace
    apply (meets_expr site value hForm.2).bind
    intro v hValue
    -- What is given has the type of the target. Whether that is
    -- the type of the assignment is left to the check.
    rw [← hTy] at hTarget
    apply (meets_recordAssign hTarget).weaken
    intro out hOut
    exact ⟨hOut.trans hTy, hValued, hParts, hValue.2.2⟩
  | .compoundAssign op target value, hTest, hForm => by
    simp only [ExprForm.passesAt, Bool.and_eq_true] at hForm ⊢
    unfold exprForm
    apply (meets_place site target hForm.1
      (k.notAPlace hTest rfl)).bind
    rintro p ⟨hTy, hPlace, hParts⟩
    have hTarget := k.target hTest rfl hPlace
    have hValued := valued_of_target hTest rfl rfl rfl hPlace
    have hValue := (meets_expr site value hForm.2).weaken
      fun _ hKept => And.intro hKept.valued hKept.2.2
    rw [← hTy] at hTarget
    apply (meets_recordCompound hTarget hValue).weaken
    rintro out ⟨hOut, hLearned⟩
    exact ⟨hOut.trans hTy, hValued, hParts, hLearned⟩
  | .step op target, hTest, hForm => by
    unfold ExprForm.passesAt at hForm ⊢
    unfold exprForm
    apply (meets_place site target hForm
      (k.notAPlace hTest rfl)).bind
    rintro p ⟨hTy, hPlace, hParts⟩
    have hTarget := k.target hTest rfl hPlace
    have hValued := valued_of_target hTest rfl rfl rfl hPlace
    rw [← hTy] at hTarget
    exact (meets_recordStep hTarget hValued).also
      ⟨hValued, hParts⟩
  | .call callee receiver args, hTest, hForm => by
    simp only [ExprForm.passesAt, Bool.and_eq_true] at hForm ⊢
    unfold exprForm
    by_cases hTy : ty = .void
    -- Such a call fails before its parts are visited.
    · rw [if_pos hTy]
      apply meets_fail
      apply k.voidCall hTest
      simp [Expr.isVoidCall, hTy]
    · rw [if_neg hTy]
      have hCall : Expr.isVoidCall
          ⟨.call callee receiver args, ty, span⟩ = false := by
        simp [Expr.isVoidCall, hTy]
      have hValued := valued_of_test hTest hCall rfl rfl
      apply (meets_boundReceiver site receiver hForm.1).bind
      rintro r ⟨hReceiver, hFirst⟩
      apply (meets_boundArgs site args hForm.2).bind
      rintro as ⟨hArgs, hRest⟩
      apply (meets_callSite hReceiver hArgs).bind
      intro c _
      exact (meets_valueCall hValued).also
        ⟨hValued, hFirst, hRest⟩
  | .new cls signature args, hTest, hForm => by
    have hValued := valued_of_test hTest rfl rfl rfl
    unfold ExprForm.passesAt at hForm ⊢
    unfold exprForm
    apply (meets_boundArgs site args hForm).bind
    rintro as ⟨hArgs, hLearned⟩
    apply (meets_constructorSite hArgs).bind
    intro c _
    exact (meets_valueCall hValued).also ⟨hValued, hLearned⟩
  | .newArray element length, hTest, hForm => by
    have hValued := valued_of_test hTest rfl rfl rfl
    unfold ExprForm.passesAt at hForm ⊢
    unfold exprForm
    apply (meets_expr site length hForm).bind
    intro len hLength
    exact meets_pure ⟨rfl, hValued, hLength.2.2⟩
  | .arrayOf element items, hTest, hForm => by
    have hValued := valued_of_test hTest rfl rfl rfl
    unfold ExprForm.passesAt at hForm ⊢
    unfold exprForm
    apply (meets_exprs site items hForm).bind
    intro es hLearned
    exact meets_pure ⟨rfl, hValued, hLearned⟩
  | .cast target arg, hTest, hForm => by
    have hValued := valued_of_test hTest rfl rfl rfl
    unfold ExprForm.passesAt at hForm ⊢
    unfold exprForm
    apply (meets_expr site arg hForm).bind
    intro out hArg
    split
    · exact (meets_recordCast hArg.valued).also
        ⟨hValued, hArg.2.2⟩
    · exact meets_pure ⟨rfl, hValued, hArg.2.2⟩
  | .typeTest arg target, hTest, hForm => by
    have hValued := valued_of_test hTest rfl rfl rfl
    unfold ExprForm.passesAt at hForm ⊢
    unfold exprForm
    apply (meets_expr site arg hForm).bind
    intro out hArg
    exact (meets_recordTypeTest hArg.valued hValued).also
      ⟨hValued, hArg.2.2⟩
  | .switch selector armList, hTest, hForm => by
    have hValued := valued_of_test hTest rfl rfl rfl
    simp only [ExprForm.passesAt, Bool.and_eq_true] at hForm ⊢
    unfold exprForm
    apply (meets_expr site selector hForm.1).bind
    intro sel hSelector
    have hArms := meets_arms
      (site.inside ⟨.switchExpr, none, span⟩) armList hForm.2
    apply (meets_recordSelector hSelector.valued hArms).weaken
    rintro out ⟨hOut, hLearned⟩
    exact ⟨hOut, hValued, hSelector.2.2, hLearned⟩

/- All is learned of some expressions. -/
theorem meets_exprs
    (site : Site) :
    ∀ es : List Expr, passExprsAt k.test site es = true →
      Meets k.allows
        (fun _ => passExprsAt k.learned site es = true)
        (exprs o site es)
  | [], _ => by
    unfold exprs
    exact meets_pure rfl
  | e :: rest, h => by
    simp only [passExprsAt, Bool.and_eq_true] at h ⊢
    unfold exprs
    apply (meets_expr site e h.1).bind
    intro out hExpr
    apply (meets_exprs site rest h.2).bind
    intro es hRest
    exact meets_pure ⟨hExpr.2.2, hRest⟩

/-
  All is learned of updates, and that none of them is a call
  without a result.
-/
theorem meets_updates
    (site : Site) :
    ∀ es : List Expr, passDiscardedAt k.test site es = true →
      (∀ e ∈ es, e.isVoidCall = true →
        k.allows (.voidCall e)) →
      Meets k.allows
        (fun _ => passDiscardedAt k.learned site es = true ∧
          ∀ e ∈ es, e.isVoidCall = false)
        (exprs o site es)
  | [], _, _ => by
    unfold exprs
    exact meets_pure ⟨rfl, by simp⟩
  | e :: rest, h, hAllows => by
    simp only [passDiscardedAt, Bool.and_eq_true] at h ⊢
    unfold exprs
    -- Updates are instrumented as values, though none is used.
    cases hCall : e.isVoidCall with
    | true =>
      have hFail : Meets k.allows (fun _ => False)
          (expr o site e) := by
        have hAllowed :=
          hAllows e List.mem_cons_self hCall
        rcases Expr.eq_of_isVoidCall hCall with
          ⟨callee, receiver, args, hSame⟩
        rw [hSame] at hAllowed ⊢
        unfold expr exprForm
        exact fun _ => hAllowed
      apply hFail.bind
      intro out hNone
      exact hNone.elim
    | false =>
      rw [Expr.discardedPassesAt_eq hCall] at h ⊢
      apply (meets_expr site e h.1).bind
      intro out hExpr
      apply (meets_updates site rest h.2 fun e he =>
        hAllows e (List.mem_cons_of_mem _ he)).bind
      rintro es ⟨hRest, hNone⟩
      apply meets_pure
      refine ⟨⟨hExpr.2.2, hRest⟩, ?_⟩
      intro e' he
      rcases List.mem_cons.mp he with rfl | he
      · exact hCall
      · exact hNone e' he

/- All is learned of an expression that may be missing. -/
theorem meets_expr?
    (site : Site) :
    ∀ e : Option Expr, passOptionAt k.test site e = true →
      Meets k.allows
        (fun _ => passOptionAt k.learned site e = true)
        (expr? o site e)
  | none, _ => by
    unfold expr?
    exact meets_pure rfl
  | some e, h => by
    unfold passOptionAt at h ⊢
    unfold expr?
    apply (meets_expr site e h).bind
    intro out hExpr
    exact meets_pure hExpr.2.2

/- The receiver of a call can be reported. -/
theorem meets_boundReceiver
    (site : Site) :
    ∀ e : Option Expr, passOptionAt k.test site e = true →
      Meets k.allows
        (fun r => (∀ b ∈ r, Valued k.allows b.read.ty) ∧
          passOptionAt k.learned site e = true)
        (boundReceiver o site e)
  | none, _ => by
    unfold boundReceiver
    exact meets_pure ⟨by simp, rfl⟩
  | some e, h => by
    unfold passOptionAt at h ⊢
    unfold boundReceiver
    apply (meets_expr site e h).bind
    intro out hExpr
    apply meets_bound
    intro b hTy
    apply meets_pure
    refine ⟨?_, hExpr.2.2⟩
    rintro _ ⟨⟩
    rw [hTy]
    exact hExpr.valued

/- The arguments of a call can be reported. -/
theorem meets_boundArgs
    (site : Site) :
    ∀ es : List Expr, passExprsAt k.test site es = true →
      Meets k.allows
        (fun bs => (∀ b ∈ bs, Valued k.allows b.read.ty) ∧
          passExprsAt k.learned site es = true)
        (boundArgs o site es)
  | [], _ => by
    unfold boundArgs
    exact meets_pure ⟨by simp, rfl⟩
  | e :: rest, h => by
    simp only [passExprsAt, Bool.and_eq_true] at h ⊢
    unfold boundArgs
    apply (meets_expr site e h.1).bind
    intro out hExpr
    apply meets_bound
    intro b hTy
    apply (meets_boundArgs site rest h.2).bind
    rintro bs ⟨hArgs, hRest⟩
    apply meets_pure
    refine ⟨?_, hExpr.2.2, hRest⟩
    intro b' hb
    rcases List.mem_cons.mp hb with rfl | hb
    · rw [hTy]
      exact hExpr.valued
    · exact hArgs b' hb

/- A target is a place, and all is learned of its parts. -/
theorem meets_place
    (site : Site) :
    ∀ target : Expr,
      target.partsPassAt k.test site = true →
      (target.isPlace = false →
        k.allows (.notAPlace target)) →
      Meets k.allows
        (fun p => p.target.ty = target.ty ∧
          target.isPlace = true ∧
          target.partsPassAt k.learned site = true)
        (place o site target)
  | ⟨.localVar _, _, _⟩, _, _ => by
    unfold place
    exact meets_pure ⟨rfl, rfl, rfl⟩
  | ⟨.staticField _ _, _, _⟩, _, _ => by
    unfold place
    exact meets_pure ⟨rfl, rfl, rfl⟩
  | ⟨.instanceField object _ _, _, _⟩, h, _ => by
    unfold Expr.partsPassAt at h ⊢
    unfold place
    apply (meets_expr site object h).bind
    intro out hObject
    apply meets_bound
    intro obj hTy
    apply meets_reported
    · rw [hTy]
      exact hObject.valued
    · intro reported
      exact meets_pure ⟨rfl, rfl, hObject.2.2⟩
  | ⟨.index array index, _, _⟩, h, _ => by
    simp only [Expr.partsPassAt, Bool.and_eq_true] at h ⊢
    unfold place
    apply (meets_expr site array h.1).bind
    intro a hArray
    apply meets_bound
    intro arr hArr
    apply (meets_expr site index h.2).bind
    intro i hIndex
    apply meets_bound
    intro idx hIdx
    have hBoth := And.intro hArray.2.2 hIndex.2.2
    have hArrValued := hArray.valued
    have hIdxValued := hIndex.valued
    rw [← hArr] at hArrValued
    rw [← hIdx] at hIdxValued
    apply meets_reported hArrValued
    intro reportedArray
    apply meets_reported hIdxValued
    intro reportedIndex
    exact meets_pure ⟨rfl, rfl, hBoth⟩
  | ⟨.literal _, _, _⟩, _, hNone
  | ⟨.self, _, _⟩, _, hNone
  | ⟨.length _, _, _⟩, _, hNone
  | ⟨.unary _ _, _, _⟩, _, hNone
  | ⟨.binary _ _ _, _, _⟩, _, hNone
  | ⟨.conditional _ _ _, _, _⟩, _, hNone
  | ⟨.assign _ _, _, _⟩, _, hNone
  | ⟨.compoundAssign _ _ _, _, _⟩, _, hNone
  | ⟨.step _ _, _, _⟩, _, hNone
  | ⟨.call _ _ _, _, _⟩, _, hNone
  | ⟨.new _ _ _, _, _⟩, _, hNone
  | ⟨.newArray _ _, _, _⟩, _, hNone
  | ⟨.arrayOf _ _, _, _⟩, _, hNone
  | ⟨.cast _ _, _, _⟩, _, hNone
  | ⟨.typeTest _ _, _, _⟩, _, hNone
  | ⟨.switch _ _, _, _⟩, _, hNone
  | ⟨.letIn _ _, _, _⟩, _, hNone => by
    unfold place
    exact meets_fail (hNone rfl)

/- All is learned of arms. -/
theorem meets_arms
    (site : Site) :
    ∀ as : List Arm, passArmsAt k.test site as = true →
      Meets k.allows
        (fun _ => passArmsAt k.learned site as = true)
        (arms o site as)
  | [], _ => by
    unfold arms
    exact meets_pure rfl
  | ⟨_, body⟩ :: rest, h => by
    simp only [passArmsAt, Bool.and_eq_true] at h ⊢
    unfold arms
    apply (meets_block site body h.1).bind
    intro stmts hBody
    apply (meets_arms site rest h.2).bind
    intro as hRest
    exact meets_pure ⟨hBody, hRest⟩

/- All is learned of a statement. -/
theorem meets_stmt
    (site : Site) :
    ∀ s : Stmt, s.passesAt k.test site = true →
      Meets k.allows
        (fun _ => s.passesAt k.learned site = true)
        (stmt o site s)
  | ⟨form, span⟩, h => by
    unfold Stmt.passesAt at h
    rcases Bool.and_eq_true_iff.mp h with ⟨hTest, hForm⟩
    unfold stmt
    apply k.meets_learned hTest
    exact meets_stmtForm site span form hTest hForm

/-
  All is learned of a form of statements, and that no update is
  a call without a result.
-/
theorem meets_stmtForm
    (site : Site)
    (span : Span) :
    ∀ form : StmtForm,
      k.test.stmt site ⟨form, span⟩ = true →
      form.passesAt k.test site span = true →
      Meets k.allows
        (fun _ => form.passesAt k.learned site span = true ∧
          ∀ e ∈ form.updates, e.isVoidCall = false)
        (stmtForm o site span form)
  | .declare _ _ none, _, _ => by
    unfold stmtForm
    exact meets_pure ⟨rfl, nofun⟩
  | .declare _ ty (some init), hTest, hForm => by
    have hTy := k.variableTy hTest ty (by
      simp [StmtForm.variableTys])
    simp only [StmtForm.passesAt, passOptionAt] at hForm ⊢
    unfold stmtForm
    apply (meets_expr site init hForm).bind
    intro value hInit
    apply meets_boundAs
    intro v hRead
    apply meets_reported (by rwa [hRead])
    intro reported
    exact meets_pure ⟨hInit.2.2, nofun⟩
  | .expr e, _, hForm => by
    unfold StmtForm.passesAt at hForm ⊢
    unfold stmtForm
    apply (meets_discarded site span e hForm).bind
    intro s hExpr
    exact meets_pure ⟨hExpr, nofun⟩
  | .block stmts, _, hForm => by
    unfold StmtForm.passesAt at hForm ⊢
    unfold stmtForm
    apply (meets_block site stmts hForm).bind
    intro ss hStmts
    exact meets_pure ⟨hStmts, nofun⟩
  | .cond cond onTrue onFalse, _, hForm => by
    simp only [StmtForm.passesAt, Bool.and_eq_true] at hForm ⊢
    unfold stmtForm
    apply (meets_expr site cond hForm.1.1).bind
    intro value hCond
    apply (meets_recordCondition hCond.valued).bind
    intro reported _
    apply (meets_single site onTrue hForm.1.2).bind
    intro left hTrue
    apply (meets_single? site onFalse hForm.2).bind
    intro right hFalse
    exact meets_pure
      ⟨⟨⟨hCond.2.2, hTrue⟩, hFalse⟩, nofun⟩
  | .while label cond body, _, hForm => by
    simp only [StmtForm.passesAt, Bool.and_eq_true] at hForm ⊢
    unfold stmtForm
    apply (meets_expr (site.inLoop .while label span) cond
      hForm.1).bind
    intro value hCond
    apply (meets_recordCondition hCond.valued).bind
    intro reported _
    apply (meets_single (site.inLoop .while label span) body
      hForm.2).bind
    intro s hBody
    exact meets_pure ⟨⟨hCond.2.2, hBody⟩, nofun⟩
  | .doWhile label body cond, _, hForm => by
    simp only [StmtForm.passesAt, Bool.and_eq_true] at hForm ⊢
    unfold stmtForm
    apply (meets_single (site.inLoop .doWhile label span) body
      hForm.1).bind
    intro s hBody
    apply (meets_expr (site.inLoop .doWhile label span) cond
      hForm.2).bind
    intro value hCond
    apply (meets_recordCondition hCond.valued).bind
    intro reported _
    exact meets_pure ⟨⟨hBody, hCond.2.2⟩, nofun⟩
  | .for label init cond update body, hTest, hForm => by
    simp only [StmtForm.passesAt, Bool.and_eq_true] at hForm ⊢
    unfold stmtForm
    apply (meets_block site init hForm.1.1.1).bind
    intro ss hInit
    apply (meets_forCondition (site.inLoop .for label span) cond
      hForm.1.1.2).bind
    intro reported hCond
    apply (meets_updates (site.inLoop .for label span) update
      hForm.1.2 (k.update hTest)).bind
    rintro es ⟨hUpdate, hNone⟩
    apply (meets_single (site.inLoop .for label span) body
      hForm.2).bind
    intro s hBody
    exact meets_pure
      ⟨⟨⟨⟨hInit, hCond⟩, hUpdate⟩, hBody⟩, hNone⟩
  | .forEach label var ty iterable body, hTest, hForm => by
    have hTy := k.variableTy hTest ty (by
      simp [StmtForm.variableTys])
    simp only [StmtForm.passesAt, Bool.and_eq_true] at hForm ⊢
    unfold stmtForm
    apply (meets_expr site iterable hForm.1).bind
    intro items hIterable
    apply meets_reported hTy
    intro element
    apply (meets_single (site.inLoop .forEach label span) body
      hForm.2).bind
    intro s hBody
    exact meets_pure ⟨⟨hIterable.2.2, hBody⟩, nofun⟩
  | .switch selector armList, _, hForm => by
    simp only [StmtForm.passesAt, Bool.and_eq_true] at hForm ⊢
    unfold stmtForm
    apply (meets_expr site selector hForm.1).bind
    intro value hSelector
    apply meets_bound
    intro sel hSel
    apply meets_reported (by rw [hSel]; exact hSelector.valued)
    intro reported
    apply (meets_arms (site.inside ⟨.switch, none, span⟩)
      armList hForm.2).bind
    intro as hArms
    exact meets_pure ⟨⟨hSelector.2.2, hArms⟩, nofun⟩
  | .return none, _, _ => by
    unfold stmtForm
    exact meets_pure ⟨rfl, nofun⟩
  | .return (some value), hTest, hForm => by
    have hRet := k.returned hTest rfl
    simp only [StmtForm.passesAt, passOptionAt] at hForm ⊢
    unfold stmtForm
    apply (meets_expr site value hForm).bind
    intro out hValue
    apply meets_boundAs
    intro v hTy
    apply meets_reported (by rwa [hTy])
    intro reported
    exact meets_pure ⟨hValue.2.2, nofun⟩
  | .break label, hTest, _ => by
    unfold stmtForm
    apply (meets_landing (k.noLanding hTest rfl)).bind
    intro target _
    exact meets_pure ⟨rfl, nofun⟩
  | .continue label, hTest, _ => by
    unfold stmtForm
    apply (meets_landing (k.noLanding hTest rfl)).bind
    intro target _
    exact meets_pure ⟨rfl, nofun⟩
  | .yield value, hTest, hForm => by
    unfold StmtForm.passesAt at hForm ⊢
    unfold stmtForm
    apply (meets_landing (k.noLanding hTest rfl)).bind
    intro target _
    apply (meets_expr site value hForm).bind
    intro out hValue
    apply meets_bound
    intro v hTy
    apply meets_reported (by rw [hTy]; exact hValue.valued)
    intro reported
    exact meets_pure ⟨hValue.2.2, nofun⟩
  | .throw exception, _, hForm => by
    unfold StmtForm.passesAt at hForm ⊢
    unfold stmtForm
    apply (meets_expr site exception hForm).bind
    intro out hException
    apply meets_bound
    intro v hTy
    apply meets_reported (by rw [hTy]; exact hException.valued)
    intro reported
    exact meets_pure ⟨hException.2.2, nofun⟩
  | .try body handlers, hTest, hForm => by
    simp only [StmtForm.passesAt, Bool.and_eq_true] at hForm ⊢
    unfold stmtForm
    apply (meets_block site body hForm.1).bind
    intro ss hBody
    apply (meets_catches site handlers hForm.2 fun c hc =>
      k.variableTy hTest c.ty (List.mem_map_of_mem hc)).bind
    intro cs hHandlers
    exact meets_pure ⟨⟨hBody, hHandlers⟩, nofun⟩
  | .assert cond message, _, hForm => by
    simp only [StmtForm.passesAt, Bool.and_eq_true] at hForm ⊢
    unfold stmtForm
    apply (meets_expr site cond hForm.1).bind
    intro value hCond
    apply meets_bound
    intro v hTy
    apply meets_reported (by rw [hTy]; exact hCond.valued)
    intro reported
    apply (meets_expr? site message hForm.2).bind
    intro m hMessage
    exact meets_pure ⟨⟨hCond.2.2, hMessage⟩, nofun⟩
  | .superCall _ args, _, hForm => by
    unfold StmtForm.passesAt at hForm ⊢
    unfold stmtForm
    apply (meets_exprs site args hForm).bind
    intro es hArgs
    exact meets_pure ⟨hArgs, nofun⟩
  | .probe _, _, _ => by
    unfold stmtForm
    exact meets_pure ⟨rfl, nofun⟩

/- The parts of a call whose value is discarded. -/
theorem meets_parts
    (site : Site) :
    ∀ (form : ExprForm) callee receiver args,
      form = .call callee receiver args →
      passOptionAt k.test site receiver = true →
      passExprsAt k.test site args = true →
      Meets k.allows
          (fun r => (∀ b ∈ r, Valued k.allows b.read.ty) ∧
            passOptionAt k.learned site receiver = true)
          (boundReceiver o site receiver) ∧
        Meets k.allows
          (fun bs => (∀ b ∈ bs, Valued k.allows b.read.ty) ∧
            passExprsAt k.learned site args = true)
          (boundArgs o site args)
  | .call _ receiver args, _, _, _, rfl, hReceiver, hArgs =>
    ⟨meets_boundReceiver site receiver hReceiver,
      meets_boundArgs site args hArgs⟩

/- All is learned of an expression that is discarded. -/
theorem meets_discarded
    (site : Site)
    (span : Span) :
    ∀ e : Expr, e.discardedPassesAt k.test site = true →
      Meets k.allows
        (fun _ => e.discardedPassesAt k.learned site = true)
        (discarded o site span e)
  | ⟨form, ty, pos⟩, h => by
    have hParts := meets_parts site form
    cases hCall : Expr.isVoidCall ⟨form, ty, pos⟩ with
    -- Only the parts of such a call are visited.
    | true =>
      rcases Expr.eq_of_isVoidCall hCall with
        ⟨callee, receiver, args, hSame⟩
      cases hSame
      simp only [Expr.discardedPassesAt, Bool.and_eq_true]
        at h ⊢
      rcases hParts _ _ _ rfl h.1 h.2 with
        ⟨hReceiver, hArgs⟩
      unfold discarded
      apply hReceiver.bind
      rintro r ⟨hBound, hFirst⟩
      apply hArgs.bind
      rintro as ⟨hBounds, hRest⟩
      apply (meets_callSite hBound hBounds).bind
      intro c _
      have hLearned := And.intro hFirst hRest
      exact (meets_voidCall.also hLearned).weaken
        fun _ hKnown => hKnown.2
    | false =>
      rw [Expr.discardedPassesAt_eq hCall] at h ⊢
      unfold Expr.passesAt at h
      rcases Bool.and_eq_true_iff.mp h with ⟨hTest, hForm⟩
      have hExpr := k.meets_checked hTest
        (meets_exprForm site ty pos form hTest hForm)
      unfold discarded
      split
      · rename_i hSame
        cases hSame
        cases hCall
      · rename_i hSame
        cases hSame
        apply hExpr.bind
        intro out hKept
        exact meets_pure hKept.2.2

/- All is learned of the condition of a loop. -/
theorem meets_forCondition
    (site : Site) :
    ∀ e : Option Expr, passOptionAt k.test site e = true →
      Meets k.allows
        (fun _ => passOptionAt k.learned site e = true)
        (forCondition o site e)
  | none, _ => by
    unfold forCondition
    exact meets_pure rfl
  | some cond, h => by
    unfold passOptionAt at h ⊢
    unfold forCondition
    apply (meets_expr site cond h).bind
    intro value hCond
    apply (meets_recordCondition hCond.valued).bind
    intro reported _
    exact meets_pure hCond.2.2

/- All is learned of a single statement. -/
theorem meets_single
    (site : Site) :
    ∀ s : Stmt, s.passesAt k.test site = true →
      Meets k.allows
        (fun _ => s.passesAt k.learned site = true)
        (single o site s)
  | ⟨form, span⟩, h => by
    unfold Stmt.passesAt at h
    rcases Bool.and_eq_true_iff.mp h with ⟨hTest, hForm⟩
    have hStmt := k.meets_learned hTest
      (meets_stmtForm site span form hTest hForm)
    unfold single
    apply hStmt.bind
    intro ss hLearned
    exact meets_pure hLearned

/- All is learned of a statement that may be missing. -/
theorem meets_single?
    (site : Site) :
    ∀ s : Option Stmt, passStmtAt? k.test site s = true →
      Meets k.allows
        (fun _ => passStmtAt? k.learned site s = true)
        (single? o site s)
  | none, _ => by
    unfold single?
    exact meets_pure rfl
  | some s, h => by
    unfold passStmtAt? at h ⊢
    unfold single?
    apply (meets_single site s h).bind
    intro out hStmt
    exact meets_pure hStmt

/- All is learned of some statements. -/
theorem meets_block
    (site : Site) :
    ∀ ss : List Stmt, passStmtsAt k.test site ss = true →
      Meets k.allows
        (fun _ => passStmtsAt k.learned site ss = true)
        (block o site ss)
  | [], _ => by
    unfold block
    exact meets_pure rfl
  | s :: rest, h => by
    simp only [passStmtsAt, Bool.and_eq_true] at h ⊢
    unfold block
    apply (meets_stmt site s h.1).bind
    intro ss hStmt
    apply (meets_block site rest h.2).bind
    intro more hRest
    exact meets_pure ⟨hStmt, hRest⟩

/- All is learned of handlers for what can be reported. -/
theorem meets_catches
    (site : Site) :
    ∀ cs : List Catch, passCatchesAt k.test site cs = true →
      (∀ c ∈ cs, Valued k.allows c.ty) →
      Meets k.allows
        (fun _ => passCatchesAt k.learned site cs = true)
        (catches o site cs)
  | [], _, _ => by
    unfold catches
    exact meets_pure rfl
  | ⟨_, ty, body, _⟩ :: rest, h, hTys => by
    simp only [passCatchesAt, Bool.and_eq_true] at h ⊢
    have hTy : Valued k.allows ty := hTys _ List.mem_cons_self
    unfold catches
    apply meets_reported hTy
    intro reported
    apply (meets_block site body h.1).bind
    intro ss hBody
    apply (meets_catches site rest h.2 fun c hc =>
      hTys c (List.mem_cons_of_mem _ hc)).bind
    intro more hRest
    exact meets_pure ⟨hBody, hRest⟩

end

------------------------------------------------------------
-- Programs
------------------------------------------------------------

/- What is behind a super call passes as before. -/
theorem meets_superFirst
    (site : Site)
    (m : MethodDef)
    (body : List Stmt)
    (h : passStmtsAt k.test site body = true) :
    Meets k.allows
      (fun r => passStmtsAt k.test site r.2 = true ∧
        (passStmtsAt k.learned site r.2 = true →
          passStmtsAt k.learned site body = true))
      (superFirst o site m body) := by
  unfold superFirst
  split
  · rename_i signature args span rest
    by_cases hConstructor : m.isConstructor = true
    · rw [if_pos hConstructor]
      simp only [passStmtsAt, Bool.and_eq_true] at h ⊢
      apply (k.meets_stmt o site _ h.1).bind
      intro first hFirst
      apply meets_pure
      constructor
      · exact h.2
      · intro hRest
        exact ⟨hFirst, hRest⟩
    · rw [if_neg hConstructor]
      exact meets_pure ⟨h, id⟩
  · exact meets_pure ⟨h, id⟩

/- All is learned of the body of a method. -/
theorem meets_methodBody
    (owner : ClassDef)
    (m : MethodDef)
    (body : List Stmt)
    (h : passStmtsAt k.test (bodySite owner m) body = true) :
    Meets k.allows
      (fun _ =>
        passStmtsAt k.learned (bodySite owner m) body = true)
      (methodBody o owner.name m body) := by
  apply (k.meets_superFirst o (bodySite owner m) m body h).bind
  rintro ⟨first, rest⟩ ⟨hRest, hBody⟩
  apply (k.meets_block o (bodySite owner m) rest hRest).bind
  intro inner hLearned
  apply meets_guarded.bind
  intro run _
  apply meets_pure
  exact hBody hLearned

/- All is learned of a method. -/
theorem meets_method
    (owner : ClassDef)
    (m : MethodDef)
    (h : m.passesAt k.test owner = true) :
    Meets k.allows (fun _ => m.passesAt k.learned owner = true)
      (method o owner.name m) := by
  unfold MethodDef.passesAt at h ⊢
  unfold method
  cases hBody : m.body with
  | none => exact meets_pure rfl
  | some body =>
    rw [hBody] at h
    apply (k.meets_methodBody o owner m body h).bind
    intro out hLearned
    exact meets_pure hLearned

/- All is learned of a class that is not left alone. -/
theorem meets_classDef
    (exclusions : List Pattern)
    (c : ClassDef)
    (h : excludes exclusions c.name = false →
      c.passesAt k.test = true) :
    Meets k.allows
      (fun _ => excludes exclusions c.name = false →
        c.passesAt k.learned = true)
      (classDef o exclusions c) := by
  unfold classDef
  cases hExcluded : excludes exclusions c.name with
  | true => exact meets_pure nofun
  | false =>
    have hMethods := List.all_eq_true.mp (h hExcluded)
    have hMap := meets_mapM fun m hm =>
      k.meets_method o c m (hMethods m hm)
    apply hMap.bind
    intro methods hLearned
    apply meets_pure
    intro _
    exact List.all_eq_true.mpr hLearned

/-
  A program whose classes keep a contract, unless they are left
  alone, is accepted or refused as the contract says.
-/
theorem outcome_instrument
    {exclusions : List Pattern}
    {p : Program}
    (hExclusions : o.exclusions? = .ok exclusions)
    (h : ∀ c ∈ p.classes, excludes exclusions c.name = false →
      c.passesAt k.test = true) :
    match instrument o p with
    | .ok _ =>
      ∀ c ∈ p.classes, excludes exclusions c.name = false →
        c.passesAt k.learned = true
    | .error f => k.allows f := by
  have hClasses := meets_mapM fun c hc =>
    k.meets_classDef o exclusions c (h c hc)
  have hRun := hClasses 0
  unfold instrument
  rw [hExclusions]
  simp only [StateT.run]
  cases hResult :
      p.classes.mapM (classDef o exclusions) 0 with
  | error f =>
    rw [hResult] at hRun
    exact hRun
  | ok r =>
    rw [hResult] at hRun
    exact hRun

end Contract

end ExecTrace.Instrument
