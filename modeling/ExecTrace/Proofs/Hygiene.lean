import ExecTrace.Proofs.Freshness
import ExecTrace.Proofs.Preservation

/-
  Instrumentation adds locals whose names are not used twice. The
  passes over expressions and statements are followed by induction
  on the tree; each of them adds the names that were handed out
  while it ran, and the whole program those of all its methods.

  A pass starts to count at one whatever its input declares. So the
  names are fresh among each other, and a program that has hidden
  names, such as one that is instrumented already, can declare one
  of them as well.

  Main declarations:
    * `Instrument.declares_expr` and `Instrument.declares_stmt`
    * `Instrument.declares_method`
    * `fresh_locals_are_distinct`
-/

namespace ExecTrace

namespace Instrument

------------------------------------------------------------
-- Trees
------------------------------------------------------------

/- The locals of a receiver that is bound. -/
def localsReceiver (b : Option Bound) : Multiset String :=
  localsAll (b.toList.map Bound.decl)

/- The locals of arguments that are bound. -/
def localsBound (bs : List Bound) : Multiset String :=
  localsAll (bs.map Bound.decl)

/- The locals of a place whose parts are bound. -/
def BoundPlace.locals (p : BoundPlace) : Multiset String :=
  localsAll p.before

mutual

/- An instrumented expression declares fresh locals besides. -/
theorem declares_expr
    (o : Options)
    (site : Site) :
    ∀ e : Expr, Declares e.locals Expr.locals (expr o site e)
  | ⟨form, ty, span⟩ => fun n out n' h => by
    unfold expr at h
    exact declares_exprForm o site ⟨form, ty, span⟩ form rfl n out n'
      (checked_ok.mp h).1

/- An instrumented form declares fresh locals besides. -/
theorem declares_exprForm
    (o : Options)
    (site : Site)
    (e : Expr) :
    ∀ form : ExprForm, e.locals = form.locals →
      Declares form.locals Expr.locals (exprForm o site e form)
  | .literal _, hForm => declares_pure hForm
  | .self, hForm => declares_pure hForm
  | .letIn _ _, hForm => declares_pure hForm
  | .localVar name, hForm => fun n out n' h => by
    simp only [exprForm] at h
    split at h
    · exact (adds_recordRead h).eq hForm rfl
    · exact declares_pure hForm n out n' h
  | .staticField cls field, hForm => fun n out n' h => by
    simp only [exprForm] at h
    split at h
    · exact (adds_recordRead h).eq hForm rfl
    · exact declares_pure hForm n out n' h
  | .instanceField object cls field, _ => fun n out n' h => by
    simp only [exprForm, bind_ok] at h
    obtain ⟨object', k, hObject, h⟩ := h
    have hAdds := declares_expr o site object n object' k hObject
    split at h
    · exact hAdds.trans (adds_recordFieldRead h)
    · exact hAdds.given _ h rfl
  | .index array index, _ => fun n out n' h => by
    simp only [exprForm, bind_ok] at h
    obtain ⟨array', k, hArray, index', l, hIndex, h⟩ := h
    have hAdds := (declares_expr o site array n array' k hArray).both
      (declares_expr o site index k index' l hIndex)
    split at h
    · exact hAdds.trans (adds_recordElementRead h)
    · exact hAdds.given _ h rfl
  | .length array, _ => fun n out n' h => by
    simp only [exprForm, bind_ok] at h
    obtain ⟨array', k, hArray, h⟩ := h
    exact (declares_expr o site array n array' k hArray).given _ h rfl
  | .unary op arg, _ => fun n out n' h => by
    simp only [exprForm, bind_ok] at h
    obtain ⟨arg', k, hArg, h⟩ := h
    have hAdds := declares_expr o site arg n arg' k hArg
    split at h
    · exact hAdds.trans (adds_recordUnary h)
    · exact hAdds.given _ h rfl
  | .binary op lhs rhs, _ => fun n out n' h => by
    simp only [exprForm, bind_ok, recordBinary] at h
    obtain ⟨lhs', k, hLeft, rhs', l, hRight, h⟩ := h
    have hAdds := (declares_expr o site lhs n lhs' k hLeft).both
      (declares_expr o site rhs k rhs' l hRight)
    split at h
    · split at h
      · exact hAdds.trans (adds_recordShortCircuit h)
      · exact hAdds.trans (adds_recordStrict h)
    · exact hAdds.given _ h rfl
  | .conditional cond onTrue onFalse, _ => fun n out n' h => by
    simp only [exprForm, bind_ok] at h
    obtain ⟨value, k, hValue, cond', l, hCond, onTrue', i, hTrue,
      onFalse', j, hFalse, h⟩ := h
    have hOutcome := (declares_expr o site cond n value k hValue).trans
      (adds_recordCondition hCond)
    have hBranches := (hOutcome.both
      (declares_expr o site onTrue l onTrue' i hTrue)).both
      (declares_expr o site onFalse i onFalse' j hFalse)
    exact hBranches.given _ h rfl
  | .assign target value, _ => fun n out n' h => by
    simp only [exprForm, bind_ok] at h
    obtain ⟨p, k, hPlace, value', l, hValue, h⟩ := h
    have hAdds := (declares_place o site target n p k hPlace).both
      (declares_expr o site value k value' l hValue)
    exact hAdds.trans (adds_recordAssign (locals_target hPlace) h)
  | .compoundAssign op target value, _ => fun n out n' h => by
    simp only [exprForm, bind_ok] at h
    obtain ⟨p, k, hPlace, h⟩ := h
    have hAdds := (declares_place o site target n p k hPlace).beside
      value.locals
    exact hAdds.trans (adds_recordCompound (locals_target hPlace)
      (declares_expr o site value) h)
  | .step op target, _ => fun n out n' h => by
    simp only [exprForm, bind_ok] at h
    obtain ⟨p, k, hPlace, h⟩ := h
    have hAdds := declares_place o site target n p k hPlace
    exact hAdds.trans (adds_recordStep (locals_target hPlace) h)
  | .call callee receiver args, _ => fun n out n' h => by
    simp only [exprForm] at h
    split at h
    · exact (fail_ok.mp h).elim
    · simp only [bind_ok] at h
      obtain ⟨receiver', k, hReceiver, args', l, hArgs, c, i, hSite,
        h⟩ := h
      have hAdds :=
        (declares_boundReceiver o site receiver n receiver' k
          hReceiver).both (declares_boundArgs o site args k args' l hArgs)
      rcases locals_callSite hSite with ⟨rfl, hLocals⟩
      rw [reads_boundReceiver hReceiver, reads_boundArgs hArgs, add_zero,
        add_zero] at hLocals
      exact (hAdds.eq rfl hLocals.symm).trans (adds_valueCall h)
  | .new cls signature args, _ => fun n out n' h => by
    simp only [exprForm, bind_ok] at h
    obtain ⟨args', k, hArgs, c, l, hSite, h⟩ := h
    have hAdds := declares_boundArgs o site args n args' k hArgs
    rcases locals_constructorSite hSite with ⟨rfl, hLocals⟩
    rw [reads_boundArgs hArgs, add_zero] at hLocals
    exact (hAdds.eq rfl hLocals.symm).trans (adds_valueCall h)
  | .newArray element length, _ => fun n out n' h => by
    simp only [exprForm, bind_ok] at h
    obtain ⟨length', k, hLength, h⟩ := h
    exact (declares_expr o site length n length' k hLength).given _ h rfl
  | .arrayOf element items, _ => fun n out n' h => by
    simp only [exprForm, bind_ok] at h
    obtain ⟨items', k, hItems, h⟩ := h
    exact (declares_exprs o site items n items' k hItems).given _ h rfl
  | .cast target arg, _ => fun n out n' h => by
    simp only [exprForm, bind_ok] at h
    obtain ⟨arg', k, hArg, h⟩ := h
    have hAdds := declares_expr o site arg n arg' k hArg
    split at h
    · exact hAdds.trans (adds_recordCast h)
    · exact hAdds.given _ h rfl
  | .typeTest arg target, _ => fun n out n' h => by
    simp only [exprForm, bind_ok] at h
    obtain ⟨arg', k, hArg, h⟩ := h
    exact (declares_expr o site arg n arg' k hArg).trans
      (adds_recordTypeTest h)
  | .switch selector armList, _ => fun n out n' h => by
    simp only [exprForm, bind_ok] at h
    obtain ⟨selector', k, hSelector, h⟩ := h
    have hAdds := (declares_expr o site selector n selector' k
      hSelector).beside (localsArms armList)
    exact hAdds.trans (adds_recordSelector (declares_arms o _ armList) h)

/- Instrumented expressions declare fresh locals besides. -/
theorem declares_exprs
    (o : Options)
    (site : Site) :
    ∀ es : List Expr,
      Declares (localsExprs es) localsExprs (exprs o site es)
  | [] => declares_pure rfl
  | e :: rest => fun n out n' h => by
    simp only [exprs, bind_ok] at h
    obtain ⟨e', k, hFirst, es', l, hRest, h⟩ := h
    have hAdds := (declares_expr o site e n e' k hFirst).both
      (declares_exprs o site rest k es' l hRest)
    exact hAdds.given _ h rfl

/- An optional expression declares fresh locals besides. -/
theorem declares_expr?
    (o : Options)
    (site : Site) :
    ∀ e : Option Expr,
      Declares (localsOption e) localsOption (expr? o site e)
  | none => declares_pure rfl
  | some e => fun n out n' h => by
    simp only [expr?, bind_ok] at h
    obtain ⟨e', k, hExpr, h⟩ := h
    exact (declares_expr o site e n e' k hExpr).given _ h rfl

/- A bound receiver declares fresh locals besides. -/
theorem declares_boundReceiver
    (o : Options)
    (site : Site) :
    ∀ e : Option Expr,
      Declares (localsOption e) localsReceiver (boundReceiver o site e)
  | none => declares_pure rfl
  | some e => fun n b n' h => by
    simp only [boundReceiver, bind_ok, bindTo_ok, pure_ok] at h
    obtain ⟨e', k, hExpr, _, _, ⟨rfl, rfl⟩, rfl, rfl⟩ := h
    have hAdds := declares_expr o site e n e' k hExpr
    refine (hAdds.next "recv" rfl).eq rfl ?_
    simp [-Multiset.singleton_add, localsReceiver]
    abel

/- Bound arguments declare fresh locals besides. -/
theorem declares_boundArgs
    (o : Options)
    (site : Site) :
    ∀ es : List Expr,
      Declares (localsExprs es) localsBound (boundArgs o site es)
  | [] => declares_pure rfl
  | e :: rest => fun n bs n' h => by
    simp only [boundArgs, bind_ok, bindTo_ok, pure_ok] at h
    obtain ⟨e', k, hExpr, _, _, ⟨rfl, rfl⟩, bs', l, hRest, rfl, rfl⟩ := h
    have hAdds := declares_expr o site e n e' k hExpr
    refine ((hAdds.next "arg" rfl).both
      (declares_boundArgs o site rest _ bs' l hRest)).eq rfl ?_
    simp [-Multiset.singleton_add, localsBound]
    abel

/- A place whose parts are bound declares fresh locals besides. -/
theorem declares_place
    (o : Options)
    (site : Site) :
    ∀ e : Expr, Declares e.locals BoundPlace.locals (place o site e)
  | ⟨.instanceField object cls field, ty, span⟩ => fun n p n' h => by
    simp only [place, bind_ok, bindTo_ok, operand_ok, pure_ok] at h
    obtain ⟨object', k, hObject, _, _, ⟨rfl, rfl⟩, _, _, ⟨_, rfl, rfl⟩,
      rfl, rfl⟩ := h
    have hAdds := declares_expr o site object n object' k hObject
    refine (hAdds.next "obj" rfl).eq rfl ?_
    simp [-Multiset.singleton_add, BoundPlace.locals]
    abel
  | ⟨.index array index, ty, span⟩ => fun n p n' h => by
    simp only [place, bind_ok, bindTo_ok, operand_ok, pure_ok] at h
    obtain ⟨array', k, hArray, _, _, ⟨rfl, rfl⟩, index', l, hIndex, _, _,
      ⟨rfl, rfl⟩, _, _, ⟨_, rfl, rfl⟩, _, _, ⟨_, rfl, rfl⟩, rfl, rfl⟩ := h
    have hAdds := (declares_expr o site array n array' k hArray).next
      "arr" rfl
    refine ((hAdds.both (declares_expr o site index _ index' l
      hIndex)).next "idx" rfl).eq rfl ?_
    simp [-Multiset.singleton_add, BoundPlace.locals]
    abel
  | ⟨.localVar _, _, _⟩ => declares_pure rfl
  | ⟨.staticField _ _, _, _⟩ => declares_pure rfl
  | ⟨.literal _, _, _⟩ => declares_fail _
  | ⟨.self, _, _⟩ => declares_fail _
  | ⟨.length _, _, _⟩ => declares_fail _
  | ⟨.unary _ _, _, _⟩ => declares_fail _
  | ⟨.binary _ _ _, _, _⟩ => declares_fail _
  | ⟨.conditional _ _ _, _, _⟩ => declares_fail _
  | ⟨.assign _ _, _, _⟩ => declares_fail _
  | ⟨.compoundAssign _ _ _, _, _⟩ => declares_fail _
  | ⟨.step _ _, _, _⟩ => declares_fail _
  | ⟨.call _ _ _, _, _⟩ => declares_fail _
  | ⟨.new _ _ _, _, _⟩ => declares_fail _
  | ⟨.newArray _ _, _, _⟩ => declares_fail _
  | ⟨.arrayOf _ _, _, _⟩ => declares_fail _
  | ⟨.cast _ _, _, _⟩ => declares_fail _
  | ⟨.typeTest _ _, _, _⟩ => declares_fail _
  | ⟨.switch _ _, _, _⟩ => declares_fail _
  | ⟨.letIn _ _, _, _⟩ => declares_fail _

/- Instrumented arms declare fresh locals besides. -/
theorem declares_arms
    (o : Options)
    (site : Site) :
    ∀ as : List Arm, Declares (localsArms as) localsArms (arms o site as)
  | [] => declares_pure rfl
  | ⟨labels, body⟩ :: rest => fun n out n' h => by
    simp only [arms, bind_ok] at h
    obtain ⟨body', k, hBody, as', l, hRest, h⟩ := h
    have hAdds := (declares_block o site body n body' k hBody).both
      (declares_arms o site rest k as' l hRest)
    exact hAdds.given _ h rfl

/- An instrumented statement declares fresh locals besides. -/
theorem declares_stmt
    (o : Options)
    (site : Site) :
    ∀ s : Stmt, Declares s.locals localsAll (stmt o site s)
  | ⟨form, span⟩ => by
    have hForm := declares_stmtForm o site span form
    unfold stmt
    exact hForm

/- An instrumented form declares fresh locals besides. -/
theorem declares_stmtForm
    (o : Options)
    (site : Site)
    (span : Span) :
    ∀ form : StmtForm,
      Declares form.locals localsAll (stmtForm o site span form)
  | .declare name ty none => declares_pure rfl
  | .declare name ty (some init) => fun n out n' h => by
    simp only [stmtForm, bind_ok, bindAs_ok, operand_ok] at h
    obtain ⟨value, k, hValue, _, _, ⟨rfl, rfl⟩, _, _, ⟨_, rfl, rfl⟩, h⟩ :=
      h
    have hAdds := (declares_expr o site init n value k hValue).next
      "init" rfl
    refine (hAdds.ahead {name}).given _ h ?_
    simp [-Multiset.singleton_add, Stmt.locals, StmtForm.locals,
      localsOption]
    abel
  | .expr e => fun n out n' h => by
    simp only [stmtForm, bind_ok] at h
    obtain ⟨s, k, hDiscarded, h⟩ := h
    refine (declares_discarded o site span e n s k hDiscarded).given _ h
      ?_
    simp
  | .block stmts => fun n out n' h => by
    simp only [stmtForm, bind_ok] at h
    obtain ⟨stmts', k, hStmts, h⟩ := h
    exact (declares_block o site stmts n stmts' k hStmts).given _ h
      (add_zero _)
  | .cond cond onTrue onFalse => fun n out n' h => by
    simp only [stmtForm, bind_ok] at h
    obtain ⟨value, k, hValue, cond', l, hCond, onTrue', i, hTrue,
      onFalse', j, hFalse, h⟩ := h
    have hOutcome := (declares_expr o site cond n value k hValue).trans
      (adds_recordCondition hCond)
    have hBranches := (hOutcome.both
      (declares_single o site onTrue l onTrue' i hTrue)).both
      (declares_single? o site onFalse i onFalse' j hFalse)
    exact hBranches.given _ h (add_zero _)
  | .while label cond body => fun n out n' h => by
    simp only [stmtForm, bind_ok] at h
    obtain ⟨value, k, hValue, cond', l, hCond, body', i, hBody, h⟩ := h
    have hOutcome := (declares_expr o _ cond n value k hValue).trans
      (adds_recordCondition hCond)
    have hAdds := hOutcome.both
      (declares_single o _ body l body' i hBody)
    exact hAdds.given _ h (localsAll_looped _ _ _)
  | .doWhile label body cond => fun n out n' h => by
    simp only [stmtForm, bind_ok] at h
    obtain ⟨body', k, hBody, value, l, hValue, cond', i, hCond, h⟩ := h
    have hOutcome := (declares_expr o _ cond k value l hValue).trans
      (adds_recordCondition hCond)
    have hAdds := (declares_single o _ body n body' k hBody).both hOutcome
    exact hAdds.given _ h (localsAll_looped _ _ _)
  | .for label init cond update body => fun n out n' h => by
    simp only [stmtForm, bind_ok] at h
    obtain ⟨init', k, hInit, cond', l, hCond, update', i, hUpdate, body',
      j, hBody, h⟩ := h
    have hHeader := ((declares_block o site init n init' k hInit).both
      (declares_forCondition o _ cond k cond' l hCond)).both
      (declares_exprs o _ update l update' i hUpdate)
    have hAdds := hHeader.both (declares_single o _ body i body' j hBody)
    exact hAdds.given _ h (localsAll_looped _ _ _)
  | .forEach label var ty iterable body => fun n out n' h => by
    simp only [stmtForm, bind_ok, operand_ok] at h
    obtain ⟨iterable', k, hIterable, _, _, ⟨_, rfl, rfl⟩, body', l, hBody,
      h⟩ := h
    have hAdds := ((declares_expr o site iterable n iterable' k
      hIterable).ahead {var}).both
      (declares_single o _ body k body' l hBody)
    refine hAdds.given _ h ?_
    rw [localsAll_looped]
    simp [-Multiset.singleton_add, Stmt.locals, StmtForm.locals]
  | .switch selector armList => fun n out n' h => by
    simp only [stmtForm, bind_ok, bindTo_ok, operand_ok] at h
    obtain ⟨selector', k, hSelector, _, _, ⟨rfl, rfl⟩, _, _,
      ⟨_, rfl, rfl⟩, as, l, hArms, h⟩ := h
    have hAdds := ((declares_expr o site selector n selector' k
      hSelector).next "sel" rfl).both
      (declares_arms o _ armList _ as l hArms)
    refine hAdds.given _ h ?_
    simp [-Multiset.singleton_add, Stmt.locals, StmtForm.locals]
    abel
  | .return none => declares_pure rfl
  | .return (some value) => fun n out n' h => by
    simp only [stmtForm, bind_ok, bindAs_ok, operand_ok] at h
    obtain ⟨value', k, hValue, _, _, ⟨rfl, rfl⟩, _, _, ⟨_, rfl, rfl⟩,
      h⟩ := h
    have hAdds := declares_expr o site value n value' k hValue
    refine (hAdds.next "ret" rfl).given _ h ?_
    simp [-Multiset.singleton_add, Stmt.locals, StmtForm.locals,
      localsOption]
    abel
  | .break label => fun n out n' h => by
    simp only [stmtForm, bind_ok, landing_ok] at h
    obtain ⟨_, _, ⟨_, rfl⟩, h⟩ := h
    exact declares_pure rfl n out n' h
  | .continue label => fun n out n' h => by
    simp only [stmtForm, bind_ok, landing_ok] at h
    obtain ⟨_, _, ⟨_, rfl⟩, h⟩ := h
    exact declares_pure rfl n out n' h
  | .yield value => fun n out n' h => by
    simp only [stmtForm, bind_ok, bindTo_ok, operand_ok, landing_ok] at h
    obtain ⟨_, _, ⟨_, rfl⟩, value', k, hValue, _, _, ⟨rfl, rfl⟩, _, _,
      ⟨_, rfl, rfl⟩, h⟩ := h
    have hAdds := declares_expr o site value n value' k hValue
    refine (hAdds.next "yield" rfl).given _ h ?_
    simp [-Multiset.singleton_add, Stmt.locals, StmtForm.locals]
    abel
  | .throw exception => fun n out n' h => by
    simp only [stmtForm, bind_ok, bindTo_ok, operand_ok] at h
    obtain ⟨exception', k, hException, _, _, ⟨rfl, rfl⟩, _, _,
      ⟨_, rfl, rfl⟩, h⟩ := h
    have hAdds := declares_expr o site exception n exception' k hException
    refine (hAdds.next "thrown" rfl).given _ h ?_
    simp [-Multiset.singleton_add, Stmt.locals, StmtForm.locals]
    abel
  | .try body handlers => fun n out n' h => by
    simp only [stmtForm, bind_ok] at h
    obtain ⟨body', k, hBody, handlers', l, hHandlers, h⟩ := h
    have hAdds := (declares_block o site body n body' k hBody).both
      (declares_catches o site handlers k handlers' l hHandlers)
    exact hAdds.given _ h (add_zero _)
  | .assert cond message => fun n out n' h => by
    simp only [stmtForm, bind_ok, bindTo_ok, operand_ok] at h
    obtain ⟨cond', k, hCond, _, _, ⟨rfl, rfl⟩, _, _, ⟨_, rfl, rfl⟩,
      message', l, hMessage, h⟩ := h
    have hAdds := ((declares_expr o site cond n cond' k hCond).next
      "asserted" rfl).both
      (declares_expr? o site message _ message' l hMessage)
    refine hAdds.given _ h ?_
    simp [-Multiset.singleton_add, Stmt.locals, StmtForm.locals]
    abel
  | .superCall signature args => fun n out n' h => by
    simp only [stmtForm, bind_ok] at h
    obtain ⟨args', k, hArgs, h⟩ := h
    exact (declares_exprs o site args n args' k hArgs).given _ h
      (add_zero _)
  | .probe p => declares_pure rfl

/- The parts of a call declare fresh locals besides. -/
theorem declares_parts
    (o : Options)
    (site : Site) :
    ∀ (form : ExprForm) callee receiver args,
      form = .call callee receiver args →
        Declares (localsOption receiver) localsReceiver
            (boundReceiver o site receiver) ∧
          Declares (localsExprs args) localsBound
            (boundArgs o site args)
  | .call _ receiver args, _, _, _, rfl =>
    ⟨declares_boundReceiver o site receiver,
      declares_boundArgs o site args⟩

/- A discarded expression declares fresh locals besides. -/
theorem declares_discarded
    (o : Options)
    (site : Site)
    (span : Span) :
    ∀ e : Expr,
      Declares e.locals Stmt.locals (discarded o site span e)
  | ⟨form, ty, pos⟩ => by
    have hForm := declares_exprForm o site ⟨form, ty, pos⟩ form rfl
    have hParts := declares_parts o site form
    unfold discarded
    split
    · rename_i hCall
      cases hCall
      rcases hParts _ _ _ rfl with ⟨hReceiver, hArgs⟩
      intro n s n' h
      simp only [bind_ok] at h
      obtain ⟨receiver', k, hFirst, args', l, hRest, c, i, hSite,
        h⟩ := h
      have hAdds := (hReceiver n receiver' k hFirst).both
        (hArgs k args' l hRest)
      rcases locals_callSite hSite with ⟨rfl, hLocals⟩
      rw [reads_boundReceiver hFirst, reads_boundArgs hRest, add_zero,
        add_zero] at hLocals
      exact (hAdds.eq rfl hLocals.symm).trans (adds_voidCall h)
    · rename_i hOther
      cases hOther
      intro n s n' h
      simp only [bind_ok] at h
      obtain ⟨e', k, hExpr, h⟩ := h
      exact (hForm n e' k (checked_ok.mp hExpr).1).given _ h rfl

/- The condition of a loop declares fresh locals besides. -/
theorem declares_forCondition
    (o : Options)
    (site : Site) :
    ∀ e : Option Expr,
      Declares (localsOption e) localsOption (forCondition o site e)
  | none => declares_pure rfl
  | some cond => fun n out n' h => by
    simp only [forCondition, bind_ok] at h
    obtain ⟨value, k, hValue, cond', l, hCond, h⟩ := h
    have hAdds := (declares_expr o site cond n value k hValue).trans
      (adds_recordCondition hCond)
    exact hAdds.given _ h rfl

/- A single statement declares fresh locals besides. -/
theorem declares_single
    (o : Options)
    (site : Site) :
    ∀ s : Stmt, Declares s.locals Stmt.locals (single o site s)
  | ⟨form, span⟩ => fun n s n' h => by
    simp only [single, bind_ok] at h
    obtain ⟨ss, k, hForm, h⟩ := h
    exact (declares_stmtForm o site span form n ss k hForm).given _ h
      (locals_asOne _ _)

/- An optional statement declares fresh locals besides. -/
theorem declares_single?
    (o : Options)
    (site : Site) :
    ∀ s : Option Stmt,
      Declares (localsStmt? s) localsStmt? (single? o site s)
  | none => declares_pure rfl
  | some s => fun n out n' h => by
    simp only [single?, bind_ok] at h
    obtain ⟨s', k, hSingle, h⟩ := h
    exact (declares_single o site s n s' k hSingle).given _ h rfl

/- Instrumented handlers declare fresh locals besides. -/
theorem declares_catches
    (o : Options)
    (site : Site) :
    ∀ cs : List Catch,
      Declares (localsCatches cs) localsCatches (catches o site cs)
  | [] => declares_pure rfl
  | ⟨param, ty, body, span⟩ :: rest => fun n out n' h => by
    simp only [catches, bind_ok, operand_ok] at h
    obtain ⟨_, _, ⟨_, rfl, rfl⟩, body', k, hBody, more, l, hRest, h⟩ := h
    have hAdds := ((declares_block o site body n body' k hBody).ahead
      {param}).both (declares_catches o site rest k more l hRest)
    refine hAdds.given _ h ?_
    simp [-Multiset.singleton_add, localsCatches]

/- Instrumented statements declare fresh locals besides. -/
theorem declares_block
    (o : Options)
    (site : Site) :
    ∀ ss : List Stmt,
      Declares (localsAll ss) localsAll (block o site ss)
  | [] => declares_pure rfl
  | s :: rest => fun n out n' h => by
    simp only [block, bind_ok] at h
    obtain ⟨s', k, hFirst, ss', l, hRest, h⟩ := h
    have hAdds := (declares_stmt o site s n s' k hFirst).both
      (declares_block o site rest k ss' l hRest)
    exact hAdds.given _ h (localsAll_append _ _)

end

------------------------------------------------------------
-- Programs
------------------------------------------------------------

/- Passes over a list add fresh locals to each item. -/
theorem declares_mapM
    {α : Type}
    {locals : α → Multiset String}
    {f : α → Pass α}
    (hf : ∀ a, Declares (locals a) locals (f a))
    (as : List α) :
    Declares (as.map locals).sum (fun bs => (bs.map locals).sum)
      (as.mapM f) := by
  induction as with
  | nil => exact declares_pure rfl
  | cons a as ih =>
    intro n bs n' h
    simp only [List.mapM_cons, bind_ok] at h
    obtain ⟨b, k, hFirst, bs', l, hRest, h⟩ := h
    have hAdds := (hf a n b k hFirst).both (ih k bs' l hRest)
    exact hAdds.given (fun bs => (bs.map locals).sum) h (List.sum_cons ..)

/- The super call in front of a body declares fresh locals. -/
theorem declares_superFirst
    (o : Options)
    (site : Site)
    (m : MethodDef)
    (body : List Stmt) :
    Declares (localsAll body) (fun p => localsAll p.1 + localsAll p.2)
      (superFirst o site m body) := by
  unfold superFirst
  split
  · rename_i signature args span rest
    split
    · intro n p n' h
      simp only [bind_ok] at h
      obtain ⟨first, k, hFirst, h⟩ := h
      have hAdds := (declares_stmt o site ⟨.superCall signature args, span⟩
        n first k hFirst).beside (localsAll rest)
      exact hAdds.given (fun p => localsAll p.1 + localsAll p.2) h
        rfl
    · exact declares_pure (zero_add _)
  · exact declares_pure (zero_add _)

/- The probe at the end of a body declares no local. -/
theorem localsAll_endOfBody
    (m : MethodDef) : localsAll (endOfBody m) = 0 := by
  unfold endOfBody
  split <;> rfl

/- An instrumented body declares fresh locals besides. -/
theorem declares_methodBody
    (o : Options)
    (cls : String)
    (m : MethodDef)
    (body : List Stmt) :
    Declares (localsAll body) localsAll (methodBody o cls m body) := by
  intro n out n' h
  simp only [methodBody, bind_ok] at h
  obtain ⟨⟨first, rest⟩, k, hFirst, inner, l, hInner, run, i, hRun, h⟩ :=
    h
  have hAdds := (declares_superFirst o _ m body n _ k hFirst).trans
    ((declares_block o _ rest k inner l hInner).ahead (localsAll first))
  have hGuarded := adds_guarded hRun
  rw [localsAll_append, localsAll_endOfBody, add_zero] at hGuarded
  refine (hAdds.trans (hGuarded.ahead (localsAll first))).given _ h ?_
  simp

/- An instrumented method declares fresh locals besides. -/
theorem declares_method
    (o : Options)
    (cls : String)
    (m : MethodDef) :
    Declares m.locals MethodDef.locals (method o cls m) := by
  unfold method
  cases hBody : m.body with
  | none => exact declares_pure rfl
  | some body =>
    intro n out n' h
    simp only [bind_ok] at h
    obtain ⟨body', k, hRun, h⟩ := h
    have hAdds := (declares_methodBody o cls m body n body' k hRun).ahead
      (Multiset.ofList (m.params.map fun x => x.name))
    have hOld : m.locals = Multiset.ofList
        (m.params.map fun x => x.name) + localsAll body := by
      rw [MethodDef.locals, hBody]
      rfl
    exact (hAdds.eq hOld.symm rfl).given MethodDef.locals h rfl

/- An instrumented class declares fresh locals besides. -/
theorem declares_classDef
    (o : Options)
    (exclusions : List Pattern)
    (c : ClassDef) :
    Declares c.locals ClassDef.locals (classDef o exclusions c) := by
  unfold classDef
  split
  · exact declares_pure rfl
  · intro n out n' h
    simp only [bind_ok] at h
    obtain ⟨methods, k, hMethods, h⟩ := h
    exact (declares_mapM (declares_method o c.name) c.methods n methods k
      hMethods).given ClassDef.locals h rfl

end Instrument

section Programs

open Instrument

/-
  An instrumented program declares the locals of the program and
  hidden ones. Each of these is declared once more than by the
  program, so it is the only local of its name unless the program
  declares that name itself.
-/
theorem fresh_locals_are_distinct
    {o : Options}
    {p q : Program}
    (hInstrument : instrument o p = .ok q) :
    ∃ names : Multiset String, q.locals = p.locals + names ∧
      ∀ x ∈ names, hidden x = true ∧
        q.locals.count x = p.locals.count x + 1 := by
  unfold instrument at hInstrument
  split at hInstrument
  · cases hInstrument
  rename_i exclusions hExclusions
  split at hInstrument
  · rename_i classes n hRun
    cases hInstrument
    rcases declares_mapM (declares_classDef o exclusions) p.classes 0
      classes n hRun with ⟨names, hNames, hLocals⟩
    have hSame : Program.locals ⟨classes⟩ = p.locals + names := hLocals
    refine ⟨names, hSame, fun x hx => ⟨?_, ?_⟩⟩
    · rcases hNames.number hx with ⟨hint, l, _, rfl, _⟩
      exact hidden_fresh hint l
    · have hOnce := Multiset.count_eq_one_of_mem hNames.nodup hx
      rw [hSame, Multiset.count_add, hOnce]
  · cases hInstrument

/- A program that hands two arguments on and prints the second. -/
def secondProgram : Program :=
  ⟨[{ name := "Main"
      methods := [
        { name := "main"
          kind := .static
          ret := .void
          body := some [
            .ofForm (.expr (.callStatic "Main" "show"
              [.int 7, .unary .neg (.int 1)] .void))] },
        { name := "show"
          kind := .static
          ret := .void
          params := [⟨"x", .int⟩, ⟨"y", .int⟩]
          body := some [
            .ofForm (.expr (.callStatic "Sys" "println"
              [.localVar "y" .int] .void))] }] }]⟩

/- The arguments of a call are held in locals of their own. -/
theorem fresh_locals_are_distinct_second :
    ∃ q, instrument {} secondProgram = .ok q ∧
      ∃ names, q.locals = secondProgram.locals + names ∧
        ∀ x ∈ names, hidden x = true ∧
          q.locals.count x = secondProgram.locals.count x + 1 := by
  have hInstrument : ∃ q, instrument {} secondProgram = .ok q :=
    ⟨_, rfl⟩
  rcases hInstrument with ⟨q, hq⟩
  exact ⟨q, hq, fresh_locals_are_distinct hq⟩

/- What has a result as an option has it. -/
theorem ok_of_toOption
    {ε α : Type}
    {x : Except ε α}
    {a : α}
    (h : x.toOption = some a) : x = .ok a := by
  cases x with
  | error e => cases h
  | ok b => exact congrArg Except.ok (Option.some.inj h)

/-
  The program is instrumented twice. Both passes hand out the same
  name for different arguments, and the second argument is read
  from the local that holds the first one.
-/
theorem fresh_locals_are_distinct_twice :
    secondProgram.passes Test.plainSource = true ∧
      ∃ q r, instrument {} secondProgram = .ok q ∧
        instrument {} q = .ok r ∧
        q.locals.count "$arg4" = 1 ∧
        r.locals.count "$arg4" = 2 ∧
        (let k := Machine.request .typed secondProgram 32 "Main" "main"
          [] (.fresh 64)
        k.1 = .ok .void ∧ k.2.output = "-1\n") ∧
        (let k := Machine.request .typed r 64 "Main" "main" []
          (.fresh 64)
        k.1 = .ok .void ∧ k.2.output = "7\n") := by
  have hRuns : (instrument {} secondProgram).toOption.any (fun q =>
      q.locals.count "$arg4" == 1 &&
        (instrument {} q).toOption.any (fun r =>
          let k := Machine.request .typed r 64 "Main" "main" []
            (.fresh 64)
          r.locals.count "$arg4" == 2 &&
            decide (k.1 = .ok .void) && k.2.output == "7\n")) = true := by
    decide +kernel
  rw [Option.any_eq_true] at hRuns
  rcases hRuns with ⟨q, hq, hRuns⟩
  rw [Bool.and_eq_true, Option.any_eq_true] at hRuns
  rcases hRuns with ⟨hFirst, r, hr, hSecond⟩
  simp only [Bool.and_eq_true, beq_iff_eq, decide_eq_true_eq]
    at hFirst hSecond
  exact ⟨by decide, q, r, ok_of_toOption hq, ok_of_toOption hr, hFirst,
    hSecond.1.1, by decide +kernel, hSecond.1.2, hSecond.2⟩

end Programs

end ExecTrace
