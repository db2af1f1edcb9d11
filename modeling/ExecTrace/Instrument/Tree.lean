import ExecTrace.Instrument.Record

/-
  This file instruments trees. An expression becomes one of the
  same type, and a statement becomes some statements. Spliced
  parts are never instrumented again.

  Key definitions include:
    * `Instrument.expr`
    * `Instrument.stmt`
    * `Instrument.block`
    * `Instrument.methodBody`
-/

namespace ExecTrace.Instrument

------------------------------------------------------------
-- Checks
------------------------------------------------------------

/- Insist that an expression keeps its type. -/
def checked
    (e : Expr)
    (pass : Pass Expr) : Pass Expr := do
  let out ← pass
  if out.ty = e.ty then pure out
  else fail (.typeChanged e out.ty)

/- A loop between the probes of its start and its end. -/
def looped
    (kind : LoopKind)
    (span : Span)
    (form : StmtForm) : List Stmt :=
  [operationAt (.loopEnter kind) span, ⟨form, span⟩,
    operationAt (.loopExit kind) span.ending]

/- The site inside a loop. -/
def Site.inLoop
    (site : Site)
    (kind : LoopKind)
    (label : Option String)
    (span : Span) : Site :=
  site.inside ⟨.loop kind, label, span⟩

/- Report the condition of a loop. -/
def recordLoopCondition
    (kind : LoopKind)
    (span : Span)
    (cond : Expr) : Pass Expr :=
  recordCondition span cond fun o =>
    .statement (.loopCondition o kind)

------------------------------------------------------------
-- Trees
------------------------------------------------------------

mutual

/- Instrument an expression. -/
def expr
    (o : Options)
    (site : Site) : Expr → Pass Expr
  | ⟨form, ty, span⟩ =>
    checked ⟨form, ty, span⟩ (exprForm o site ⟨form, ty, span⟩ form)

/- Instrument an expression `e` of a form. -/
def exprForm
    (o : Options)
    (site : Site)
    (e : Expr) : ExprForm → Pass Expr
  | .literal _ => pure e
  | .self => pure e
  | .letIn _ _ => pure e
  | .localVar name =>
    if o.recordReads then
      recordRead e.span [] e (pure (.localVar name))
    else pure e
  | .staticField cls field =>
    if o.recordReads then
      recordRead e.span [] e (pure (.staticField cls field))
    else pure e
  | .instanceField object cls field => do
    let object ← expr o site object
    if o.recordReads then recordFieldRead e object cls field
    else pure (rebuilt e (.instanceField object cls field))
  | .index array index => do
    let array ← expr o site array
    let index ← expr o site index
    if o.recordReads then recordElementRead e array index
    else pure (rebuilt e (.index array index))
  | .length array => do
    let array ← expr o site array
    pure (rebuilt e (.length array))
  | .unary op arg => do
    let arg ← expr o site arg
    if o.recordOperators then recordUnary e op arg
    else pure (rebuilt e (.unary op arg))
  | .binary op lhs rhs => do
    let lhs ← expr o site lhs
    let rhs ← expr o site rhs
    if o.recordOperators then recordBinary e op lhs rhs
    else pure (rebuilt e (.binary op lhs rhs))
  | .conditional cond onTrue onFalse => do
    let value ← expr o site cond
    let cond ← recordCondition cond.span value fun outcome =>
      .operation (.ternaryCondition outcome)
    let onTrue ← expr o site onTrue
    let onFalse ← expr o site onFalse
    pure (rebuilt e (.conditional cond onTrue onFalse))
  | .assign target value => do
    let p ← place o site target
    let value ← expr o site value
    recordAssign e p value
  | .compoundAssign op target value => do
    let p ← place o site target
    recordCompound e op p (expr o site value)
  | .step op target => do
    let p ← place o site target
    recordStep e op p
  | .call callee receiver args =>
    if e.ty = .void then fail (.voidCall e)
    else do
      let receiver ← boundReceiver o site receiver
      let args ← boundArgs o site args
      let c ← callSite e callee receiver args
      valueCall e c
  | .new cls signature args => do
    let args ← boundArgs o site args
    let c ← constructorSite e cls signature args
    valueCall e c
  | .newArray element length => do
    let length ← expr o site length
    pure (rebuilt e (.newArray element length))
  | .arrayOf element items => do
    let items ← exprs o site items
    pure (rebuilt e (.arrayOf element items))
  | .cast target arg => do
    let arg ← expr o site arg
    if target.isReference && arg.ty.isReference then
      recordCast e target arg
    else pure (rebuilt e (.cast target arg))
  | .typeTest arg target => do
    let arg ← expr o site arg
    recordTypeTest e arg target
  | .switch selector armList => do
    let selector ← expr o site selector
    recordSelector e selector
      (arms o (site.inside ⟨.switchExpr, none, e.span⟩) armList)

/- Instrument some expressions. -/
def exprs
    (o : Options)
    (site : Site) : List Expr → Pass (List Expr)
  | [] => pure []
  | e :: rest => do
    let e ← expr o site e
    let es ← exprs o site rest
    pure (e :: es)

/- Instrument an expression that may be missing. -/
def expr?
    (o : Options)
    (site : Site) : Option Expr → Pass (Option Expr)
  | none => pure none
  | some e => do
    let e ← expr o site e
    pure (some e)

/- Instrument and bind the receiver of a call. -/
def boundReceiver
    (o : Options)
    (site : Site) : Option Expr → Pass (Option Bound)
  | none => pure none
  | some e => do
    let e ← expr o site e
    let b ← bind "recv" e
    pure (some b)

/- Instrument and bind the arguments of a call. -/
def boundArgs
    (o : Options)
    (site : Site) : List Expr → Pass (List Bound)
  | [] => pure []
  | e :: rest => do
    let e ← expr o site e
    let b ← bind "arg" e
    let bs ← boundArgs o site rest
    pure (b :: bs)

/- Instrument and bind the parts of a place. -/
def place
    (o : Options)
    (site : Site) : Expr → Pass BoundPlace
  | ⟨.localVar name, ty, span⟩ =>
    pure ⟨[], ⟨.localVar name, ty, span⟩, .localVar name⟩
  | ⟨.staticField cls field, ty, span⟩ =>
    pure
      ⟨[], ⟨.staticField cls field, ty, span⟩,
        .staticField cls field⟩
  | ⟨.instanceField object cls field, ty, span⟩ => do
    let object ← expr o site object
    let obj ← bind "obj" object
    let reported ← operand obj.read
    pure
      ⟨[obj.decl],
        ⟨.instanceField obj.read cls field, ty, span⟩,
        .instanceField cls reported field⟩
  | ⟨.index array index, ty, span⟩ => do
    let array ← expr o site array
    let arr ← bind "arr" array
    let index ← expr o site index
    let idx ← bind "idx" index
    let reportedArray ← operand arr.read
    let reportedIndex ← operand idx.read
    pure
      ⟨[arr.decl, idx.decl],
        ⟨.index arr.read idx.read, ty, span⟩,
        .element reportedArray reportedIndex⟩
  | e => fail (.notAPlace e)

/- Instrument the arms of a switch. -/
def arms
    (o : Options)
    (site : Site) : List Arm → Pass (List Arm)
  | [] => pure []
  | ⟨labels, body⟩ :: rest => do
    let body ← block o site body
    let as ← arms o site rest
    pure (⟨labels, body⟩ :: as)

/- Instrument a statement. -/
def stmt
    (o : Options)
    (site : Site) : Stmt → Pass (List Stmt)
  | ⟨form, span⟩ => stmtForm o site span form

/- Instrument a statement of a form at a position. -/
def stmtForm
    (o : Options)
    (site : Site)
    (span : Span) : StmtForm → Pass (List Stmt)
  | .declare name ty none =>
    pure
      [statementAt (.declare name ty.text) span,
        ⟨.declare name ty none, span⟩]
  | .declare name ty (some init) => do
    let value ← expr o site init
    let v ← bindAs "init" ty value
    let reported ← operand v.read
    let assigned := operationAt
      (.assign (.localVar name) reported) init.span
    pure
      [statementAt (.declare name ty.text) span,
        ⟨.declare name ty
            (some (Expr.letIn [v.decl, assigned] v.read)),
          span⟩]
  | .expr e => do
    let s ← discarded o site span e
    pure [statementAt .exec span, s]
  | .block stmts => do
    let stmts ← block o site stmts
    pure [⟨.block stmts, span⟩]
  | .cond cond onTrue onFalse => do
    let value ← expr o site cond
    let cond ← recordCondition cond.span value fun outcome =>
      .statement (.ifCondition outcome)
    let onTrue ← single o site onTrue
    let onFalse ← single? o site onFalse
    pure [⟨.cond cond onTrue onFalse, span⟩]
  | .while label cond body => do
    let inner := site.inLoop .while label span
    let value ← expr o inner cond
    let cond ← recordLoopCondition .while cond.span value
    let body ← single o inner body
    pure (looped .while span (.while label cond body))
  | .doWhile label body cond => do
    let inner := site.inLoop .doWhile label span
    let body ← single o inner body
    let value ← expr o inner cond
    let cond ← recordLoopCondition .doWhile cond.span value
    pure (looped .doWhile span (.doWhile label body cond))
  | .for label init cond update body => do
    let init ← block o site init
    let inner := site.inLoop .for label span
    let cond ← forCondition o inner cond
    let update ← exprs o inner update
    let body ← single o inner body
    pure (looped .for span (.for label init cond update body))
  | .forEach label var ty iterable body => do
    let iterable ← expr o site iterable
    let inner := site.inLoop .forEach label span
    let element ← operand ⟨.localVar var, ty, span⟩
    let body ← single o inner body
    let body : Stmt :=
      ⟨.block [operationAt (.nextElement element) span, body],
        span⟩
    pure
      (looped .forEach span (.forEach label var ty iterable body))
  | .switch selector armList => do
    let selector ← expr o site selector
    let sel ← bind "sel" selector
    let reported ← operand sel.read
    let as ← arms o (site.inside ⟨.switch, none, span⟩) armList
    pure
      [sel.decl, statementAt (.switch reported) span,
        ⟨.switch sel.read as, span⟩]
  | .return none =>
    pure
      [statementAt (.return site.method) span,
        probeAt (.exit site.method (.explicit none)) span,
        ⟨.return none, span⟩]
  | .return (some value) => do
    let value ← expr o site value
    let v ← bindAs "ret" site.ret value
    let reported ← operand v.read
    pure
      [v.decl, statementAt (.return site.method) span,
        probeAt (.exit site.method (.explicit (some reported)))
          span,
        ⟨.return (some v.read), span⟩]
  | .break label => do
    let target ← landing site .break label
    pure
      [statementAt (.break target) span, ⟨.break label, span⟩]
  | .continue label => do
    let target ← landing site .continue label
    pure
      [statementAt (.continue target) span,
        ⟨.continue label, span⟩]
  | .yield value => do
    let target ← landing site .yield none
    let value ← expr o site value
    let v ← bind "yield" value
    let reported ← operand v.read
    pure
      [v.decl, statementAt (.yield reported target) span,
        ⟨.yield v.read, span⟩]
  | .throw exception => do
    let exception ← expr o site exception
    let v ← bind "thrown" exception
    let reported ← operand v.read
    pure
      [v.decl, statementAt (.throw reported) span,
        ⟨.throw v.read, span⟩]
  | .try body handlers => do
    let body ← block o site body
    let handlers ← catches o site handlers
    pure [⟨.try body handlers, span⟩]
  | .assert cond message => do
    let value ← expr o site cond
    let v ← bind "asserted" value
    let reported ← operand v.read
    let message ← expr? o site message
    pure
      [v.decl, statementAt (.assertion reported cond.text) span,
        ⟨.assert v.read message, span⟩]
  | .superCall signature args => do
    let args ← exprs o site args
    pure [⟨.superCall signature args, span⟩]
  | .probe p => pure [⟨.probe p, span⟩]

/-
  Instrument an expression whose value is discarded: a call may
  then be one without a result.
-/
def discarded
    (o : Options)
    (site : Site)
    (span : Span) : Expr → Pass Stmt
  | ⟨.call callee receiver args, .void, pos⟩ => do
    let e : Expr := ⟨.call callee receiver args, .void, pos⟩
    let receiver ← boundReceiver o site receiver
    let args ← boundArgs o site args
    let c ← callSite e callee receiver args
    voidCall pos c
  | ⟨form, ty, pos⟩ => do
    let e ← checked ⟨form, ty, pos⟩
      (exprForm o site ⟨form, ty, pos⟩ form)
    pure ⟨.expr e, span⟩

/- Instrument the condition of a `for` loop. -/
def forCondition
    (o : Options)
    (site : Site) : Option Expr → Pass (Option Expr)
  | none => pure none
  | some cond => do
    let value ← expr o site cond
    let cond ← recordLoopCondition .for cond.span value
    pure (some cond)

/- Instrument a statement that has to stay a single one. -/
def single
    (o : Options)
    (site : Site) : Stmt → Pass Stmt
  | ⟨form, span⟩ => do
    let ss ← stmtForm o site span form
    pure (asOne span ss)

/- Instrument a single statement that may be missing. -/
def single?
    (o : Options)
    (site : Site) : Option Stmt → Pass (Option Stmt)
  | none => pure none
  | some s => do
    let s ← single o site s
    pure (some s)

/- Instrument some statements. -/
def block
    (o : Options)
    (site : Site) : List Stmt → Pass (List Stmt)
  | [] => pure []
  | s :: rest => do
    let ss ← stmt o site s
    let more ← block o site rest
    pure (ss ++ more)

/- Instrument some handlers. -/
def catches
    (o : Options)
    (site : Site) : List Catch → Pass (List Catch)
  | [] => pure []
  | ⟨param, ty, body, span⟩ :: rest => do
    let reported ← operand ⟨.localVar param, ty, span⟩
    let body ← block o site body
    let body := statementAt (.caught reported) span :: body
    let more ← catches o site rest
    pure (⟨param, ty, body, span⟩ :: more)

end

end ExecTrace.Instrument
