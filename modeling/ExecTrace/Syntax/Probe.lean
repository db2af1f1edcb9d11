import ExecTrace.Trace.Action

/-
  This file defines probes: the actions that an instrumented
  program reports. A probe is an action whose parts are still
  operands of some kind `ω`, among them some that an event
  merely holds the outcome of.

  Key definitions include:
    * `Probe`
    * `Probe.name`
    * `Probe.operands`
    * `Probe.sizeOf_operand`
    * `Probe.mapM`
-/

namespace ExecTrace

------------------------------------------------------------
-- Probes
------------------------------------------------------------

/-
  An action with operands. `skipped` tells whether the right
  operand of a short-circuit operator was left out.
-/
inductive Probe (ω : Type) where
  | statement (statement : Statement ω)
  | operation (operation : Operation ω)
  | castAttempt (value : ω) (type : String) (succeeds : ω)
  | binary
      (operator : String) (lhs rhs result : ω)
      (skipped : Option ω)
  | typeTest (tested : ω) (type : String) (result : ω)
  | call (callee : Callee) (receiver : Option ω) (args : List ω)
  | enter (method : Callee)
  | exit (method : String) (how : Exit ω)
  | resume (cls method : String) (how : Resumption ω)
  deriving DecidableEq, Repr

------------------------------------------------------------
-- Names
------------------------------------------------------------

variable {ω : Type}

/- The name of the probe for a statement. -/
def Statement.probeName : Statement ω → String
  | .return .. => "return_stat"
  | .break .. => "break_stat"
  | .continue .. => "continue_stat"
  | .yield .. => "yield_stat"
  | .switch .. => "switch_stat"
  | .declare .. => "var_decl"
  | .throw .. => "throw_stat"
  | .caught .. => "caught"
  | .assertion .. => "assertion"
  | .exec => "exec"
  | .ifCondition .. => "if_cond"
  | .loopCondition .. => "loop_cond"

/- The name of the probe for an operation. -/
def Operation.probeName : Operation ω → String
  | .switch .. => "switch_expr"
  | .loopEnter .. => "loop_enter"
  | .loopExit .. => "loop_exit"
  | .nextElement .. => "foreach_next"
  | .ternaryCondition .. => "ternary_cond"
  | .assign .. => "assign"
  | .compoundAssign .. => "compound_assign"
  | .incDec .. => "inc_dec"
  | .read .. => "read"
  | .unary .. => "unary_op"

/- The name of a probe. -/
def Probe.name : Probe ω → String
  | .statement s => s.probeName
  | .operation o => o.probeName
  | .castAttempt .. => "cast_attempt"
  | .binary .. => "binary_op"
  | .typeTest .. => "type_test"
  | .call _ none _ => "static_method_call"
  | .call _ (some _) _ => "instance_method_call"
  | .enter .. => "enter_method"
  | .exit _ (.explicit _) => "exit_method"
  | .exit _ .endOfBody => "implicit_return"
  | .exit _ (.exceptional _) => "exceptional_exit"
  | .resume _ _ (.returned _) => "return_value"
  | .resume _ _ .void => "return_void"
  | .resume _ _ (.aborted _) => "call_aborted"

------------------------------------------------------------
-- Operands
------------------------------------------------------------

/- The operands of a place. -/
def Place.operands : Place ω → List ω
  | .localVar _ => []
  | .staticField _ _ => []
  | .instanceField _ object _ => [object]
  | .element array index => [array, index]

/- The operands of a statement. -/
def Statement.operands : Statement ω → List ω
  | .yield value _ => [value]
  | .switch selector => [selector]
  | .throw exception => [exception]
  | .caught exception => [exception]
  | .assertion outcome _ => [outcome]
  | .ifCondition outcome => [outcome]
  | .loopCondition outcome _ => [outcome]
  | _ => []

/- The operands of an operation. -/
def Operation.operands : Operation ω → List ω
  | .switch selector => [selector]
  | .loopEnter _ => []
  | .loopExit _ => []
  | .nextElement element => [element]
  | .ternaryCondition outcome => [outcome]
  | .assign place value => place.operands ++ [value]
  | .compoundAssign place _ old rhs new =>
    place.operands ++ [old, rhs, new]
  | .incDec place _ old new result =>
    place.operands ++ [old, new, result]
  | .read place value => place.operands ++ [value]
  | .unary _ operand result => [operand, result]

/- The operand of the end of an activation. -/
def Exit.operands : Exit ω → List ω
  | .explicit returned => returned.toList
  | .endOfBody => []
  | .exceptional exception => [exception]

/- The operand of the end of a call. -/
def Resumption.operands : Resumption ω → List ω
  | .returned value => [value]
  | .void => []
  | .aborted exception => [exception]

/- The operands of a probe, in the order of its arguments. -/
def Probe.operands : Probe ω → List ω
  | .statement s => s.operands
  | .operation o => o.operands
  | .castAttempt value _ succeeds => [value, succeeds]
  | .binary _ lhs rhs result skipped =>
    [lhs, rhs, result] ++ skipped.toList
  | .typeTest tested _ result => [tested, result]
  | .call _ receiver args => receiver.toList ++ args
  | .enter _ => []
  | .exit _ how => how.operands
  | .resume _ _ how => how.operands

/- Map the operands of a probe, in order. -/
def Probe.mapM
    {β : Type}
    {m : Type → Type}
    [Monad m]
    (f : ω → m β) : Probe ω → m (Probe β)
  | .statement s => do
    let s ← s.mapM f
    pure (.statement s)
  | .operation o => do
    let o ← o.mapM f
    pure (.operation o)
  | .castAttempt value type succeeds => do
    let value ← f value
    let succeeds ← f succeeds
    pure (.castAttempt value type succeeds)
  | .binary operator lhs rhs result skipped => do
    let lhs ← f lhs
    let rhs ← f rhs
    let result ← f result
    let skipped ← optionMapM f skipped
    pure (.binary operator lhs rhs result skipped)
  | .typeTest tested type result => do
    let tested ← f tested
    let result ← f result
    pure (.typeTest tested type result)
  | .call callee receiver args => do
    let receiver ← optionMapM f receiver
    let args ← args.mapM f
    pure (.call callee receiver args)
  | .enter method => pure (.enter method)
  | .exit method how => do
    let how ← how.mapM f
    pure (.exit method how)
  | .resume cls method how => do
    let how ← how.mapM f
    pure (.resume cls method how)

------------------------------------------------------------
-- Sizes
------------------------------------------------------------

section Sizes

variable [SizeOf ω]

/- An operand of a place is smaller than the place. -/
theorem Place.sizeOf_operand
    {p : Place ω}
    {o : ω}
    (h : o ∈ p.operands) : sizeOf o < sizeOf p := by
  cases p <;> simp_all [Place.operands] <;> grind

/- An operand of a statement is smaller than the statement. -/
theorem Statement.sizeOf_operand
    {s : Statement ω}
    {o : ω}
    (h : o ∈ s.operands) : sizeOf o < sizeOf s := by
  cases s <;> simp_all [Statement.operands] <;> grind

/- An operand of an operation is smaller than the operation. -/
theorem Operation.sizeOf_operand
    {p : Operation ω}
    {o : ω}
    (h : o ∈ p.operands) : sizeOf o < sizeOf p := by
  cases p <;> simp_all [Operation.operands] <;>
    grind [→ Place.sizeOf_operand]

/- An operand of an exit is smaller than the exit. -/
theorem Exit.sizeOf_operand
    {e : Exit ω}
    {o : ω}
    (h : o ∈ e.operands) : sizeOf o < sizeOf e := by
  cases e <;> simp_all [Exit.operands]
  grind

/- An operand of a resumption is smaller than it. -/
theorem Resumption.sizeOf_operand
    {r : Resumption ω}
    {o : ω}
    (h : o ∈ r.operands) : sizeOf o < sizeOf r := by
  cases r <;> simp_all [Resumption.operands]

/- An operand of a probe is smaller than the probe. -/
theorem Probe.sizeOf_operand
    {p : Probe ω}
    {o : ω}
    (h : o ∈ p.operands) : sizeOf o < sizeOf p := by
  cases p <;> simp_all [Probe.operands] <;>
    grind [→ Statement.sizeOf_operand,
      → Operation.sizeOf_operand, → Exit.sizeOf_operand,
      → Resumption.sizeOf_operand, → List.sizeOf_lt_of_mem]

end Sizes

end ExecTrace
