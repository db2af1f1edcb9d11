import Mathlib.Algebra.Order.Group.Multiset
import Mathlib.Tactic.Abel
import ExecTrace.Proofs.Passes

/-
  The locals that code declares, and the names that a pass hands
  out. A pass that succeeds declares what its input declares and,
  besides, a local for each number that it counted: the code that
  is spliced around an operand, a call or a body declares exactly
  the names that were handed out for it.

  Main declarations:
    * `Expr.locals`, `Stmt.locals` and `Program.locals`
    * `Instrument.Handed` and `Instrument.Handed.nodup`
    * `Instrument.Adds` and `Instrument.Declares`
-/

namespace ExecTrace

open Instrument

mutual

/- The locals that an expression declares inside. -/
@[simp] def Expr.locals : Expr → Multiset String
  | ⟨form, _, _⟩ => form.locals

/- The locals that a form of expressions declares inside. -/
@[simp] def ExprForm.locals : ExprForm → Multiset String
  | .literal _ => 0
  | .localVar _ => 0
  | .self => 0
  | .staticField _ _ => 0
  | .instanceField object _ _ => object.locals
  | .index array index => array.locals + index.locals
  | .length array => array.locals
  | .unary _ arg => arg.locals
  | .binary _ lhs rhs => lhs.locals + rhs.locals
  | .conditional cond onTrue onFalse =>
    cond.locals + onTrue.locals + onFalse.locals
  | .assign target value => target.locals + value.locals
  | .compoundAssign _ target value => target.locals + value.locals
  | .step _ target => target.locals
  | .call _ receiver args => localsOption receiver + localsExprs args
  | .new _ _ args => localsExprs args
  | .newArray _ length => length.locals
  | .arrayOf _ items => localsExprs items
  | .cast _ arg => arg.locals
  | .typeTest arg _ => arg.locals
  | .switch selector arms => selector.locals + localsArms arms
  | .letIn stmts body => localsAll stmts + body.locals

/- The locals that some expressions declare inside. -/
@[simp] def localsExprs : List Expr → Multiset String
  | [] => 0
  | e :: rest => e.locals + localsExprs rest

/- The locals that an optional expression declares inside. -/
@[simp] def localsOption : Option Expr → Multiset String
  | none => 0
  | some e => e.locals

/- The locals that some arms declare inside. -/
@[simp] def localsArms : List Arm → Multiset String
  | [] => 0
  | ⟨_, body⟩ :: rest => localsAll body + localsArms rest

/- The locals that a statement declares. -/
@[simp] def Stmt.locals : Stmt → Multiset String
  | ⟨form, _⟩ => form.locals

/- The locals that a form of statements declares. -/
@[simp] def StmtForm.locals : StmtForm → Multiset String
  | .declare name _ init => {name} + localsOption init
  | .expr e => e.locals
  | .block stmts => localsAll stmts
  | .cond cond onTrue onFalse =>
    cond.locals + onTrue.locals + localsStmt? onFalse
  | .while _ cond body => cond.locals + body.locals
  | .doWhile _ body cond => body.locals + cond.locals
  | .for _ init cond update body =>
    localsAll init + localsOption cond + localsExprs update
      + body.locals
  | .forEach _ name _ iterable body =>
    {name} + iterable.locals + body.locals
  | .switch selector arms => selector.locals + localsArms arms
  | .return value => localsOption value
  | .break _ => 0
  | .continue _ => 0
  | .yield value => value.locals
  | .throw exception => exception.locals
  | .try body catches => localsAll body + localsCatches catches
  | .assert cond message => cond.locals + localsOption message
  | .superCall _ args => localsExprs args
  | .probe _ => 0

/- The locals that some statements declare. -/
@[simp] def localsAll : List Stmt → Multiset String
  | [] => 0
  | s :: rest => s.locals + localsAll rest

/- The locals that an optional statement declares. -/
@[simp] def localsStmt? : Option Stmt → Multiset String
  | none => 0
  | some s => s.locals

/- The locals that some handlers declare. -/
@[simp] def localsCatches : List Catch → Multiset String
  | [] => 0
  | ⟨param, _, body, _⟩ :: rest =>
    {param} + localsAll body + localsCatches rest

end

/- The parameters and locals of a method. -/
def MethodDef.locals (m : MethodDef) : Multiset String :=
  Multiset.ofList (m.params.map fun x => x.name)
    + (m.body.map localsAll).getD 0

/- The parameters and locals of all methods of a class. -/
def ClassDef.locals (c : ClassDef) : Multiset String :=
  (c.methods.map MethodDef.locals).sum

/- The parameters and locals of all methods of a program. -/
def Program.locals (p : Program) : Multiset String :=
  (p.classes.map ClassDef.locals).sum

------------------------------------------------------------
-- Names that are Handed Out
------------------------------------------------------------

namespace Instrument

/-
  The names that are handed out while the count of names rises:
  one for each number.
-/
inductive Handed : Nat → Nat → Multiset String → Prop where
  | none (n : Nat) : Handed n n 0
  | next
      {n k : Nat}
      {names : Multiset String}
      (h : Handed n k names)
      (hint : String)
      (hWord : isWord hint = true) :
      Handed n (k + 1) (names + {fresh hint k})

namespace Handed

variable {n k l : Nat}
variable {names names' : Multiset String}

/- Names are handed out in two steps. -/
theorem trans
    (h : Handed n k names)
    (h' : Handed k l names') : Handed n l (names + names') := by
  induction h' with
  | none => rwa [add_zero]
  | next _ _ hWord ih =>
    rw [← add_assoc]
    exact ih.next _ hWord

/- The number of a name is one of those in between. -/
theorem number
    (h : Handed n k names)
    {x : String}
    (hx : x ∈ names) :
    ∃ hint l, isWord hint = true ∧ x = fresh hint l ∧ l < k := by
  induction h with
  | none => exact absurd hx (Multiset.notMem_zero x)
  | @next k names _ hint hWord ih =>
    rcases Multiset.mem_add.mp hx with hOld | hNew
    · rcases ih hOld with ⟨hint, l, hWord, rfl, hLess⟩
      exact ⟨hint, l, hWord, rfl, Nat.lt_succ_of_lt hLess⟩
    · rw [Multiset.mem_singleton] at hNew
      exact ⟨hint, k, hWord, hNew, Nat.lt_succ_self k⟩

/- No name is handed out twice. -/
theorem nodup
    (h : Handed n k names) : names.Nodup := by
  induction h with
  | none => exact Multiset.nodup_zero
  | next h _ hWord ih =>
    rw [add_comm, Multiset.singleton_add, Multiset.nodup_cons]
    refine ⟨fun hMem => ?_, ih⟩
    rcases h.number hMem with ⟨hint, l, hOther, hSame, hLess⟩
    exact absurd (fresh_inj hWord hOther hSame).2 (Nat.ne_of_gt hLess)

end Handed

/-
  What declares some locals becomes what declares these and names
  that are handed out.
-/
def Adds
    (n k : Nat)
    (old new : Multiset String) : Prop :=
  ∃ names, Handed n k names ∧ new = old + names

namespace Adds

variable {n k l : Nat}
variable {a a' b b' c : Multiset String}

/- What stays the same declares no other local. -/
theorem refl
    (n : Nat)
    (a : Multiset String) : Adds n n a a :=
  ⟨0, .none n, (add_zero a).symm⟩

/- Locals are added in two steps. -/
theorem trans
    (h : Adds n k a b)
    (h' : Adds k l b c) : Adds n l a c := by
  rcases h with ⟨names, hNames, rfl⟩
  rcases h' with ⟨names', hNames', rfl⟩
  exact ⟨names + names', hNames.trans hNames', add_assoc ..⟩

/- Locals are added to two parts. -/
theorem both
    (h : Adds n k a a')
    (h' : Adds k l b b') : Adds n l (a + b) (a' + b') := by
  rcases h with ⟨names, hNames, rfl⟩
  rcases h' with ⟨names', hNames', rfl⟩
  refine ⟨names + names', hNames.trans hNames', ?_⟩
  abel

/- Another part stays the same. -/
theorem beside
    (h : Adds n k a b)
    (c : Multiset String) : Adds n k (a + c) (b + c) :=
  h.both (.refl k c)

/- Another part in front stays the same. -/
theorem ahead
    (h : Adds n k a b)
    (c : Multiset String) : Adds n k (c + a) (c + b) :=
  (Adds.refl n c).both h

/- One more name is handed out. -/
theorem next
    (h : Adds n k a b)
    (hint : String)
    (hWord : isWord hint = true) :
    Adds n (k + 1) a (b + {fresh hint k}) := by
  rcases h with ⟨names, hNames, rfl⟩
  exact ⟨names + {fresh hint k}, hNames.next hint hWord, add_assoc ..⟩

/- The locals of two trees are the same. -/
theorem eq
    (h : Adds n k a b)
    (hOld : a = a')
    (hNew : b = b') : Adds n k a' b' := by
  rwa [← hOld, ← hNew]

end Adds

/- A pass that adds fresh locals to what it is given. -/
def Declares
    {α : Type}
    (old : Multiset String)
    (locals : α → Multiset String)
    (x : Pass α) : Prop :=
  ∀ n a n', x n = .ok (a, n') → Adds n n' old (locals a)

/- A pass that gives what it is given adds no local. -/
theorem declares_pure
    {α : Type}
    {old : Multiset String}
    {locals : α → Multiset String}
    {a : α}
    (h : locals a = old) : Declares old locals (pure a) := by
  intro n b n' hPure
  rcases pure_ok.mp hPure with ⟨rfl, rfl⟩
  exact (Adds.refl n old).eq rfl h.symm

/- What is given in the end adds no local. -/
theorem Adds.given
    {α : Type}
    {n k n' : Nat}
    {a b : Multiset String}
    {x y : α}
    (hAdds : Adds n k a b)
    (locals : α → Multiset String)
    (h : (pure x : Pass α) k = .ok (y, n'))
    (hSame : locals x = b) : Adds n n' a (locals y) := by
  rcases pure_ok.mp h with ⟨rfl, rfl⟩
  exact hAdds.eq rfl hSame.symm

/- A pass that fails adds no local. -/
theorem declares_fail
    {α : Type}
    {old : Multiset String}
    {locals : α → Multiset String}
    (f : Failure) : Declares old locals (fail f : Pass α) :=
  fun _ _ _ h => (fail_ok.mp h).elim

------------------------------------------------------------
-- Spliced Code
------------------------------------------------------------

section Locals

/- The locals of two lists of statements. -/
@[simp] theorem localsAll_append
    (ss ts : List Stmt) :
    localsAll (ss ++ ts) = localsAll ss + localsAll ts := by
  induction ss with
  | nil => exact (zero_add _).symm
  | cons s ss ih =>
    simp only [List.cons_append, localsAll, ih, add_assoc]

/- The locals of a statement in front of others. -/
@[simp] theorem localsAll_cons
    (s : Stmt)
    (ss : List Stmt) :
    localsAll (s :: ss) = s.locals + localsAll ss :=
  rfl

/- No statements declare no local. -/
@[simp] theorem localsAll_nil : localsAll [] = 0 :=
  rfl

/- A probe declares no local. -/
@[simp] theorem locals_probeAt
    (p : Probe Operand)
    (span : Span) : (probeAt p span).locals = 0 :=
  rfl

/- The probe of an operation declares no local. -/
@[simp] theorem locals_operationAt
    (o : Operation Operand)
    (span : Span) : (operationAt o span).locals = 0 :=
  rfl

/- The probe of a statement declares no local. -/
@[simp] theorem locals_statementAt
    (s : Statement Operand)
    (span : Span) : (statementAt s span).locals = 0 :=
  rfl

/- The locals of an expression behind statements. -/
@[simp] theorem locals_letIn
    (stmts : List Stmt)
    (body : Expr) :
    (Expr.letIn stmts body).locals = localsAll stmts + body.locals :=
  rfl

/- The locals of an expression are those of its form. -/
@[simp] theorem locals_rebuilt
    (e : Expr)
    (form : ExprForm) : (rebuilt e form).locals = form.locals :=
  rfl

/- A binding declares its name. -/
@[simp] theorem locals_holding_decl
    (name : String)
    (ty : Ty)
    (value : Expr) :
    (holding name ty value).decl.locals = {name} + value.locals :=
  rfl

/- Reading a binding declares no local. -/
@[simp] theorem locals_holding_read
    (name : String)
    (ty : Ty)
    (value : Expr) : (holding name ty value).read.locals = 0 :=
  rfl

/- The locals of a store are those of its parts. -/
@[simp] theorem locals_store
    (place value : Expr)
    (span : Span) :
    (store place value span).locals = place.locals + value.locals :=
  rfl

/- The locals of a combination are those of both values. -/
@[simp] theorem locals_combined
    (span : Span)
    (op : BinaryOp)
    (ty : Ty)
    (old rhs : Expr) :
    (combined span op ty old rhs).locals = old.locals + rhs.locals := by
  unfold combined
  dsimp only
  split <;> rfl

/- The locals of some statements as one statement. -/
@[simp] theorem locals_asOne
    (span : Span)
    (ss : List Stmt) : (asOne span ss).locals = localsAll ss := by
  rcases ss with _ | ⟨s, _ | ⟨t, ss⟩⟩
  · rfl
  · exact (add_zero _).symm
  · rfl

/- The locals of a loop between its probes. -/
theorem localsAll_looped
    (kind : LoopKind)
    (span : Span)
    (form : StmtForm) :
    localsAll (looped kind span form) = form.locals := by
  simp [looped, Stmt.locals]

end Locals

section Records

variable {n n' : Nat}
variable {e out : Expr}
variable {s : Stmt}

/- A condition is bound to one name. -/
theorem adds_recordCondition
    {span : Span}
    {cond : Expr}
    {report : Operand → Probe Operand}
    (h : recordCondition span cond report n = .ok (out, n')) :
    Adds n n' cond.locals out.locals := by
  simp only [recordCondition, bind_ok, bindTo_ok, operand_ok, pure_ok]
    at h
  obtain ⟨_, _, ⟨rfl, rfl⟩, _, _, ⟨_, rfl, rfl⟩, rfl, rfl⟩ := h
  refine ((Adds.refl n _).next "cond" rfl).eq rfl ?_
  simp [-Multiset.singleton_add]
  abel

/- The value that is read from a variable is bound to one name. -/
theorem adds_recordRead
    {span : Span}
    {read : Expr}
    {place : Place Operand}
    (h : recordRead span [] read (pure place) n = .ok (out, n')) :
    Adds n n' read.locals out.locals := by
  simp only [recordRead, bind_ok, bindTo_ok, operand_ok, pure_ok]
    at h
  obtain ⟨_, _, ⟨rfl, rfl⟩, _, _, ⟨rfl, rfl⟩, _, _, ⟨_, rfl, rfl⟩, rfl,
    rfl⟩ := h
  refine ((Adds.refl n _).next "read" rfl).eq rfl ?_
  simp [-Multiset.singleton_add]
  abel

/- An object and its field are bound to two names. -/
theorem adds_recordFieldRead
    {object : Expr}
    {cls field : String}
    (h : recordFieldRead e object cls field n = .ok (out, n')) :
    Adds n n' object.locals out.locals := by
  simp only [recordFieldRead, recordRead, bind_ok, bindTo_ok, operand_ok,
    pure_ok] at h
  obtain ⟨_, _, ⟨rfl, rfl⟩, _, _, ⟨rfl, rfl⟩, _, _,
    ⟨_, _, ⟨_, rfl, rfl⟩, rfl, rfl⟩, _, _, ⟨_, rfl, rfl⟩, rfl, rfl⟩ := h
  refine (((Adds.refl n _).next "obj" rfl).next "read" rfl).eq rfl ?_
  simp [-Multiset.singleton_add, ExprForm.locals]
  abel

/- An array, an index and the element are bound to three names. -/
theorem adds_recordElementRead
    {array index : Expr}
    (h : recordElementRead e array index n = .ok (out, n')) :
    Adds n n' (array.locals + index.locals) out.locals := by
  simp only [recordElementRead, recordRead, bind_ok, bindTo_ok,
    operand_ok, pure_ok] at h
  obtain ⟨_, _, ⟨rfl, rfl⟩, _, _, ⟨rfl, rfl⟩, _, _, ⟨rfl, rfl⟩, _, _,
    ⟨_, _, ⟨_, rfl, rfl⟩, _, _, ⟨_, rfl, rfl⟩, rfl, rfl⟩, _, _,
    ⟨_, rfl, rfl⟩, rfl, rfl⟩ := h
  refine ((((Adds.refl n _).next "arr" rfl).next "idx" rfl).next
    "read" rfl).eq rfl ?_
  simp [-Multiset.singleton_add, ExprForm.locals]
  abel

/- An operand and the result are bound to two names. -/
theorem adds_recordUnary
    {op : UnaryOp}
    {arg : Expr}
    (h : recordUnary e op arg n = .ok (out, n')) :
    Adds n n' arg.locals out.locals := by
  simp only [recordUnary, bind_ok, bindTo_ok, operand_ok, pure_ok]
    at h
  obtain ⟨_, _, ⟨rfl, rfl⟩, _, _, ⟨rfl, rfl⟩, _, _, ⟨_, rfl, rfl⟩, _, _,
    ⟨_, rfl, rfl⟩, rfl, rfl⟩ := h
  refine (((Adds.refl n _).next "operand" rfl).next "unary"
    rfl).eq rfl ?_
  simp [-Multiset.singleton_add, ExprForm.locals]
  abel

/- The right operand of a short-circuit operator stays in place. -/
theorem adds_recordShortCircuit
    {op : BinaryOp}
    {lhs rhs : Expr}
    (h : recordShortCircuit e op lhs rhs n = .ok (out, n')) :
    Adds n n' (lhs.locals + rhs.locals) out.locals := by
  simp only [recordShortCircuit, bind_ok, bindTo_ok, operand_ok, pure_ok]
    at h
  obtain ⟨_, _, ⟨rfl, rfl⟩, _, _, ⟨rfl, rfl⟩, _, _, ⟨_, rfl, rfl⟩, _, _,
    ⟨_, rfl, rfl⟩, _, _, ⟨_, rfl, rfl⟩, rfl, rfl⟩ := h
  refine (((Adds.refl n _).next "lhs" rfl).next "logic" rfl).eq rfl ?_
  simp [-Multiset.singleton_add, ExprForm.locals]
  abel

/- Both operands and the result are bound to three names. -/
theorem adds_recordStrict
    {op : BinaryOp}
    {lhs rhs : Expr}
    (h : recordStrict e op lhs rhs n = .ok (out, n')) :
    Adds n n' (lhs.locals + rhs.locals) out.locals := by
  simp only [recordStrict, bind_ok, bindTo_ok, operand_ok, pure_ok]
    at h
  obtain ⟨_, _, ⟨rfl, rfl⟩, _, _, ⟨rfl, rfl⟩, _, _, ⟨rfl, rfl⟩, _, _,
    ⟨_, rfl, rfl⟩, _, _, ⟨_, rfl, rfl⟩, _, _, ⟨_, rfl, rfl⟩, rfl, rfl⟩ := h
  refine ((((Adds.refl n _).next "lhs" rfl).next "rhs" rfl).next
    "binary" rfl).eq rfl ?_
  simp [-Multiset.singleton_add, ExprForm.locals]
  abel

/- A cast value and the outcome are bound to two names. -/
theorem adds_recordCast
    {target : Ty}
    {value : Expr}
    (h : recordCast e target value n = .ok (out, n')) :
    Adds n n' value.locals out.locals := by
  simp only [recordCast, bind_ok, bindTo_ok, operand_ok, pure_ok]
    at h
  obtain ⟨_, _, ⟨rfl, rfl⟩, _, _, ⟨rfl, rfl⟩, _, _, ⟨_, rfl, rfl⟩, _, _,
    ⟨_, rfl, rfl⟩, rfl, rfl⟩ := h
  refine (((Adds.refl n _).next "casted" rfl).next "castable"
    rfl).eq rfl ?_
  simp [-Multiset.singleton_add, castable, Expr.locals, ExprForm.locals]
  abel

/- A tested value and the outcome are bound to two names. -/
theorem adds_recordTypeTest
    {target : Ty}
    {value : Expr}
    (h : recordTypeTest e value target n = .ok (out, n')) :
    Adds n n' value.locals out.locals := by
  simp only [recordTypeTest, bind_ok, bindTo_ok, operand_ok, pure_ok]
    at h
  obtain ⟨_, _, ⟨rfl, rfl⟩, _, _, ⟨rfl, rfl⟩, _, _, ⟨_, rfl, rfl⟩, _, _,
    ⟨_, rfl, rfl⟩, rfl, rfl⟩ := h
  refine (((Adds.refl n _).next "tested" rfl).next "is" rfl).eq rfl ?_
  simp [-Multiset.singleton_add, ExprForm.locals]
  abel

/- A selector is bound to a name in front of the arms. -/
theorem adds_recordSelector
    {selector : Expr}
    {armList : List Arm}
    {x : Pass (List Arm)}
    (hArms : Declares (localsArms armList) localsArms x)
    (h : recordSelector e selector x n = .ok (out, n')) :
    Adds n n' (selector.locals + localsArms armList) out.locals := by
  simp only [recordSelector, bind_ok, bindTo_ok, operand_ok, pure_ok]
    at h
  obtain ⟨_, _, ⟨rfl, rfl⟩, _, _, ⟨_, rfl, rfl⟩, as, k, hAs, rfl, rfl⟩ :=
    h
  refine (((Adds.refl n _).next "sel" rfl).both
    (hArms _ _ _ hAs)).eq rfl ?_
  simp [-Multiset.singleton_add, ExprForm.locals]
  abel

/- Statements under a handler declare the exception besides. -/
theorem adds_guarded
    {body : List Stmt}
    {onAbort : Operand → Probe Operand}
    {span : Span}
    (h : guarded body onAbort span n = .ok (s, n')) :
    Adds n n' (localsAll body) s.locals := by
  rcases guarded_ok.mp h with ⟨rfl, rfl⟩
  refine ((Adds.refl n _).next "exc" rfl).eq rfl ?_
  simp [-Multiset.singleton_add, rethrowing, Stmt.locals,
    StmtForm.locals, Expr.locals, ExprForm.locals, localsCatches]

/- The locals of a call with its receiver and arguments bound. -/
def CallSite.locals (c : CallSite) : Multiset String :=
  localsAll c.before + c.call.locals

/- A call for its value declares the result and the exception. -/
theorem adds_valueCall
    {c : CallSite}
    (h : valueCall e c n = .ok (out, n')) :
    Adds n n' c.locals out.locals := by
  simp only [valueCall, CallSite.guarded, bind_ok, freshName_ok,
    operand_ok, pure_ok] at h
  obtain ⟨_, _, ⟨rfl, rfl⟩, call, k, hCall, _, _, ⟨_, rfl, rfl⟩, rfl,
    rfl⟩ := h
  rcases guarded_ok.mp hCall with ⟨rfl, rfl⟩
  refine (((Adds.refl n _).next "result" rfl).next "exc" rfl).eq rfl ?_
  simp [-Multiset.singleton_add, CallSite.locals, rethrowing, Stmt.locals,
    StmtForm.locals, Expr.locals, ExprForm.locals, localsCatches,
    localsOption]
  abel

/- A call without a result declares the exception. -/
theorem adds_voidCall
    {span : Span}
    {c : CallSite}
    (h : voidCall span c n = .ok (s, n')) :
    Adds n n' c.locals s.locals := by
  simp only [voidCall, CallSite.guarded, bind_ok, pure_ok] at h
  obtain ⟨call, k, hCall, rfl, rfl⟩ := h
  rcases guarded_ok.mp hCall with ⟨rfl, rfl⟩
  refine ((Adds.refl n _).next "exc" rfl).eq rfl ?_
  simp [-Multiset.singleton_add, CallSite.locals, rethrowing, Stmt.locals,
    StmtForm.locals, Expr.locals, ExprForm.locals, localsCatches]
  abel

/- An assigned value is bound to one name. -/
theorem adds_recordAssign
    {p : BoundPlace}
    {value : Expr}
    (hTarget : p.target.locals = 0)
    (h : recordAssign e p value n = .ok (out, n')) :
    Adds n n' (localsAll p.before + value.locals) out.locals := by
  simp only [recordAssign, bind_ok, bindAs_ok, operand_ok, pure_ok]
    at h
  obtain ⟨_, _, ⟨rfl, rfl⟩, _, _, ⟨_, rfl, rfl⟩, rfl, rfl⟩ := h
  refine ((Adds.refl n _).next "value" rfl).eq rfl ?_
  simp [-Multiset.singleton_add, hTarget]
  abel

/- The values of a compound assignment are bound to three names. -/
theorem adds_recordCompound
    {op : BinaryOp}
    {p : BoundPlace}
    {value : Expr}
    {x : Pass Expr}
    (hTarget : p.target.locals = 0)
    (hValue : Declares value.locals Expr.locals x)
    (h : recordCompound e op p x n = .ok (out, n')) :
    Adds n n' (localsAll p.before + value.locals) out.locals := by
  simp only [recordCompound, bind_ok, bindTo_ok, operand_ok, pure_ok]
    at h
  obtain ⟨_, _, ⟨rfl, rfl⟩, v, k, hv, _, _, ⟨rfl, rfl⟩, _, _, ⟨rfl, rfl⟩,
    _, _, ⟨_, rfl, rfl⟩, _, _, ⟨_, rfl, rfl⟩, _, _, ⟨_, rfl, rfl⟩, rfl,
    rfl⟩ := h
  refine (((((Adds.refl n (localsAll p.before)).next "old" rfl).both
    (hValue _ _ _ hv)).next "rhs" rfl).next "new" rfl).eq rfl ?_
  simp [-Multiset.singleton_add, hTarget]
  abel

/- The values of a step are bound to three names. -/
theorem adds_recordStep
    {op : StepOp}
    {p : BoundPlace}
    (hTarget : p.target.locals = 0)
    (h : recordStep e op p n = .ok (out, n')) :
    Adds n n' (localsAll p.before) out.locals := by
  simp only [recordStep, bind_ok, bindTo_ok, operand_ok, pure_ok]
    at h
  obtain ⟨_, _, ⟨rfl, rfl⟩, _, _, ⟨rfl, rfl⟩, _, _, ⟨rfl, rfl⟩, _, _,
    ⟨_, rfl, rfl⟩, _, _, ⟨_, rfl, rfl⟩, _, _, ⟨_, rfl, rfl⟩, rfl, rfl⟩ := h
  refine ((((Adds.refl n _).next "old" rfl).next "res" rfl).next "new"
    rfl).eq rfl ?_
  simp [-Multiset.singleton_add, hTarget, ExprForm.locals]
  abel

/- A call whose receiver and arguments are read off variables. -/
theorem locals_callSite
    {callee : Callee}
    {receiver : Option Bound}
    {args : List Bound}
    {c : CallSite}
    (h : callSite e callee receiver args n = .ok (c, n')) :
    n = n' ∧ c.locals
      = localsAll (receiver.toList.map Bound.decl)
        + localsOption (receiver.map Bound.read)
        + (localsAll (args.map Bound.decl)
          + localsExprs (args.map Bound.read)) := by
  simp only [callSite, bind_ok, pure_ok] at h
  obtain ⟨r, k, hr, as, l, has, rfl, rfl⟩ := h
  rcases operand?_ok hr with ⟨rfl, rfl⟩
  rcases operands_ok has with ⟨rfl, rfl⟩
  refine ⟨rfl, ?_⟩
  simp [-Multiset.singleton_add, CallSite.locals, ExprForm.locals]
  abel

/- A new object whose arguments are read off variables. -/
theorem locals_constructorSite
    {cls signature : String}
    {args : List Bound}
    {c : CallSite}
    (h : constructorSite e cls signature args n = .ok (c, n')) :
    n = n' ∧ c.locals
      = localsAll (args.map Bound.decl)
        + localsExprs (args.map Bound.read) := by
  simp only [constructorSite, bind_ok, pure_ok] at h
  obtain ⟨as, l, has, rfl, rfl⟩ := h
  rcases operands_ok has with ⟨rfl, rfl⟩
  refine ⟨rfl, ?_⟩
  simp [-Multiset.singleton_add, CallSite.locals, ExprForm.locals]

end Records

section Bindings

variable {o : Options}
variable {site : Site}
variable {n n' : Nat}

/- A bound receiver is read off a variable. -/
theorem reads_boundReceiver
    {receiver : Option Expr}
    {b : Option Bound}
    (h : boundReceiver o site receiver n = .ok (b, n')) :
    localsOption (b.map Bound.read) = 0 := by
  cases receiver with
  | none =>
    rcases pure_ok.mp h with ⟨rfl, rfl⟩
    rfl
  | some e =>
    simp only [boundReceiver, bind_ok, bindTo_ok, pure_ok] at h
    obtain ⟨e', k, hExpr, _, _, ⟨rfl, rfl⟩, rfl, rfl⟩ := h
    rfl

/- Bound arguments are read off variables. -/
theorem reads_boundArgs
    {args : List Expr}
    {bs : List Bound}
    (h : boundArgs o site args n = .ok (bs, n')) :
    localsExprs (bs.map Bound.read) = 0 := by
  induction args generalizing n bs with
  | nil =>
    rcases pure_ok.mp h with ⟨rfl, rfl⟩
    rfl
  | cons e rest ih =>
    simp only [boundArgs, bind_ok, bindTo_ok, pure_ok] at h
    obtain ⟨e', k, hExpr, _, _, ⟨rfl, rfl⟩, bs', l, hRest, rfl, rfl⟩ := h
    simpa [localsExprs] using ih hRest

/- A place whose parts are bound declares no local. -/
theorem locals_target
    {e : Expr}
    {p : BoundPlace}
    (h : place o site e n = .ok (p, n')) : p.target.locals = 0 := by
  rcases e with ⟨form, ty, span⟩
  cases form with
  | localVar name =>
    rcases pure_ok.mp h with ⟨rfl, rfl⟩
    rfl
  | staticField cls field =>
    rcases pure_ok.mp h with ⟨rfl, rfl⟩
    rfl
  | instanceField object cls field =>
    simp only [place, bind_ok, bindTo_ok, operand_ok, pure_ok] at h
    obtain ⟨object', k, hObject, _, _, ⟨rfl, rfl⟩, _, _, ⟨_, rfl, rfl⟩,
      rfl, rfl⟩ := h
    rfl
  | index array index =>
    simp only [place, bind_ok, bindTo_ok, operand_ok, pure_ok] at h
    obtain ⟨array', k, hArray, _, _, ⟨rfl, rfl⟩, index', l, hIndex, _, _,
      ⟨rfl, rfl⟩, _, _, ⟨_, rfl, rfl⟩, _, _, ⟨_, rfl, rfl⟩, rfl, rfl⟩ := h
    rfl
  | _ => simp only [place, fail_ok] at h

end Bindings

end Instrument

end ExecTrace
