import ExecTrace.Machine.Eval
import ExecTrace.Proofs.Growth
import ExecTrace.Proofs.Simulation
import ExecTrace.Proofs.Traversal

/-
  Congruences of runs. A relation between two ways to run the
  parts of a program is one between the ways to run the whole if
  it is kept by sequences and by the steps of a machine that
  leave local variables alone. So an expression is run alike in
  two ways if its direct parts are, and if the methods of the
  program are.

  Main declarations:
    * `Congruence`
    * `Program.declares_of_findMethod`
    * `Congruence.Invokers`
    * `Congruence.textOf`, `Congruence.onClass`
    * `ExprForm.parts` and `ExprForm.assigned?`
    * `Carries.runArms`, `Carries.yieldFromArms`
    * `Congruence.evalForm`, `Congruence.execForm`
    * `Congruence.iterate`, `Congruence.switchOn`
    * `Congruence.activate`
-/

namespace ExecTrace

open Run

/- Nothing is seen by the silent observer. -/
theorem watch_silent
    (x : Moment) : watch .silent x = pure () :=
  rfl

------------------------------------------------------------
-- Declared Methods
------------------------------------------------------------

namespace Program

variable {p : Program}
variable {c : ClassDef}
variable {m : MethodDef}
variable {name : String}
variable {arity : Nat}

/- The classes above a class are declared. -/
theorem mem_of_lineageWithin
    (steps : Nat)
    (above : Option String)
    (h : c ∈ p.lineageWithin steps above) : c ∈ p.classes := by
  induction steps generalizing above with
  | zero => cases h
  | succ steps ih =>
    cases above with
    | none => cases h
    | some above =>
      unfold lineageWithin at h
      cases hClass : p.class? above with
      | none => simp [hClass] at h
      | some d =>
        simp only [hClass, List.mem_cons] at h
        rcases h with rfl | h
        · exact List.mem_of_find?_eq_some hClass
        · exact ih _ h

/- A method that is found is declared. -/
theorem mem_of_methodIn
    {cs : List ClassDef}
    (h : methodIn? name arity cs = some (c, m)) :
    c ∈ cs ∧ c.method? name arity = some m := by
  induction cs with
  | nil => cases h
  | cons d rest ih =>
    unfold methodIn? at h
    cases hMethod : d.method? name arity with
    | none =>
      rw [hMethod] at h
      rcases ih h with ⟨hc, hm⟩
      exact ⟨List.mem_cons_of_mem _ hc, hm⟩
    | some m' =>
      rw [hMethod] at h
      cases h
      exact ⟨List.mem_cons_self, hMethod⟩

/- A method of a program, with the class that declares it. -/
def Declares
    (p : Program)
    (c : ClassDef)
    (m : MethodDef) : Prop :=
  c ∈ p.classes ∧ m ∈ c.methods

/- The nearest method among declared classes is declared. -/
theorem declares_of_methodIn
    {cs : List ClassDef}
    (hcs : ∀ c ∈ cs, c ∈ p.classes)
    (h : methodIn? name arity cs = some (c, m)) :
    p.Declares c m := by
  rcases mem_of_methodIn h with ⟨hc, hm⟩
  exact ⟨hcs c hc, List.mem_of_find?_eq_some hm⟩

/- The nearest method of a class is declared. -/
theorem declares_of_findMethod
    {cls : String}
    (h : p.findMethod? cls name arity = some (c, m)) :
    p.Declares c m :=
  declares_of_methodIn (fun _ => mem_of_lineageWithin _ _) h

end Program

------------------------------------------------------------
-- Parts of Trees
------------------------------------------------------------

/- The local variable that a target is, if it is one. -/
def Pending.variable? : Pending → Option String
  | .localVar name => some name
  | _ => none

/- The local variable that a place is, if it is one. -/
def Location.variable? : Location → Option String
  | .localVar name => some name
  | _ => none

/- The local variable that an expression is, if it is one. -/
def Expr.variable? (e : Expr) : Option String :=
  match e.form with
  | .localVar name => some name
  | _ => none

/- The parts of a target that are evaluated. -/
def Expr.placeParts (e : Expr) : List Expr :=
  match e.form with
  | .instanceField object _ _ => [object]
  | .index array index => [array, index]
  | _ => []

/- The expressions that a form evaluates by itself. -/
def ExprForm.parts : ExprForm → List Expr
  | .literal _ => []
  | .localVar _ => []
  | .self => []
  | .staticField _ _ => []
  | .instanceField object _ _ => [object]
  | .index array i => [array, i]
  | .length array => [array]
  | .unary _ arg => [arg]
  | .binary _ lhs rhs => [lhs, rhs]
  | .conditional cond onTrue onFalse => [cond, onTrue, onFalse]
  | .assign target value => target.placeParts ++ [value]
  | .compoundAssign _ target value =>
    target.placeParts ++ [value]
  | .step _ target => target.placeParts
  | .call _ receiver args => receiver.toList ++ args
  | .new _ _ args => args
  | .newArray _ size => [size]
  | .arrayOf _ items => items
  | .cast _ arg => [arg]
  | .typeTest arg _ => [arg]
  | .switch selector _ => [selector]
  | .letIn _ _ => []

/- The local variable that a form assigns, if it does. -/
def ExprForm.assigned? : ExprForm → Option String
  | .assign target _ => target.variable?
  | .compoundAssign _ target _ => target.variable?
  | .step _ target => target.variable?
  | _ => none

/- Whether a form runs statements. -/
def ExprForm.isNested : ExprForm → Bool
  | .switch _ _ => true
  | .letIn _ _ => true
  | _ => false

/- The expressions that a form evaluates by itself. -/
def StmtForm.parts : StmtForm → List Expr
  | .declare _ _ init => init.toList
  | .expr e => [e]
  | .return value => value.toList
  | .throw exception => [exception]
  | .assert test message => test :: message.toList
  | .superCall _ args => args
  | _ => []

/-
  Whether a form runs no statements and declares no variable,
  and is no jump and no probe.
-/
def StmtForm.isPlain : StmtForm → Bool
  | .expr _ => true
  | .return _ => true
  | .throw _ => true
  | .assert _ _ => true
  | .superCall _ _ => true
  | _ => false

/- Whether a form of statements is a declaration. -/
def StmtForm.isDeclare : StmtForm → Bool
  | .declare _ _ _ => true
  | _ => false

------------------------------------------------------------
-- Arms of Switches
------------------------------------------------------------

section Arms

variable {R : (β : Type) → Run β → Run β → Prop}
variable {run run' : List Stmt → Run Flow}
variable {arms : List Arm}

/- Arms are run alike in two ways if their bodies are. -/
theorem Carries.runArms
    (h : Carries Run Run R)
    (hArms : ∀ arm ∈ arms, R Flow (run arm.body) (run' arm.body)) :
    R Flow (ExecTrace.runArms run arms)
      (ExecTrace.runArms run' arms) := by
  induction arms with
  | nil => exact h.pure _
  | cons arm rest ih =>
    refine h.bind (hArms arm List.mem_cons_self) fun flow => ?_
    cases flow with
    | normal =>
      exact ih fun a ha => hArms a (List.mem_cons_of_mem _ ha)
    | «break» label => cases label <;> exact h.pure _
    | _ => exact h.pure _

/- The same for arms that yield a value. -/
theorem Carries.yieldFromArms
    (h : Carries Run Run R)
    (hNone : R Val (fault .noYield) (fault .noYield))
    (hEscaped : ∀ flow,
      R Val (faultEscaped .escapedSwitch flow)
        (faultEscaped .escapedSwitch flow))
    (hArms : ∀ arm ∈ arms, R Flow (run arm.body) (run' arm.body)) :
    R Val (ExecTrace.yieldFromArms run arms)
      (ExecTrace.yieldFromArms run' arms) := by
  induction arms with
  | nil => exact hNone
  | cons arm rest ih =>
    refine h.bind (hArms arm List.mem_cons_self) fun flow => ?_
    cases flow with
    | normal =>
      exact ih fun a ha => hArms a (List.mem_cons_of_mem _ ha)
    | yield v => exact h.pure _
    | _ => exact hEscaped _

end Arms

------------------------------------------------------------
-- Congruences
------------------------------------------------------------

/- Whether an observer has stopped a run. -/
def Interrupt.isStop : Interrupt → Bool
  | .stopped _ => true
  | _ => false

/- Whether a run was cut short by the program or for its fuel. -/
def Interrupt.isOwn : Interrupt → Bool
  | .stopped _ => false
  | .panic _ => false
  | _ => true

/- A program does not stop a run. -/
theorem Interrupt.isStop_of_isOwn
    {c : Interrupt}
    (h : c.isOwn = true) : c.isStop = false := by
  cases c <;> first | rfl | cases h

/-
  A relation between runs that holds of equal results and of
  sequences of related parts, and of the mild steps of a machine.
-/
structure Congruence
    (R : (β : Type) → Run β → Run β → Prop) : Prop
    extends Carries Run Run R where
  look : ∀ {β : Type} {f g : Machine → Run β},
    (∀ m, R β (f m) (g m)) →
      R β ((get : Run Machine) >>= f) ((get : Run Machine) >>= g)
  cut : ∀ {β : Type} (c : Interrupt), c.isOwn = true →
    R β (throw c) (throw c)
  alter : ∀ {β : Type} (f : Machine → β × Machine),
    Machine.Mild f →
      R β (fun m => (.ok (f m).1, (f m).2))
        (fun m => (.ok (f m).1, (f m).2))
  inFrame : ∀ {β : Type} {x y : Run β} (frame : Frame),
    frame.instrumented = false →
      R β x y → R β (ExecTrace.inFrame frame x)
        (ExecTrace.inFrame frame y)

namespace Congruence

section Steps

variable {R : (β : Type) → Run β → Run β → Prop}
variable {α β : Type}
variable {p : Program}

------------------------------------------------------------
-- Faults and Exceptions
------------------------------------------------------------

/- A program that cannot be executed. -/
theorem fault
    (h : Congruence R)
    (c : Fault) : R β (Run.fault c) (Run.fault c) :=
  h.cut (.fault c) rfl

/- A fault that shows a value. -/
theorem faultShowing
    (h : Congruence R)
    (cause : String → Fault)
    (v : Val) :
    R β (Run.faultShowing cause v) (Run.faultShowing cause v) :=
  h.look fun _ => h.fault _

/- A fault that names the class of a value. -/
theorem faultNaming
    (h : Congruence R)
    (cause : String → Fault)
    (v : Val) :
    R β (Run.faultNaming cause v) (Run.faultNaming cause v) :=
  h.look fun _ => h.fault _

/- A fault that shows an end. -/
theorem faultEscaped
    (h : Congruence R)
    (cause : String → Fault)
    (flow : Flow) :
    R β (Run.faultEscaped cause flow)
      (Run.faultEscaped cause flow) :=
  h.look fun _ => h.fault _

/- The next number. -/
theorem freshId
    (h : Congruence R) : R UInt64 Run.freshId Run.freshId :=
  h.alter (fun m => (m.nextId, { m with nextId := m.nextId + 1 }))
    (.ofHeap (fun _ => rfl) (fun _ => rfl) (fun _ => rfl)
      fun _ => rfl)

/- A change of the heap. -/
theorem onHeap
    (h : Congruence R)
    {f : Heap → Heap × Val}
    (hf : ∀ heap : Heap, heap.Extends (f heap).1) :
    R Val (Run.onHeap f) (Run.onHeap f) :=
  h.alter (fun m => ((f m.heap).2, { m with heap := (f m.heap).1 }))
    ⟨fun _ => rfl, fun _ => rfl, fun _ => rfl, fun _ => hf _⟩

/- A change of a heap that extends it. -/
theorem reheap
    (h : Congruence R)
    {f : Heap → Heap}
    (hf : ∀ heap : Heap, heap.Extends (f heap)) :
    R Unit (modify fun m => { m with heap := f m.heap })
      (modify fun m => { m with heap := f m.heap }) :=
  h.alter (fun m => ((), { m with heap := f m.heap }))
    ⟨fun _ => rfl, fun _ => rfl, fun _ => rfl, fun _ => hf _⟩

/- A mild change. -/
theorem modify
    (h : Congruence R)
    {f : Machine → Machine}
    (hf : Machine.Mild fun m => ((), f m)) :
    R Unit (modify f) (modify f) :=
  h.alter (fun m => ((), f m)) hf

/- A new object. -/
theorem allocate
    (h : Congruence R)
    (cls : String) :
    R Val (Run.allocate p cls) (Run.allocate p cls) :=
  h.bind h.freshId fun _ => h.onHeap fun _ => .addObject _

/- A new array. -/
theorem newArray
    (h : Congruence R)
    (element : Ty)
    (items : List Val) :
    R Val (Run.newArray element items)
      (Run.newArray element items) :=
  h.bind h.freshId fun _ => h.onHeap fun _ => .addArray _

/- A new exception. -/
theorem exception
    (h : Congruence R)
    (cls : String)
    (message : Option String) :
    R Val (Run.exception p cls message)
      (Run.exception p cls message) := by
  refine h.bind (h.allocate cls) fun e => ?_
  cases e with
  | obj a =>
    cases message with
    | some text =>
      exact h.bind (h.reheap fun _ => .setField _ _ _)
        fun _ => h.pure _
    | none => exact h.pure _
  | _ => exact h.pure _

/- A new exception is thrown. -/
theorem raise
    (h : Congruence R)
    (cls message : String) :
    R β (Run.raise p cls message) (Run.raise p cls message) :=
  h.bind (h.exception cls _) fun _ => h.cut _ rfl

/- The exception for something done to null. -/
theorem raiseNull
    (h : Congruence R)
    (action : String) :
    R β (Run.raiseNull p action) (Run.raiseNull p action) :=
  h.raise _ _

/- An operator without a result. -/
theorem operatorError
    (h : Congruence R)
    (e : OperatorError) :
    R β (Run.operatorError p e) (Run.operatorError p e) := by
  refine h.look fun m => ?_
  split
  · exact h.raise _ _
  · exact h.fault _

/- The result of an operator. -/
theorem ofOperator
    (h : Congruence R)
    (result : Except OperatorError Val) :
    R Val (Run.ofOperator p result) (Run.ofOperator p result) := by
  cases result with
  | ok v => exact h.pure v
  | error e => exact h.operatorError e

------------------------------------------------------------
-- Variables and Places
------------------------------------------------------------

/- The value of a local variable. -/
theorem getLocal
    (h : Congruence R)
    (name : String) :
    R Val (Run.getLocal name) (Run.getLocal name) := by
  refine h.look fun m => ?_
  split
  · exact h.pure _
  · exact h.fault _

/- The value of a static field. -/
theorem getStatic
    (h : Congruence R)
    (cls field : String) :
    R Val (Run.getStatic p cls field)
      (Run.getStatic p cls field) := by
  unfold Run.getStatic
  split
  · exact h.fault _
  · refine h.look fun m => ?_
    split <;> exact h.pure _

/- A static field is set. -/
theorem setStatic
    (h : Congruence R)
    (cls field : String)
    (v : Val) :
    R Unit (Run.setStatic p cls field v)
      (Run.setStatic p cls field v) := by
  unfold Run.setStatic
  split
  · exact h.fault _
  · exact h.modify (.ofHeap (fun _ => rfl) (fun _ => rfl)
      (fun _ => rfl) fun _ => rfl)

/- A text is written. -/
theorem write
    (h : Congruence R)
    (text : String) : R Unit (Run.write text) (Run.write text) :=
  h.modify (.ofHeap (fun _ => rfl) (fun _ => rfl) (fun _ => rfl)
    fun _ => rfl)

/- The truth value that a condition came to. -/
theorem truthOf
    (h : Congruence R)
    (e : Expr)
    (v : Val) :
    R Bool (ExecTrace.truthOf e v) (ExecTrace.truthOf e v) := by
  unfold ExecTrace.truthOf
  split
  · exact h.pure _
  · exact h.faultShowing _ _

/- Nothing follows an exception that is thrown. -/
theorem raise_bind
    (cls message : String)
    (f : α → Run β) :
    ((Run.raise p cls message : Run α) >>= f)
      = Run.raise p cls message := by
  unfold Run.raise
  rw [bind_assoc]
  rfl

/- A place is a variable if the target that leads to it is. -/
theorem locate
    (h : Congruence R)
    (pending : Pending)
    {f g : Location → Run β}
    (hf : ∀ place : Location,
      place.variable? = pending.variable? →
        R β (f place) (g place)) :
    R β (pending.locate p >>= f) (pending.locate p >>= g) := by
  have hRaise : ∀ cls message,
      R β ((Run.raise p cls message : Run Location) >>= f)
        ((Run.raise p cls message : Run Location) >>= g) := by
    intro cls message
    rw [raise_bind, raise_bind]
    exact h.raise cls message
  cases pending with
  | localVar name => exact hf _ rfl
  | static cls field => exact hf _ rfl
  | member v name =>
    cases v with
    | obj a => exact hf _ rfl
    | null => exact hRaise _ _
    | _ => exact h.faultNaming _ _
  | element array index =>
    cases array with
    | arr a =>
      simp only [Pending.locate, bind_assoc]
      refine h.look fun m => ?_
      cases index.asInt? with
      | none => exact h.faultShowing _ _
      | some i =>
        simp only
        split
        · exact hf _ rfl
        · exact hRaise _ _
    | null => exact hRaise _ _
    | _ => exact h.faultNaming _ _

/- The value in a place. -/
theorem load
    (h : Congruence R)
    (place : Location) : R Val (place.load p) (place.load p) := by
  cases place with
  | localVar name => exact h.getLocal name
  | static cls name => exact h.getStatic cls name
  | member a name =>
    refine h.look fun m => ?_
    simp only
    split
    · exact h.pure _
    · exact h.fault _
  | element a i =>
    refine h.look fun m => ?_
    split
    · exact h.pure _
    · exact h.fault _

/- The value in the place that some parts lead to. -/
theorem read
    (h : Congruence R)
    (pending : Pending) :
    R Val (pending.read p) (pending.read p) :=
  h.locate pending fun place _ => h.load place

/- A local variable that may be set. -/
def Sets
    (R : (β : Type) → Run β → Run β → Prop)
    (name : String) : Prop :=
  ∀ v, R Unit (setLocal name v) (setLocal name v)

/- A value is put into a place, if that place may be set. -/
theorem store
    (h : Congruence R)
    {place : Location}
    (hSets : ∀ name ∈ place.variable?, Sets R name)
    (v : Val) : R Unit (place.store p v) (place.store p v) := by
  cases place with
  | localVar name => exact hSets name rfl v
  | static cls name => exact h.setStatic cls name v
  | member a name => exact h.reheap fun _ => .setField _ _ _
  | element a i => exact h.reheap fun _ => .setItem _ _ _

/- A value is put into the place that some parts lead to. -/
theorem writeTo
    (h : Congruence R)
    {pending : Pending}
    (hSets : ∀ name ∈ pending.variable?, Sets R name)
    (v : Val) : R Unit (pending.write p v) (pending.write p v) :=
  h.locate pending fun _ hPlace => h.store (hPlace ▸ hSets) v

end Steps

------------------------------------------------------------
-- Calls
------------------------------------------------------------

/-
  Two ways to run methods that are related on the methods of a
  program.
-/
def Invokers
    (R : (β : Type) → Run β → Run β → Prop)
    (p : Program)
    (i j : Invoker) : Prop :=
  ∀ c m, p.Declares c m → ∀ self args,
    R Val (i c m self args) (j c m self args)

section Calls

variable {R : (β : Type) → Run β → Run β → Prop}
variable {p : Program}
variable {i j : Invoker}

/- The text of a value. -/
theorem textOf
    (h : Congruence R)
    (hi : Invokers R p i j)
    (via : String)
    (v : Val) :
    R String (Call.textOf p i via v) (Call.textOf p j via v) := by
  refine h.look fun m => ?_
  cases v with
  | obj a =>
    simp only
    cases hFind : p.findMethod? (m.heap.classOf a) "toString" 0 with
    | none => exact h.pure _
    | some found =>
      rcases found with ⟨owner, method⟩
      simp only
      split
      · exact h.pure _
      · have hDeclared := Program.declares_of_findMethod hFind
        refine h.bind (h.inFrame _ rfl (hi _ _ hDeclared _ _))
          fun result => ?_
        exact h.look fun _ => h.pure _
  | _ => exact h.pure _

/- A text is printed. -/
theorem print
    (h : Congruence R)
    (hi : Invokers R p i j)
    (v : Val)
    (behind : String) :
    R Val (Call.print p i v behind) (Call.print p j v behind) :=
  h.bind (h.textOf hi "print" v) fun _ =>
    h.bind (h.write _) fun _ => h.pure _

/- One of two values is chosen. -/
theorem extreme
    (h : Congruence R)
    (method : String)
    (op : BinaryOp)
    (a b : Val) :
    R Val (Call.extreme method op a b)
      (Call.extreme method op a b) := by
  unfold Call.extreme
  split
  · exact h.pure _
  · exact h.look fun _ => h.fault _

/- Static methods without a declaration. -/
theorem builtinStatic?
    (h : Congruence R)
    (hi : Invokers R p i j)
    (cls method : String)
    (args : List Val) :
    Option.Rel (R Val) (Call.builtinStatic? p i cls method args)
      (Call.builtinStatic? p j cls method args) := by
  unfold Call.builtinStatic?
  split
  · rename_i x
    cases x.number? with
    | some n => exact .some (h.pure _)
    | none => exact .some (h.faultShowing _ _)
  · exact .some (h.extreme _ _ _ _)
  · exact .some (h.extreme _ _ _ _)
  · exact .some (h.bind (h.write _) fun _ => h.pure _)
  · exact .some (h.print hi _ _)
  · exact .some (h.print hi _ _)
  · exact .some (h.bind (h.textOf hi _ _) fun _ => h.pure _)
  · exact .none

/- A character of a string. -/
theorem charAt
    (h : Congruence R)
    (text : String)
    (index : Val) :
    R Val (Call.charAt p text index) (Call.charAt p text index) := by
  have hOutside : R Val
      (Call.raiseOutside p text.toList.length index)
      (Call.raiseOutside p text.toList.length index) :=
    h.look fun _ => h.raise _ _
  unfold Call.charAt
  cases index.asInt? with
  | none => exact hOutside
  | some k =>
    simp only
    split
    · cases text.toList[k.toInt.toNat]? with
      | some c => exact h.pure _
      | none => exact h.fault _
    · exact hOutside

/- Methods of strings. -/
theorem stringMethod?
    (h : Congruence R)
    (text method : String)
    (args : List Val) :
    Option.Rel (R Val) (Call.stringMethod? p text method args)
      (Call.stringMethod? p text method args) := by
  unfold Call.stringMethod?
  split
  · exact .some (h.pure _)
  · exact .some (h.pure _)
  · exact .some (h.charAt _ _)
  · exact .some (h.pure _)
  · exact .some (h.pure _)
  · exact .none

/- Methods of every value. -/
theorem anyMethod?
    (h : Congruence R)
    (hi : Invokers R p i j)
    (receiver : Val)
    (method : String)
    (args : List Val) :
    Option.Rel (R Val) (Call.anyMethod? p i receiver method args)
      (Call.anyMethod? p j receiver method args) := by
  unfold Call.anyMethod?
  split
  · exact .some (h.bind (h.textOf hi _ _) fun _ => h.pure _)
  · refine .some (h.look fun m => ?_)
    split <;> exact h.pure _
  · exact .some (h.look fun _ => h.pure _)
  · exact .some (h.pure _)
  · exact .none

/- Methods of a value without a declaration. -/
theorem builtinInstance?
    (h : Congruence R)
    (hi : Invokers R p i j)
    (receiver : Val)
    (method : String)
    (args : List Val) :
    Option.Rel (R Val)
      (Call.builtinInstance? p i receiver method args)
      (Call.builtinInstance? p j receiver method args) := by
  have hAny := h.anyMethod? hi receiver method args
  unfold Call.builtinInstance?
  cases receiver with
  | str text =>
    have hString := h.stringMethod? (p := p) text method args
    simp only
    generalize Call.stringMethod? p text method args = x at hString
    cases hString with
    | none => exact hAny
    | some hx => exact .some hx
  | _ => exact hAny

/- What is done without a declaration, or a fault. -/
theorem builtin
    (h : Congruence R)
    {x y : Option (Run Val)}
    (hxy : Option.Rel (R Val) x y)
    (c : Fault) :
    R Val (x.getD (Run.fault c)) (y.getD (Run.fault c)) := by
  cases hxy with
  | none => exact h.fault c
  | some hxy => exact hxy

/- A call of a method of a class. -/
theorem onClass
    (h : Congruence R)
    (hi : Invokers R p i j)
    (cls method : String)
    (args : List Val) :
    R Val (Call.onClass p i cls method args)
      (Call.onClass p j cls method args) := by
  have hBuiltin := h.builtin (h.builtinStatic? hi cls method args)
    (.noStaticMethod cls method args.length)
  unfold Call.onClass
  cases hFind : p.findMethod? cls method args.length with
  | none => exact hBuiltin
  | some found =>
    simp only
    split
    · exact hi _ _ (Program.declares_of_findMethod hFind) _ _
    · exact hBuiltin

/- A call of a method of an object. -/
theorem onObject
    (h : Congruence R)
    (hi : Invokers R p i j)
    (receiver : Val)
    (method : String)
    (args : List Val) :
    R Val (Call.onObject p i receiver method args)
      (Call.onObject p j receiver method args) := by
  unfold Call.onObject
  split
  · exact h.raiseNull _
  · refine h.look fun m => ?_
    have hBuiltin := h.builtin
      (h.builtinInstance? hi receiver method args)
      (.noMethod method args.length (m.heap.className receiver))
    cases receiver with
    | obj a =>
      simp only
      cases hFind :
          p.findMethod? (m.heap.classOf a) method args.length with
      | none => exact hBuiltin
      | some found =>
        simp only
        split
        · exact hBuiltin
        · exact hi _ _ (Program.declares_of_findMethod hFind) _ _
    | _ => exact hBuiltin

/- The constructors above a class. -/
theorem implicitSuper
    (h : Congruence R)
    (hi : Invokers R p i j)
    (cls : ClassDef)
    (self : Val) :
    R Unit (Call.implicitSuper p i cls self)
      (Call.implicitSuper p j cls self) := by
  unfold Call.implicitSuper
  simp only
  split
  · rename_i owner m hFind
    have hDeclared : p.Declares owner m :=
      Program.declares_of_methodIn
        (fun _ => Program.mem_of_lineageWithin _ _) hFind
    exact h.bind (hi _ _ hDeclared _ _) fun _ => h.pure _
  · exact h.pure _

/- A constructor of a class of the program. -/
theorem runConstructor
    (h : Congruence R)
    (hi : Invokers R p i j)
    {cls : ClassDef}
    (hcls : cls ∈ p.classes)
    (name : String)
    (self : Val)
    (args : List Val) :
    R Unit (Call.runConstructor p i cls name self args)
      (Call.runConstructor p j cls name self args) := by
  unfold Call.runConstructor
  split
  · rename_i m hMethod
    have hDeclared : p.Declares cls m :=
      ⟨hcls, List.mem_of_find?_eq_some hMethod⟩
    exact h.bind (hi _ _ hDeclared _ _) fun _ => h.pure _
  · split
    · exact h.implicitSuper hi cls self
    · exact h.fault _

/- An object of a class. -/
theorem construct
    (h : Congruence R)
    (hi : Invokers R p i j)
    (name : String)
    (args : List Val) :
    R Val (Call.construct p i name args)
      (Call.construct p j name args) := by
  unfold Call.construct
  split
  · rename_i cls hClass
    have hDeclared := List.mem_of_find?_eq_some hClass
    refine h.bind (h.allocate name) fun self => ?_
    exact h.bind (h.runConstructor hi hDeclared name self args)
      fun _ => h.pure _
  · split
    · exact h.exception _ _
    · exact h.fault _

/- The constructor that a constructor delegates to. -/
theorem superCall
    (h : Congruence R)
    (hi : Invokers R p i j)
    (cls : String)
    (self : Val)
    (args : List Val) :
    R Unit (Call.superCall p i cls self args)
      (Call.superCall p j cls self args) := by
  unfold Call.superCall
  simp only
  split
  · rename_i c hClass
    exact h.runConstructor hi (List.mem_of_find?_eq_some hClass)
      _ _ _
  · split
    · exact h.reheap fun _ => .setField _ _ _
    · exact h.pure _

/- A value as a value of a type. -/
theorem cast
    (h : Congruence R)
    (v : Val)
    (target : Ty) :
    R Val (Call.cast p v target) (Call.cast p v target) := by
  refine h.look fun m => ?_
  simp only
  split
  · exact h.pure _
  · split
    · exact h.pure _
    · exact h.raise _ _

end Calls

------------------------------------------------------------
-- Expressions
------------------------------------------------------------

section Expressions

variable {R : (β : Type) → Run β → Run β → Prop}
variable {β : Type}
variable {p : Program}
variable {i j : Invoker}
variable {ev ev' : Expr → Run Val}

/- Whether a condition holds. -/
theorem truth
    (h : Congruence R)
    {e : Expr}
    (he : R Val (ev e) (ev' e)) :
    R Bool (ExecTrace.truth ev e) (ExecTrace.truth ev' e) :=
  h.bind he fun v => h.truthOf e v

/- The parts of a target; it is a variable if the target is. -/
theorem pendingOf
    (h : Congruence R)
    {target : Expr}
    (hParts : ∀ e ∈ target.placeParts, R Val (ev e) (ev' e))
    {f g : Pending → Run β}
    (hf : ∀ pending : Pending,
      pending.variable? = target.variable? →
        R β (f pending) (g pending)) :
    R β (ExecTrace.pendingOf ev target >>= f)
      (ExecTrace.pendingOf ev' target >>= g) := by
  rcases target with ⟨form, ty, span⟩
  cases form with
  | localVar name => exact hf _ rfl
  | staticField cls field => exact hf _ rfl
  | instanceField object cls field =>
    simp only [ExecTrace.pendingOf, bind_assoc, pure_bind]
    exact h.bind (hParts object (by simp [Expr.placeParts]))
      fun _ => hf _ rfl
  | index array index =>
    simp only [ExecTrace.pendingOf, bind_assoc, pure_bind]
    refine h.bind (hParts array (by simp [Expr.placeParts]))
      fun _ => ?_
    exact h.bind (hParts index (by simp [Expr.placeParts]))
      fun _ => hf _ rfl
  | _ => exact h.fault _

/- An operator that is applied to two values. -/
theorem applyBinary
    (h : Congruence R)
    (hi : Invokers R p i j)
    (op : BinaryOp)
    (l r : Val)
    (ty : Ty) :
    R Val (ExecTrace.applyBinary p i op l r ty)
      (ExecTrace.applyBinary p j op l r ty) := by
  unfold ExecTrace.applyBinary
  split
  · refine h.bind (h.textOf hi "concat" l) fun _ => ?_
    exact h.bind (h.textOf hi "concat" r) fun _ => h.pure _
  · exact h.ofOperator _

/- Two conditions of which both have to hold. -/
theorem conjunction
    (h : Congruence R)
    {l l' r r' : Run Bool}
    (hl : R Bool l l')
    (hr : R Bool r r') :
    R Val (ExecTrace.conjunction l r)
      (ExecTrace.conjunction l' r') := by
  refine h.bind hl fun b => ?_
  cases b with
  | true => exact h.bind hr fun _ => h.pure _
  | false => exact h.pure _

/- Two conditions of which one has to hold. -/
theorem disjunction
    (h : Congruence R)
    {l l' r r' : Run Bool}
    (hl : R Bool l l')
    (hr : R Bool r r') :
    R Val (ExecTrace.disjunction l r)
      (ExecTrace.disjunction l' r') := by
  refine h.bind hl fun b => ?_
  cases b with
  | true => exact h.pure _
  | false => exact h.bind hr fun _ => h.pure _

/- The number of items of an array. -/
theorem lengthOf
    (h : Congruence R)
    (v : Val) :
    R Val (ExecTrace.lengthOf p v) (ExecTrace.lengthOf p v) := by
  cases v with
  | arr a => exact h.look fun _ => h.pure _
  | null => exact h.raiseNull _
  | _ => exact h.faultNaming _ _

/- A new array with a length. -/
theorem arrayOfLength
    (h : Congruence R)
    (element : Ty)
    (length : Val) :
    R Val (ExecTrace.arrayOfLength p element length)
      (ExecTrace.arrayOfLength p element length) := by
  unfold ExecTrace.arrayOfLength
  split
  · exact h.faultShowing _ _
  · split
    · exact h.raise _ _
    · exact h.newArray _ _

/- The object that the current method was called on. -/
theorem currentSelf
    (h : Congruence R)
    (cause : Fault) :
    R Val (ExecTrace.currentSelf cause)
      (ExecTrace.currentSelf cause) := by
  refine h.look fun m => ?_
  split
  · exact h.pure _
  · exact h.fault _

/-
  An expression that runs no statements by itself is evaluated
  alike in two ways if its parts are, and methods are run alike.
-/
theorem evalForm
    (h : Congruence R)
    {r r' : Runner}
    (hi : Invokers R p r.invoke r'.invoke)
    {e : Expr}
    (hFlat : e.form.isNested = false)
    (hParts : ∀ x ∈ e.form.parts, R Val (r.eval x) (r'.eval x))
    (hSets : ∀ name ∈ e.form.assigned?, Sets R name) :
    R Val (Runner.evalForm .silent p r e)
      (Runner.evalForm .silent p r' e) := by
  rcases e with ⟨form, ty, span⟩
  have hList : ∀ es : List Expr, (∀ x ∈ es, x ∈ form.parts) →
      R (List Val) (es.mapM r.eval) (es.mapM r'.eval) :=
    fun es hes => h.mapList es fun x hx => hParts x (hes x hx)
  unfold Runner.evalForm
  cases form with
  | literal value => exact h.pure _
  | localVar name => exact h.getLocal name
  | self => exact h.currentSelf _
  | staticField cls field => exact h.getStatic cls field
  | instanceField object cls field =>
    exact h.bind (hParts object (by simp [ExprForm.parts]))
      fun _ => h.read _
  | index array index =>
    refine h.bind (hParts array (by simp [ExprForm.parts]))
      fun _ => ?_
    exact h.bind (hParts index (by simp [ExprForm.parts]))
      fun _ => h.read _
  | length array =>
    exact h.bind (hParts array (by simp [ExprForm.parts]))
      fun _ => h.lengthOf _
  | unary op arg =>
    exact h.bind (hParts arg (by simp [ExprForm.parts]))
      fun _ => h.ofOperator _
  | binary op lhs rhs =>
    have hLeft := hParts lhs (by simp [ExprForm.parts])
    have hRight := hParts rhs (by simp [ExprForm.parts])
    have hStrict : R Val
        (do
          let left ← r.eval lhs
          let right ← r.eval rhs
          ExecTrace.applyBinary p r.invoke op left right ty)
        (do
          let left ← r'.eval lhs
          let right ← r'.eval rhs
          ExecTrace.applyBinary p r'.invoke op left right ty) :=
      h.bind hLeft fun _ => h.bind hRight fun _ =>
        h.applyBinary hi op _ _ ty
    cases op with
    | and => exact h.conjunction (h.truth hLeft) (h.truth hRight)
    | or => exact h.disjunction (h.truth hLeft) (h.truth hRight)
    | _ => exact hStrict
  | conditional cond onTrue onFalse =>
    have hCond := hParts cond (by simp [ExprForm.parts])
    refine h.bind (h.truth hCond) fun b => ?_
    cases b with
    | true =>
      exact h.bind (hParts onTrue (by simp [ExprForm.parts]))
        fun _ => h.pure _
    | false =>
      exact h.bind (hParts onFalse (by simp [ExprForm.parts]))
        fun _ => h.pure _
  | assign target value =>
    refine h.pendingOf
      (fun x hx => hParts x (by simp [ExprForm.parts, hx]))
      fun pending hPending => ?_
    refine h.bind (hParts value (by simp [ExprForm.parts]))
      fun v => ?_
    exact h.bind (h.writeTo (hPending ▸ hSets) _) fun _ => h.pure _
  | compoundAssign op target value =>
    refine h.pendingOf
      (fun x hx => hParts x (by simp [ExprForm.parts, hx]))
      fun pending hPending => ?_
    refine h.locate pending fun place hPlace => ?_
    refine h.bind (h.load place) fun old => ?_
    refine h.bind (h.pure _) fun _ => ?_
    refine h.bind (hParts value (by simp [ExprForm.parts]))
      fun rhs => ?_
    refine h.bind (h.applyBinary hi op old rhs _) fun new => ?_
    refine h.bind (h.store ?_ _) fun _ => h.pure _
    exact hPlace.trans hPending ▸ hSets
  | step op target =>
    refine h.pendingOf
      (fun x hx => hParts x (by simp [ExprForm.parts, hx]))
      fun pending hPending => ?_
    refine h.locate pending fun place hPlace => ?_
    refine h.bind (h.load place) fun old => ?_
    refine h.bind (h.pure _) fun _ => ?_
    refine h.bind (h.applyBinary hi _ old _ _) fun new => ?_
    refine h.bind (h.store ?_ _) fun _ => h.pure _
    exact hPlace.trans hPending ▸ hSets
  | call callee receiver args =>
    have hArgs := hList args fun x hx => by
      simp [ExprForm.parts, hx]
    cases receiver with
    | none =>
      refine h.bind hArgs fun _ => ?_
      exact h.bind (h.onClass hi _ _ _) fun _ => h.pure _
    | some receiver =>
      refine h.bind (hParts receiver (by simp [ExprForm.parts]))
        fun _ => ?_
      refine h.bind hArgs fun _ => ?_
      exact h.bind (h.onObject hi _ _ _) fun _ => h.pure _
  | new cls signature args =>
    exact h.bind (hList args fun _ hx => hx) fun _ =>
      h.construct hi _ _
  | newArray element length =>
    exact h.bind (hParts length (by simp [ExprForm.parts]))
      fun _ => h.arrayOfLength _ _
  | arrayOf element items =>
    exact h.bind (hList items fun _ hx => hx) fun _ =>
      h.newArray _ _
  | cast target arg =>
    exact h.bind (hParts arg (by simp [ExprForm.parts]))
      fun _ => h.cast _ _
  | typeTest arg target =>
    refine h.bind (hParts arg (by simp [ExprForm.parts]))
      fun _ => ?_
    exact h.look fun _ => h.pure _
  | switch selector arms => cases hFlat
  | letIn stmts body => cases hFlat

end Expressions

------------------------------------------------------------
-- Statements and Methods
------------------------------------------------------------

section Statements

variable {R : (β : Type) → Run β → Run β → Prop}
variable {p : Program}
variable {i j : Invoker}

/- A value is thrown. -/
theorem throwValue
    (h : Congruence R)
    (v : Val) :
    R Flow (ExecTrace.throwValue p v)
      (ExecTrace.throwValue p v) := by
  unfold ExecTrace.throwValue
  split
  · exact h.raiseNull _
  · exact h.cut _ rfl

/- The rounds of a loop are run until one of them ends it. -/
theorem iterate
    (h : Congruence R)
    {round round' : Nat → Run (Option Flow)}
    (hRound : ∀ i, R (Option Flow) (round i) (round' i))
    (rounds i : Nat) :
    R Flow (ExecTrace.iterate round rounds i)
      (ExecTrace.iterate round' rounds i) := by
  induction rounds generalizing i with
  | zero => exact h.cut _ rfl
  | succ rounds ih =>
    refine h.bind (hRound i) fun end? => ?_
    cases end? with
    | some flow => exact h.pure _
    | none => exact ih (i + 1)

/- A round is run while a condition holds. -/
theorem roundWhile
    (h : Congruence R)
    {cond cond' : Run Bool}
    {round round' : Run (Option Flow)}
    (hCond : R Bool cond cond')
    (hRound : R (Option Flow) round round') :
    R (Option Flow) (ExecTrace.roundWhile cond round)
      (ExecTrace.roundWhile cond' round') := by
  refine h.bind hCond fun b => ?_
  cases b with
  | true => exact hRound
  | false => exact h.pure _

/- A round is followed by a condition. -/
theorem roundUntil
    (h : Congruence R)
    {cond cond' : Run Bool}
    {round round' : Run (Option Flow)}
    (hRound : R (Option Flow) round round')
    (hCond : R Bool cond cond') :
    R (Option Flow) (ExecTrace.roundUntil round cond)
      (ExecTrace.roundUntil round' cond') := by
  refine h.bind hRound fun end? => ?_
  cases end? with
  | some flow => exact h.pure _
  | none =>
    refine h.bind hCond fun b => ?_
    cases b <;> exact h.pure _

/- Whether a condition of a loop holds, or there is none. -/
theorem goesOn
    (h : Congruence R)
    {ev ev' : Expr → Run Val}
    {cond : Option Expr}
    (hCond : ∀ e ∈ cond, R Val (ev e) (ev' e)) :
    R Bool (ExecTrace.goesOn (ExecTrace.truth ev) cond)
      (ExecTrace.goesOn (ExecTrace.truth ev') cond) := by
  cases cond with
  | none => exact h.pure _
  | some e => exact h.truth (hCond e rfl)

/- Expressions are evaluated for their effects. -/
theorem performAll
    (h : Congruence R)
    {ev ev' : Expr → Run Val}
    {es : List Expr}
    (hes : ∀ e ∈ es, R Val (ev e) (ev' e)) :
    R Bool (ExecTrace.performAll ev es)
      (ExecTrace.performAll ev' es) :=
  h.map (h.mapList es hes) _

/- The array that a loop goes over. -/
theorem iterated
    (h : Congruence R)
    (v : Val) :
    R Nat (ExecTrace.iterated p v) (ExecTrace.iterated p v) := by
  cases v with
  | arr a => exact h.pure _
  | null => exact h.raiseNull _
  | _ => exact h.faultNaming _ _

/- The arms that are selected are some of the arms. -/
theorem selectArm
    (h : Congruence R)
    {β : Type}
    {arms : List Arm}
    {f g : List Arm → Run β}
    (selector : Val)
    (hf : ∀ selected, (∀ arm ∈ selected, arm ∈ arms) →
      R β (f selected) (g selected)) :
    R β (ExecTrace.selectArm p selector arms >>= f)
      (ExecTrace.selectArm p selector arms >>= g) := by
  unfold ExecTrace.selectArm
  split
  · unfold Run.raiseNull
    rw [raise_bind, raise_bind]
    exact h.raise _ _
  · simp only
    split
    · exact hf _ fun arm harm =>
        (List.dropWhile_sublist _).subset harm
    · exact hf _ fun arm harm =>
        (List.dropWhile_sublist _).subset harm

/- The body of a loop is run once, in a scope of its own. -/
theorem loopRound
    (h : Congruence R)
    {ex ex' : Stmt → Run Flow}
    {body : Stmt}
    (hBody : R Flow (inScope (ex body)) (inScope (ex' body)))
    (label : Option String) :
    R (Option Flow) (ExecTrace.loopRound ex label body)
      (ExecTrace.loopRound ex' label body) := by
  refine h.bind hBody fun flow => ?_
  cases flow with
  | «break» jump =>
    dsimp only
    split <;> exact h.pure _
  | «continue» jump =>
    dsimp only
    split <;> exact h.pure _
  | _ => exact h.pure _

/- A round with an item of an array in a variable. -/
theorem roundOver
    (h : Congruence R)
    {round round' : Run (Option Flow)}
    {var : String}
    (hRound : ∀ v, R (Option Flow)
      (inScope (declareLocal var v >>= fun _ => round))
      (inScope (declareLocal var v >>= fun _ => round')))
    (address : Nat)
    (ty : Ty)
    (i : Nat) :
    R (Option Flow) (ExecTrace.roundOver address var ty round i)
      (ExecTrace.roundOver address var ty round' i) := by
  refine h.look fun m => ?_
  split
  · exact h.pure _
  · exact hRound _

/- A switch statement is run on a value. -/
theorem switchOn
    (h : Congruence R)
    {ex ex' : Stmt → Run Flow}
    {arms : List Arm}
    (hArms : ∀ selected : List Arm,
      (∀ arm ∈ selected, arm ∈ arms) →
        R Flow (inScope (runArms (runAll ex) selected))
          (inScope (runArms (runAll ex') selected)))
    (selector : Val) :
    R Flow (ExecTrace.switchOn p ex selector arms)
      (ExecTrace.switchOn p ex' selector arms) := by
  refine h.selectArm selector fun selected hSelected => ?_
  split
  · exact h.pure _
  · exact hArms selected hSelected

/- A switch expression on a value. -/
theorem switchValue
    (h : Congruence R)
    {ex ex' : Stmt → Run Flow}
    {arms : List Arm}
    (hArms : ∀ selected : List Arm,
      (∀ arm ∈ selected, arm ∈ arms) →
        R Val (inScope (yieldFromArms (runAll ex) selected))
          (inScope (yieldFromArms (runAll ex') selected)))
    (selector : Val) :
    R Val (ExecTrace.switchValue p ex selector arms)
      (ExecTrace.switchValue p ex' selector arms) := by
  refine h.selectArm selector fun selected hSelected => ?_
  split
  · exact h.look fun _ => h.raise _ _
  · exact hArms selected hSelected

/- The handler for an exception is run. -/
theorem runHandler
    (h : Congruence R)
    {ex ex' : Catch → Run Flow}
    {catches : List Catch}
    {exception : Val}
    (hCatch : ∀ c ∈ catches, R Flow
      (inScope (declareLocal c.param exception >>= fun _ => ex c))
      (inScope (declareLocal c.param exception >>=
        fun _ => ex' c))) :
    R Flow (ExecTrace.runHandler p ex catches exception)
      (ExecTrace.runHandler p ex' catches exception) := by
  refine h.look fun m => ?_
  simp only
  cases hFind : catches.find? fun c =>
      Call.catches p m.heap exception c.ty with
  | none => exact h.cut _ rfl
  | some c => exact hCatch c (List.mem_of_find?_eq_some hFind)

/-
  A plain statement is run alike in two ways if its parts are
  evaluated alike, and methods are run alike.
-/
theorem execForm
    (h : Congruence R)
    {r r' : Runner}
    (hi : Invokers R p r.invoke r'.invoke)
    {s : Stmt}
    (hPlain : s.form.isPlain = true)
    (hParts : ∀ x ∈ s.form.parts, R Val (r.eval x) (r'.eval x))
    (rounds : Nat) :
    R Flow (Runner.execForm .silent p r rounds s)
      (Runner.execForm .silent p r' rounds s) := by
  rcases s with ⟨form, span⟩
  unfold Runner.execForm
  cases form with
  | expr e =>
    exact h.bind (hParts e (by simp [StmtForm.parts]))
      fun _ => h.pure _
  | «return» value =>
    cases value with
    | none => exact h.pure _
    | some value =>
      refine h.bind (hParts value (by simp [StmtForm.parts]))
        fun _ => ?_
      exact h.look fun _ => h.pure _
  | throw exception =>
    exact h.bind (hParts exception (by simp [StmtForm.parts]))
      fun _ => h.throwValue _
  | assert cond message =>
    refine h.bind
      (h.truth (hParts cond (by simp [StmtForm.parts])))
      fun b => ?_
    cases b with
    | true => exact h.pure _
    | false =>
      have hThrow : ∀ text, R Flow
          (do throw (.throw (←
            Run.exception p "AssertionError" text)))
          (do throw (.throw (←
            Run.exception p "AssertionError" text))) :=
        fun text => h.bind (h.exception _ _) fun _ => h.cut _ rfl
      cases message with
      | none => exact hThrow none
      | some message =>
        refine h.bind (hParts message (by simp [StmtForm.parts]))
          fun v => ?_
        exact h.bind (h.textOf hi "concat" v)
          fun text => hThrow (some text)
  | superCall signature args =>
    refine h.bind (h.currentSelf _) fun self => ?_
    refine h.bind (h.mapList args fun x hx =>
      hParts x (by simpa [StmtForm.parts] using hx)) fun vs => ?_
    refine h.look fun m => ?_
    exact h.bind (h.superCall hi _ _ _) fun _ => h.pure _
  | _ => cases hPlain

/- The constructors above a class, unless a body runs them. -/
theorem constructAbove
    (h : Congruence R)
    (hi : Invokers R p i j)
    (owner : ClassDef)
    (m : MethodDef)
    (body : List Stmt)
    (self : Option Val) :
    R Unit (ExecTrace.constructAbove p i owner m body self)
      (ExecTrace.constructAbove p j owner m body self) := by
  unfold ExecTrace.constructAbove
  split
  · exact h.implicitSuper hi _ _
  · exact h.pure _

/- What a call returns, by the end of the body. -/
theorem resultOf
    (h : Congruence R)
    (owner : ClassDef)
    (m : MethodDef)
    (flow : Flow) :
    R Val (ExecTrace.resultOf owner m flow)
      (ExecTrace.resultOf owner m flow) := by
  unfold ExecTrace.resultOf
  split
  · exact h.pure _
  · exact h.pure _
  · exact h.faultEscaped _ _

/-
  The activation of a method with some body, in a frame and with
  local variables of its own.
-/
def inBody
    (p : Program)
    (invoke : Invoker)
    (run : List Stmt → Run Flow)
    (owner : ClassDef)
    (m : MethodDef)
    (self : Option Val)
    (args : List Val)
    (body : List Stmt) : Run Flow :=
  ExecTrace.inFrame ⟨owner.name, m.name, false⟩ <|
    withLocals (startLocals owner m self args) do
      ExecTrace.constructAbove p invoke owner m body self
      let flow ← run body
      watchEnd .silent m flow
      pure flow

/-
  Two ways to run methods are related if they are so once the
  checks in front of the body are passed.
-/
theorem activate
    (h : Congruence R)
    {run run' : List Stmt → Run Flow}
    {owner : ClassDef}
    {m : MethodDef}
    {self : Option Val}
    {args : List Val}
    (hBody : ∀ body, m.body = some body →
      R Val
        (inBody p i run owner m self args body
          >>= ExecTrace.resultOf owner m)
        (inBody p j run' owner m self args body
          >>= ExecTrace.resultOf owner m)) :
    R Val (ExecTrace.activate .silent p i run owner m self args)
      (ExecTrace.activate .silent p j run' owner m self args) := by
  unfold ExecTrace.activate
  cases hSome : m.body with
  | none => exact h.fault _
  | some body =>
    refine h.look fun k => ?_
    split
    · exact h.fault _
    · split
      · exact h.raise _ _
      · exact hBody body hSome

end Statements

end Congruence

end ExecTrace
