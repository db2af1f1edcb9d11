import ExecTrace.Machine.Call
import ExecTrace.Proofs.Agreement

/-
  Calls agree on linked machines: if two ways to run methods
  agree on methods that belong together, then so do conversions
  to text, methods without a declaration, calls of methods and
  of constructors, and casts.

  Main declarations:
    * `Invokers`
    * `agrees_textOf`
    * `agrees_onClass`, `agrees_onObject`
    * `agrees_construct`, `agrees_superCall`
    * `agrees_cast`
-/

namespace ExecTrace

open Run

/- Two ways to run methods agree on those that belong together. -/
def Invokers
    (S : Slack)
    (B : Bond)
    (M : Pairing)
    (i j : Invoker) : Prop :=
  ∀ c d m m', Found M (c, m) (d, m') → ∀ self args,
    Agrees S B (i c m self args) (j d m' self args)

section Calls

variable {S : Slack}
variable {B : Bond}
variable {M : Pairing}
variable {p q : Program}
variable {i j : Invoker}

------------------------------------------------------------
-- Methods that Belong Together
------------------------------------------------------------

/- Methods that belong together are static together. -/
theorem Found.isStatic
    {x y : ClassDef × MethodDef}
    (h : Found M x y) : y.2.isStatic = x.2.isStatic := by
  simp only [MethodDef.isStatic, (M.header _ _ _ h.2).kind]

/- Methods that belong together are constructors together. -/
theorem Found.isConstructor
    {x y : ClassDef × MethodDef}
    (h : Found M x y) :
    y.2.isConstructor = x.2.isConstructor := by
  simp only [MethodDef.isConstructor, (M.header _ _ _ h.2).kind]

/- A value is of the same types in both programs. -/
theorem Paired.instanceOf
    (hp : Paired M p q)
    (h : Heap)
    (v : Val)
    (ty : Ty) :
    Call.instanceOf q h v ty = Call.instanceOf p h v ty := by
  cases v <;> cases ty <;>
    simp only [Call.instanceOf, hp.isSubclass]

/- A handler accepts the same exceptions in both programs. -/
theorem Paired.catches
    (hp : Paired M p q)
    (h : Heap)
    (v : Val)
    (ty : Ty) :
    Call.catches q h v ty = Call.catches p h v ty := by
  simp only [Call.catches, hp.instanceOf]

------------------------------------------------------------
-- Texts
------------------------------------------------------------

/- An object without a text of its own has one text. -/
theorem Paired.plainText
    (hp : Paired M p q)
    (h : Heap)
    (a : Nat) :
    Call.plainText q h a = Call.plainText p h a := by
  simp only [Call.plainText, hp.isSubclass]

/- The text of a value is one text. -/
theorem agrees_textOf
    (hp : Paired M p q)
    (hi : Invokers S B M i j)
    (via : String)
    (v : Val) :
    Agrees S B (Call.textOf p i via v) (Call.textOf q j via v) := by
  refine Yields.look fun _ _ m n hm => ?_
  rw [hm.world.heap]
  cases v with
  | obj a =>
    have hFind :=
      hp.findMethod? (m.heap.classOf a) "toString" 0
    simp only [hp.plainText]
    generalize p.findMethod? _ _ _ = found at hFind
    generalize q.findMethod? _ _ _ = found' at hFind
    cases hFind with
    | none => exact Yields.pure trivial
    | @some x y hxy =>
      simp only [hxy.isStatic]
      split
      · exact Yields.pure trivial
      · refine ((hi _ _ _ _ hxy _ _).inFrame _ _).bind
          fun result _ => ?_
        refine Yields.look fun _ _ m n hm => ?_
        rw [hm.world.heap]
        exact Yields.pure trivial
  | _ => exact Yields.pure trivial

------------------------------------------------------------
-- Methods without a Declaration
------------------------------------------------------------

/- Optional computations that agree if they exist. -/
abbrev AgreeIfAny
    (S : Slack)
    (B : Bond) :
    Option (Run Val) → Option (Run Val) → Prop :=
  Option.Rel (Agrees S B)

/- Both sides print one text. -/
theorem agrees_print
    (hp : Paired M p q)
    (hi : Invokers S B M i j)
    (v : Val)
    (behind : String) :
    Agrees S B (Call.print p i v behind)
      (Call.print q j v behind) :=
  (agrees_textOf hp hi "print" v).bind fun _ _ =>
    (agrees_write _).bind fun _ _ => Yields.pure trivial

/- Both sides choose one value. -/
theorem agrees_extreme
    (method : String)
    (op : BinaryOp)
    (a b : Val) :
    Agrees S B (Call.extreme method op a b)
      (Call.extreme method op a b) := by
  unfold Call.extreme
  cases Val.binary op a b with
  | ok v => exact Yields.pure trivial
  | error e => exact Yields.look fun _ _ _ _ _ => Yields.fault _ _

/- Static methods without a declaration agree. -/
theorem rel_builtinStatic?
    (hp : Paired M p q)
    (hi : Invokers S B M i j)
    (cls method : String)
    (args : List Val) :
    AgreeIfAny S B (Call.builtinStatic? p i cls method args)
      (Call.builtinStatic? q j cls method args) := by
  unfold Call.builtinStatic?
  split
  · rename_i x
    cases x.number? with
    | some n => exact .some (Yields.pure trivial)
    | none => exact .some (yields_faultShowing _ _ _ _)
  · exact .some (agrees_extreme _ _ _ _)
  · exact .some (agrees_extreme _ _ _ _)
  · exact .some ((agrees_write _).bind fun _ _ =>
      Yields.pure trivial)
  · exact .some (agrees_print hp hi _ _)
  · exact .some (agrees_print hp hi _ _)
  · exact .some ((agrees_textOf hp hi _ _).bind fun _ _ =>
      Yields.pure trivial)
  · exact .none

/- Both sides read one character. -/
theorem agrees_charAt
    (hp : Paired M p q)
    (text : String)
    (index : Val) :
    Agrees S B (Call.charAt p text index)
      (Call.charAt q text index) := by
  have hOutside : Agrees S B
      (Call.raiseOutside p text.toList.length index)
      (Call.raiseOutside q text.toList.length index) := by
    refine Yields.look fun _ _ m n hm => ?_
    rw [hm.world.heap]
    exact yields_raise hp _ _
  unfold Call.charAt
  cases index.asInt? with
  | none => exact hOutside
  | some i =>
    simp only
    split
    · cases text.toList[i.toInt.toNat]? with
      | some c => exact Yields.pure trivial
      | none => exact Yields.fault _ _
    · exact hOutside

/- Methods of strings agree. -/
theorem rel_stringMethod?
    (hp : Paired M p q)
    (text method : String)
    (args : List Val) :
    AgreeIfAny S B (Call.stringMethod? p text method args)
      (Call.stringMethod? q text method args) := by
  unfold Call.stringMethod?
  split
  · exact .some (Yields.pure trivial)
  · exact .some (Yields.pure trivial)
  · exact .some (agrees_charAt hp _ _)
  · exact .some (Yields.pure trivial)
  · exact .some (Yields.pure trivial)
  · exact .none

/- Methods of every value agree. -/
theorem rel_anyMethod?
    (hp : Paired M p q)
    (hi : Invokers S B M i j)
    (receiver : Val)
    (method : String)
    (args : List Val) :
    AgreeIfAny S B (Call.anyMethod? p i receiver method args)
      (Call.anyMethod? q j receiver method args) := by
  unfold Call.anyMethod?
  split
  · exact .some ((agrees_textOf hp hi _ _).bind fun _ _ =>
      Yields.pure trivial)
  · refine .some (Yields.look fun _ _ m n hm => ?_)
    rw [hm.world.heap]
    split <;> exact Yields.pure trivial
  · refine .some (Yields.look fun _ _ m n hm => ?_)
    rw [hm.world.heap]
    exact Yields.pure trivial
  · exact .some (Yields.pure trivial)
  · exact .none

/- Methods without a declaration agree. -/
theorem rel_builtinInstance?
    (hp : Paired M p q)
    (hi : Invokers S B M i j)
    (receiver : Val)
    (method : String)
    (args : List Val) :
    AgreeIfAny S B
      (Call.builtinInstance? p i receiver method args)
      (Call.builtinInstance? q j receiver method args) := by
  unfold Call.builtinInstance?
  have hAny := rel_anyMethod? (S := S) (B := B) hp hi receiver
    method args
  cases receiver with
  | str text =>
    have hString := rel_stringMethod? (S := S) (B := B) hp text
      method args
    simp only
    generalize Call.stringMethod? p text method args = x
      at hString
    generalize Call.stringMethod? q text method args = y
      at hString
    cases hString with
    | none => exact hAny
    | some h => exact .some h
  | _ => exact hAny

------------------------------------------------------------
-- Calls of Methods
------------------------------------------------------------

/- What is done without a declaration, or a fault. -/
theorem agrees_builtin
    {x y : Option (Run Val)}
    (h : AgreeIfAny S B x y)
    (c : Fault) :
    Agrees S B (x.getD (fault c)) (y.getD (fault c)) := by
  cases h with
  | none => exact Yields.fault _ _
  | some h => exact h

/- Calls of a method of a class agree. -/
theorem agrees_onClass
    (hp : Paired M p q)
    (hi : Invokers S B M i j)
    (cls method : String)
    (args : List Val) :
    Agrees S B (Call.onClass p i cls method args)
      (Call.onClass q j cls method args) := by
  have hFind := hp.findMethod? cls method args.length
  have hBuiltin := agrees_builtin
    (rel_builtinStatic? (S := S) (B := B) hp hi cls method args)
    (.noStaticMethod cls method args.length)
  unfold Call.onClass
  generalize p.findMethod? _ _ _ = found at hFind
  generalize q.findMethod? _ _ _ = found' at hFind
  cases hFind with
  | none => exact hBuiltin
  | @some x y hxy =>
    simp only [hxy.isStatic]
    split
    · exact hi _ _ _ _ hxy _ _
    · exact hBuiltin

/- Calls of a method of an object agree. -/
theorem agrees_onObject
    (hp : Paired M p q)
    (hi : Invokers S B M i j)
    (receiver : Val)
    (method : String)
    (args : List Val) :
    Agrees S B (Call.onObject p i receiver method args)
      (Call.onObject q j receiver method args) := by
  unfold Call.onObject
  split
  · exact yields_raiseNull hp _
  · refine Yields.look fun _ _ m n hm => ?_
    rw [hm.world.heap]
    have hBuiltin := agrees_builtin
      (rel_builtinInstance? (S := S) (B := B) hp hi receiver
        method args)
      (.noMethod method args.length (m.heap.className receiver))
    cases receiver with
    | obj a =>
      have hFind := hp.findMethod? (m.heap.classOf a) method
        args.length
      simp only
      generalize p.findMethod? _ _ _ = found at hFind
      generalize q.findMethod? _ _ _ = found' at hFind
      cases hFind with
      | none => exact hBuiltin
      | @some x y hxy =>
        simp only [hxy.isStatic]
        split
        · exact hBuiltin
        · exact hi _ _ _ _ hxy _ _
    | _ => exact hBuiltin

------------------------------------------------------------
-- Constructors
------------------------------------------------------------

/- The constructors above a class agree. -/
theorem agrees_implicitSuper
    (hp : Paired M p q)
    (hi : Invokers S B M i j)
    {c d : ClassDef}
    (hcd : Twin M c d)
    (self : Val) :
    Agrees S B (Call.implicitSuper p i c self)
      (Call.implicitSuper q j d self) := by
  unfold Call.implicitSuper
  have hAbove := hp.lineageWithin p.classes.length c.superclass
  have hFind := Paired.methodIn? hAbove constructorName 0
  simp only [hp.length, hcd.superclass]
  generalize Program.methodIn? _ _ _ = found at hFind
  generalize Program.methodIn? _ _ _ = found' at hFind
  cases hFind with
  | none => exact Yields.pure trivial
  | @some x y hxy =>
    exact (hi _ _ _ _ hxy _ _).bind fun _ _ =>
      Yields.pure trivial

/- The constructors of a class agree. -/
theorem agrees_runConstructor
    (hp : Paired M p q)
    (hi : Invokers S B M i j)
    {c d : ClassDef}
    (hcd : Twin M c d)
    (name : String)
    (self : Val)
    (args : List Val) :
    Agrees S B (Call.runConstructor p i c name self args)
      (Call.runConstructor q j d name self args) := by
  unfold Call.runConstructor
  have hFind := hcd.method? constructorName args.length
  generalize c.method? _ _ = found at hFind
  generalize d.method? _ _ = found' at hFind
  cases hFind with
  | none =>
    simp only
    split
    · exact agrees_implicitSuper hp hi hcd self
    · exact Yields.fault _ _
  | @some m m' hm =>
    exact (hi _ _ _ _ ⟨hcd, hm⟩ _ _).bind fun _ _ =>
      Yields.pure trivial

/- Objects are made in one way. -/
theorem agrees_construct
    (hp : Paired M p q)
    (hi : Invokers S B M i j)
    (name : String)
    (args : List Val) :
    Agrees S B (Call.construct p i name args)
      (Call.construct q j name args) := by
  unfold Call.construct
  have hClass := hp.class? name
  generalize p.class? name = c at hClass
  generalize q.class? name = d at hClass
  cases hClass with
  | none =>
    simp only
    split
    · exact (yields_exception hp _ _).agrees
    · exact Yields.fault _ _
  | some hcd =>
    refine (yields_allocate hp name).bind fun self _ => ?_
    refine (agrees_runConstructor hp hi hcd name self args).bind
      fun _ _ => ?_
    exact Yields.pure trivial

/- A class has one superclass in both programs. -/
theorem Paired.parentOf
    (hp : Paired M p q)
    (cls : String) :
    Call.parentOf q cls = Call.parentOf p cls := by
  unfold Call.parentOf
  have hClass := hp.class? cls
  generalize p.class? cls = c at hClass
  generalize q.class? cls = d at hClass
  cases hClass with
  | none => rfl
  | some hcd => simp only [hcd.superclass]

/- The constructor that a constructor delegates to agrees. -/
theorem agrees_superCall
    (hp : Paired M p q)
    (hi : Invokers S B M i j)
    (cls : String)
    (self : Val)
    (args : List Val) :
    Agrees S B (Call.superCall p i cls self args)
      (Call.superCall q j cls self args) := by
  unfold Call.superCall
  rw [hp.parentOf]
  have hClass := hp.class? (Call.parentOf p cls)
  simp only
  generalize p.class? (Call.parentOf p cls) = c at hClass
  generalize q.class? (Call.parentOf p cls) = d at hClass
  cases hClass with
  | some hcd => exact agrees_runConstructor hp hi hcd _ _ _
  | none =>
    simp only
    split
    · exact agrees_setField _ _ _
    · exact Yields.pure trivial

------------------------------------------------------------
-- Casts
------------------------------------------------------------

/- A cast gives one value, a conversion to a primitive type. -/
theorem yields_cast
    (hp : Paired M p q)
    (v : Val)
    (target : Ty) :
    Yields S B
      (fun u => target.isPrimitive = true → u = v.convert target)
      (Call.cast p v target) (Call.cast q v target) := by
  refine Yields.look fun _ _ m n hm => ?_
  rw [hm.world.heap]
  simp only [hp.instanceOf]
  split
  · exact Yields.pure fun _ => rfl
  · rename_i hTy
    split
    · exact Yields.pure fun h => absurd h hTy
    · exact yields_raise hp _ _

/- A cast gives one value. -/
theorem agrees_cast
    (hp : Paired M p q)
    (v : Val)
    (target : Ty) :
    Agrees S B (Call.cast p v target) (Call.cast q v target) :=
  (yields_cast hp v target).agrees

end Calls

end ExecTrace
