import ExecTrace.Machine.State
import Mathlib.Data.List.Forall2

/-
  Paired programs: two programs with the same classes, whose
  methods have the same headers and bodies that belong together
  in some way. Everything that a run finds in the class
  hierarchy of one program it finds in that of the other.

  Main declarations:
    * `Pairing`, `Twin` and `Paired`
    * `Paired.class?`, `Paired.isSubclass`, `Paired.lineage`
    * `Paired.findMethod?`, `Paired.findStatic?`
-/

namespace ExecTrace

------------------------------------------------------------
-- Pairs
------------------------------------------------------------

/- What a caller sees of a method. -/
structure SameHeader (m m' : MethodDef) : Prop where
  name : m'.name = m.name
  kind : m'.kind = m.kind
  params : m'.params = m.params
  ret : m'.ret = m.ret

/- Which methods of a class belong together. -/
structure Pairing where
  rel : String → MethodDef → MethodDef → Prop
  header : ∀ cls m m', rel cls m m' → SameHeader m m'

/- Classes whose methods belong together one by one. -/
structure Twin
    (M : Pairing)
    (c d : ClassDef) : Prop where
  name : d.name = c.name
  superclass : d.superclass = c.superclass
  fields : d.fields = c.fields
  methods : List.Forall₂ (M.rel c.name) c.methods d.methods

/- Programs whose classes belong together one by one. -/
def Paired
    (M : Pairing)
    (p q : Program) : Prop :=
  List.Forall₂ (Twin M) p.classes q.classes

/- Methods that were found together with their classes. -/
def Found
    (M : Pairing)
    (x y : ClassDef × MethodDef) : Prop :=
  Twin M x.1 y.1 ∧ M.rel x.1.name x.2 y.2

/- The first members of paired lists with a common property. -/
theorem rel_find?
    {α β : Type}
    {R : α → β → Prop}
    {as : List α}
    {bs : List β}
    {f : α → Bool}
    {g : β → Bool}
    (h : List.Forall₂ R as bs)
    (hfg : ∀ a b, R a b → g b = f a) :
    Option.Rel R (as.find? f) (bs.find? g) := by
  induction h with
  | nil => exact .none
  | @cons a b as bs hab _ ih =>
    rw [List.find?_cons, List.find?_cons, hfg a b hab]
    cases f a with
    | true => exact .some hab
    | false => exact ih

/- The methods of paired classes with a name and an arity. -/
theorem Twin.method?
    {M : Pairing}
    {c d : ClassDef}
    (h : Twin M c d)
    (name : String)
    (arity : Nat) :
    Option.Rel (M.rel c.name) (c.method? name arity)
      (d.method? name arity) := by
  refine rel_find? h.methods fun m m' hm => ?_
  have hHeader := M.header _ _ _ hm
  simp only [MethodDef.arity, hHeader.name, hHeader.params]

namespace Paired

variable {M : Pairing}
variable {p q : Program}

------------------------------------------------------------
-- Classes
------------------------------------------------------------

/- Both programs declare the same classes. -/
theorem class?
    (h : Paired M p q)
    (name : String) :
    Option.Rel (Twin M) (p.class? name) (q.class? name) :=
  rel_find? h fun _ _ hcd => by rw [hcd.name]

/- Both programs have the same number of classes. -/
theorem length
    (h : Paired M p q) :
    q.classes.length = p.classes.length :=
  (List.Forall₂.length_eq h).symm

/- A class has one superclass in both programs. -/
theorem superclass?
    (h : Paired M p q)
    (name : String) :
    q.superclass? name = p.superclass? name := by
  unfold Program.superclass?
  have hClass := h.class? name
  generalize p.class? name = c at hClass
  generalize q.class? name = d at hClass
  cases hClass with
  | none => rfl
  | some hcd => simp only [hcd.superclass]

/- A class lies below the same classes in both programs. -/
theorem isSubclass
    (h : Paired M p q)
    (sub sup : String) :
    q.isSubclass sub sup = p.isSubclass sub sup := by
  have hMeets : ∀ steps name,
      q.meetsWithin sup steps name
        = p.meetsWithin sup steps name := by
    intro steps
    induction steps with
    | zero => intro name; rfl
    | succ steps ih =>
      intro name
      simp only [Program.meetsWithin, h.superclass? name, ih]
  simp only [Program.isSubclass, hMeets]

/- The classes above a class belong together. -/
theorem lineageWithin
    (h : Paired M p q)
    (steps : Nat)
    (name : Option String) :
    List.Forall₂ (Twin M) (p.lineageWithin steps name)
      (q.lineageWithin steps name) := by
  induction steps generalizing name with
  | zero => exact .nil
  | succ steps ih =>
    cases name with
    | none => exact .nil
    | some name =>
      have hClass := h.class? name
      unfold Program.lineageWithin
      generalize p.class? name = c at hClass
      generalize q.class? name = d at hClass
      cases hClass with
      | none => exact .nil
      | @some c d hcd =>
        simp only [hcd.superclass]
        exact .cons hcd (ih c.superclass)

/- The classes above a class belong together. -/
theorem lineage
    (h : Paired M p q)
    (name : String) :
    List.Forall₂ (Twin M) (p.lineage name) (q.lineage name) := by
  unfold Program.lineage
  rw [h.length]
  exact h.lineageWithin _ _

------------------------------------------------------------
-- Members
------------------------------------------------------------

/- The nearest methods among classes belong together. -/
theorem methodIn?
    {cs ds : List ClassDef}
    (h : List.Forall₂ (Twin M) cs ds)
    (name : String)
    (arity : Nat) :
    Option.Rel (Found M) (Program.methodIn? name arity cs)
      (Program.methodIn? name arity ds) := by
  induction h with
  | nil => exact .none
  | @cons c d cs ds hcd _ ih =>
    have hMethod := hcd.method? name arity
    unfold Program.methodIn?
    generalize c.method? name arity = m at hMethod
    generalize d.method? name arity = m' at hMethod
    cases hMethod with
    | none => exact ih
    | some hm => exact .some ⟨hcd, hm⟩

/- The nearest methods of a class belong together. -/
theorem findMethod?
    (h : Paired M p q)
    (cls name : String)
    (arity : Nat) :
    Option.Rel (Found M) (p.findMethod? cls name arity)
      (q.findMethod? cls name arity) :=
  methodIn? (h.lineage cls) name arity

/- A static field is found in one class. -/
theorem findStatic?
    (h : Paired M p q)
    (cls field : String) :
    q.findStatic? cls field = p.findStatic? cls field := by
  have hIn : ∀ cs ds, List.Forall₂ (Twin M) cs ds →
      Program.staticIn? field ds
        = Program.staticIn? field cs := by
    intro cs ds hcs
    induction hcs with
    | nil => rfl
    | @cons c d cs ds hcd _ ih =>
      simp only [Program.staticIn?, ClassDef.field?, hcd.fields,
        hcd.name, ih]
  exact hIn _ _ (h.lineage cls)

/- New objects of a class have the same fields. -/
theorem initialFields
    {cs ds : List ClassDef}
    (h : List.Forall₂ (Twin M) cs ds) :
    Run.initialFields ds = Run.initialFields cs := by
  unfold Run.initialFields
  generalize ([] : Bindings String) = start
  induction h generalizing start with
  | nil => rfl
  | @cons c d cs ds hcd _ ih =>
    rw [List.foldl_cons, List.foldl_cons, hcd.fields]
    exact ih _

end Paired

end ExecTrace
