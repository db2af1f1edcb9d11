import ExecTrace.Machine.Eval
import ExecTrace.Proofs.Simulation
import Mathlib.Data.List.Perm.Subperm
import Mathlib.Logic.Relation
import Mathlib.Tactic.Common

/-
  Classes and the classes above them. The hierarchy of a program
  is the relation between a class and its superclass. A subtype
  test walks up from a class and looks at a fixed number of
  classes, so it sees the ancestors that are near. If no links
  form a cycle, the way up from a class visits no class twice,
  and in a program that declares few classes all ancestors are
  near. In a tower of more classes than a test looks at, the
  lowest class is no subclass of the highest one.

  Main declarations:
    * `Program.ancestor?` and `Program.meetsWithin_iff`
    * `Program.Extends`, `Program.Acyclic` and `Program.Below`
    * `Program.wayUp` and `Program.steps_le`
    * `subtypes_follow_hierarchy`
    * `Program.tower`, `isSubclass_tower`
    * `subtypes_follow_hierarchy_tower`
-/

namespace ExecTrace

open Run

------------------------------------------------------------
-- Ancestors
------------------------------------------------------------

namespace Program

/- The class that lies a number of steps above a class. -/
def ancestor?
    (p : Program) : Nat → String → Option String
  | 0, name => some name
  | steps + 1, name =>
    (p.superclass? name).bind (p.ancestor? steps)

/- A class is met if it lies fewer steps above. -/
theorem meetsWithin_iff
    (p : Program)
    (target : String)
    (n : Nat)
    (name : String) :
    p.meetsWithin target n name = true ↔
      ∃ steps < n, p.ancestor? steps name = some target := by
  induction n generalizing name with
  | zero => simp [meetsWithin]
  | succ n ih =>
    rw [meetsWithin]
    by_cases hSame : name = target
    · rw [if_pos hSame]
      constructor
      · intro _
        exact ⟨0, by omega, congrArg some hSame⟩
      · intro _
        rfl
    · rw [if_neg hSame]
      have hFirst : p.ancestor? 0 name ≠ some target := by
        intro h
        exact hSame (Option.some.inj h)
      cases hAbove : p.superclass? name with
      | none =>
        constructor
        · intro h
          cases h
        · rintro ⟨steps, _, hSteps⟩
          cases steps with
          | zero => exact absurd hSteps hFirst
          | succ steps => simp [ancestor?, hAbove] at hSteps
      | some above =>
        rw [ih above]
        constructor
        · rintro ⟨steps, hLess, hSteps⟩
          refine ⟨steps + 1, by omega, ?_⟩
          simpa [ancestor?, hAbove] using hSteps
        · rintro ⟨steps, hLess, hSteps⟩
          cases steps with
          | zero => exact absurd hSteps hFirst
          | succ steps =>
            refine ⟨steps, by omega, ?_⟩
            simpa [ancestor?, hAbove] using hSteps

/-
  A class is a subclass of the root class and of every class
  that lies fewer steps above it than a test looks at classes.
-/
theorem isSubclass_iff
    (p : Program)
    (sub sup : String) :
    p.isSubclass sub sup = true ↔
      sup = rootClass ∨
        ∃ steps < maxAncestors,
          p.ancestor? steps sub = some sup := by
  simp [isSubclass, meetsWithin_iff]

------------------------------------------------------------
-- Hierarchies
------------------------------------------------------------

/- One class is the superclass of another one. -/
def Extends
    (p : Program)
    (name above : String) : Prop :=
  p.superclass? name = some above

/- No way up leads back to the class where it starts. -/
def Acyclic (p : Program) : Prop :=
  ∀ name, ¬Relation.TransGen p.Extends name name

/- A class is another one or lies below it, at any depth. -/
def Below
    (p : Program)
    (sub sup : String) : Prop :=
  sup = rootClass ∨ Relation.ReflTransGen p.Extends sub sup

variable {p : Program}
variable {name above top : String}

/- A way up exists if and only if it has some steps. -/
theorem reaches_iff :
    Relation.ReflTransGen p.Extends name top ↔
      ∃ steps, p.ancestor? steps name = some top := by
  constructor
  · intro h
    induction h using Relation.ReflTransGen.head_induction_on with
    | refl => exact ⟨0, rfl⟩
    | head hFirst _ ih =>
      rcases ih with ⟨steps, hSteps⟩
      refine ⟨steps + 1, ?_⟩
      rw [ancestor?, show p.superclass? _ = some _ from hFirst]
      exact hSteps
  · rintro ⟨steps, hSteps⟩
    induction steps generalizing name with
    | zero =>
      cases hSteps
      exact Relation.ReflTransGen.refl
    | succ steps ih =>
      rcases Option.bind_eq_some_iff.mp hSteps with
        ⟨above, hAbove, hRest⟩
      exact Relation.ReflTransGen.head hAbove (ih hRest)

/- A rank that falls with every step rules out cycles. -/
theorem acyclic_of_rank
    (rank : String → Nat)
    (h : ∀ name above,
      p.Extends name above → rank above < rank name) :
    p.Acyclic := by
  have hFalls : ∀ name above,
      Relation.TransGen p.Extends name above →
        rank above < rank name := by
    intro name above hWay
    induction hWay with
    | single hStep => exact h _ _ hStep
    | tail _ hStep ih =>
      have hLast := h _ _ hStep
      omega
  intro name hCycle
  exact Nat.lt_irrefl _ (hFalls name name hCycle)

------------------------------------------------------------
-- Ways Up
------------------------------------------------------------

/- The classes that are left on the way up from a class. -/
def wayUp
    (p : Program) : Nat → String → List String
  | 0, _ => []
  | steps + 1, name =>
    match p.superclass? name with
    | some above => name :: p.wayUp steps above
    | none => []

/- The classes without a declaration, and their superclasses. -/
def builtinLinks : List (String × String) :=
  [("ArithmeticException", "RuntimeException"),
    ("NullPointerException", "RuntimeException"),
    ("ArrayIndexOutOfBoundsException", "RuntimeException"),
    ("StringIndexOutOfBoundsException", "RuntimeException"),
    ("ClassCastException", "RuntimeException"),
    ("NegativeArraySizeException", "RuntimeException"),
    ("MatchException", "RuntimeException"),
    ("IllegalArgumentException", "RuntimeException"),
    ("IllegalStateException", "RuntimeException"),
    ("RuntimeException", "Exception"),
    ("AssertionError", "Error"),
    ("StackOverflowError", "Error"),
    ("Exception", throwableClass),
    ("Error", throwableClass),
    ("Throwable", rootClass)]

/- All classes that have a superclass. -/
def linkedNames (p : Program) : List String :=
  p.classes.map ClassDef.name ++ builtinLinks.map Prod.fst

/- The links are those of the table of superclasses. -/
theorem mem_builtinLinks
    (h : builtinSuperclass? name = some above) :
    (name, above) ∈ builtinLinks := by
  unfold builtinSuperclass? at h
  split at h
  case h_16 => cases h
  all_goals
    cases h
    decide

/- A class that extends another one is among them. -/
theorem mem_linkedNames
    (h : p.Extends name above) : name ∈ p.linkedNames := by
  unfold linkedNames
  unfold Extends superclass? at h
  rw [List.mem_append]
  cases hClass : p.class? name with
  | some c =>
    left
    have hName := List.find?_some hClass
    simp only [beq_iff_eq] at hName
    rw [← hName]
    exact List.mem_map_of_mem (List.mem_of_find?_eq_some hClass)
  | none =>
    right
    rw [hClass] at h
    exact List.mem_map_of_mem (mem_builtinLinks h)

/- The way up has as many classes as steps. -/
theorem length_wayUp
    {steps : Nat}
    (h : p.ancestor? steps name = some top) :
    (p.wayUp steps name).length = steps := by
  induction steps generalizing name with
  | zero => rfl
  | succ steps ih =>
    rcases Option.bind_eq_some_iff.mp h with
      ⟨above, hAbove, hRest⟩
    rw [wayUp, hAbove, List.length_cons, ih hRest]

/- What is left on the way up lies on it and has a superclass. -/
theorem mem_wayUp
    {steps : Nat}
    {x : String}
    (h : x ∈ p.wayUp steps name) :
    Relation.ReflTransGen p.Extends name x ∧
      x ∈ p.linkedNames := by
  induction steps generalizing name with
  | zero => cases h
  | succ steps ih =>
    rw [wayUp] at h
    cases hAbove : p.superclass? name with
    | none =>
      rw [hAbove] at h
      cases h
    | some above =>
      rw [hAbove] at h
      rcases List.mem_cons.mp h with rfl | hRest
      · exact ⟨.refl, mem_linkedNames hAbove⟩
      · rcases ih hRest with ⟨hWay, hLinked⟩
        exact ⟨.head hAbove hWay, hLinked⟩

/- Without cycles no class is left twice. -/
theorem nodup_wayUp
    (hp : p.Acyclic)
    (steps : Nat)
    (name : String) : (p.wayUp steps name).Nodup := by
  induction steps generalizing name with
  | zero => exact List.nodup_nil
  | succ steps ih =>
    rw [wayUp]
    cases hAbove : p.superclass? name with
    | none => exact List.nodup_nil
    | some above =>
      apply List.nodup_cons.mpr
      constructor
      · intro hAgain
        have hBack := (mem_wayUp hAgain).1
        exact hp name (Relation.TransGen.head' hAbove hBack)
      · exact ih above

/- Without cycles there are no more steps than linked classes. -/
theorem steps_le
    {steps : Nat}
    (hp : p.Acyclic)
    (h : p.ancestor? steps name = some top) :
    steps ≤ p.classes.length + 15 := by
  have hLinked : p.wayUp steps name ⊆ p.linkedNames :=
    fun _ hx => (mem_wayUp hx).2
  have hLength :=
    ((nodup_wayUp hp steps name).subperm hLinked).length_le
  rw [length_wayUp h] at hLength
  simpa [linkedNames, builtinLinks] using hLength

/-
  Without cycles and with few classes, a subtype test follows
  the hierarchy at any depth.
-/
theorem isSubclass_iff_below
    (hp : p.Acyclic)
    (hFew : p.classes.length + 15 < maxAncestors)
    (sub sup : String) :
    p.isSubclass sub sup = true ↔ p.Below sub sup := by
  rw [isSubclass_iff, Below, reaches_iff]
  apply or_congr Iff.rfl
  constructor
  · rintro ⟨steps, _, hSteps⟩
    exact ⟨steps, hSteps⟩
  · rintro ⟨steps, hSteps⟩
    have hShort := steps_le hp hSteps
    exact ⟨steps, by omega, hSteps⟩

------------------------------------------------------------
-- Towers
------------------------------------------------------------

/- The name of a level of a tower. -/
def level (i : Nat) : String :=
  "C" ++ toString i

/- The class of a level: the one above is its superclass. -/
def levelClass (n i : Nat) : ClassDef where
  name := level i
  superclass := if i < n then some (level (i + 1)) else none

/- A tower of classes, each of which extends the next one. -/
def tower (n : Nat) : Program where
  classes := (List.range (n + 1)).map (levelClass n)

/- The level of a tower that has a name. -/
def levelOf?
    (n : Nat)
    (name : String) : Option Nat :=
  (List.range (n + 1)).find? fun i => level i == name

section Towers

variable {n i : Nat}

/- Levels have different names. -/
theorem level_inj
    {j : Nat}
    (h : level i = level j) : i = j := by
  unfold level at h
  have hNumbers := (String.append_right_inj "C").mp h
  have hDigits := congrArg String.toList hNumbers
  simp only [Nat.toString_eq_repr, Nat.toList_repr] at hDigits
  have hSame := congrArg (Nat.ofDigitChars 10 · 0) hDigits
  simpa only [Nat.ofDigitChars_ten_toDigits] using hSame

/- A level is found by its name. -/
theorem levelOf_level
    (h : i ≤ n) : levelOf? n (level i) = some i := by
  unfold levelOf?
  rw [List.find?_range_eq_some]
  refine ⟨by simp, by simp; omega, ?_⟩
  intro j hj
  simp only [Bool.not_eq_true', beq_eq_false_iff_ne]
  intro hSame
  have hIndex := level_inj hSame
  omega

/- A name at which a level is found is that of the level. -/
theorem of_levelOf
    (h : levelOf? n name = some i) : name = level i ∧ i ≤ n := by
  have hName := List.find?_some h
  have hBound := List.mem_of_find?_eq_some h
  simp only [beq_iff_eq] at hName
  rw [List.mem_range] at hBound
  exact ⟨hName.symm, by omega⟩

/- The classes of a tower are those of its levels. -/
theorem class_tower :
    (tower n).class? name =
      (levelOf? n name).map (levelClass n) := by
  unfold tower class?
  rw [List.find?_map]
  rfl

/- Below the highest level, the superclass is the next level. -/
theorem superclass_level
    (h : i < n) :
    (tower n).superclass? (level i) = some (level (i + 1)) := by
  unfold superclass?
  rw [class_tower, levelOf_level (by omega)]
  simp only [Option.map_some, levelClass]
  rw [if_pos h]
  rfl

/- The ancestors within a tower are the levels above. -/
theorem ancestor_level
    {steps : Nat}
    (h : i + steps ≤ n) :
    (tower n).ancestor? steps (level i) =
      some (level (i + steps)) := by
  induction steps generalizing i with
  | zero => rfl
  | succ steps ih =>
    rw [ancestor?, superclass_level (by omega), Option.bind_some,
      ih (by omega)]
    congr 2
    omega

/- The first letters of names of levels are the same. -/
theorem level_ne
    (h : name.toList.head? ≠ some 'C') : level i ≠ name := by
  rintro rfl
  apply h
  simp [level]

/-
  The lowest class of a tower is recognized as a subclass of the
  highest one if and only if the tower is not too high.
-/
theorem isSubclass_tower (n : Nat) :
    (tower n).isSubclass (level 0) (level n) = true ↔
      n < maxAncestors := by
  rw [isSubclass_iff]
  constructor
  · rintro (hRoot | ⟨steps, hLess, hSteps⟩)
    · exact absurd hRoot (level_ne (by decide))
    · by_contra hHigh
      rw [ancestor_level (by omega)] at hSteps
      have hIndex := level_inj (Option.some.inj hSteps)
      omega
  · intro hLess
    right
    refine ⟨n, hLess, ?_⟩
    rw [ancestor_level (by omega), Nat.zero_add]

/- The lowest class of a tower lies below the highest one. -/
theorem below_tower (n : Nat) :
    (tower n).Below (level 0) (level n) := by
  right
  rw [reaches_iff]
  refine ⟨n, ?_⟩
  rw [ancestor_level (by omega), Nat.zero_add]

/- How far a class without a declaration lies below the root. -/
def builtinRank : String → Nat
  | "Object" => 0
  | "Throwable" => 1
  | "Exception" => 2
  | "Error" => 2
  | "RuntimeException" => 3
  | _ => 4

/- The rank falls from a class to its superclass. -/
theorem builtinRank_lt
    (h : builtinSuperclass? name = some above) :
    builtinRank above < builtinRank name := by
  have hFalls : ∀ link ∈ builtinLinks,
      builtinRank link.2 < builtinRank link.1 := by
    decide
  exact hFalls _ (mem_builtinLinks h)

/- No superclass of a class without a declaration is a level. -/
theorem levelOf_builtin
    (h : builtinSuperclass? name = some above) :
    levelOf? n above = none := by
  have hFirst : ∀ link ∈ builtinLinks,
      link.2.toList.head? ≠ some 'C' := by
    decide
  cases hLevel : levelOf? n above with
  | none => rfl
  | some i =>
    have hName := (of_levelOf hLevel).1
    exact absurd hName.symm
      (level_ne (hFirst _ (mem_builtinLinks h)))

/- The rank of the classes of a tower. -/
def towerRank
    (n : Nat)
    (name : String) : Nat :=
  match levelOf? n name with
  | some i => n - i + 5
  | none => builtinRank name

/- The links of a tower do not form a cycle. -/
theorem acyclic_tower (n : Nat) : (tower n).Acyclic := by
  apply acyclic_of_rank (towerRank n)
  intro name above h
  unfold Extends superclass? at h
  rw [class_tower] at h
  unfold towerRank
  cases hLevel : levelOf? n name with
  | none =>
    rw [hLevel] at h
    rw [levelOf_builtin h]
    exact builtinRank_lt h
  | some i =>
    rw [hLevel] at h
    simp only [Option.map_some, levelClass, Option.some.injEq] at h
    by_cases hTop : i < n
    · rw [if_pos hTop] at h
      rw [← h, Option.getD_some, levelOf_level (by omega)]
      simp only
      omega
    · rw [if_neg hTop] at h
      have hLink :
          builtinSuperclass? "Throwable" = some rootClass := rfl
      have hRoot : levelOf? n rootClass = none :=
        levelOf_builtin hLink
      have hLowest : builtinRank rootClass = 0 := rfl
      rw [← h, Option.getD_none, hRoot]
      simp only
      omega

end Towers

end Program

------------------------------------------------------------
-- Tests at Run Time
------------------------------------------------------------

section Tests

variable {p : Program}

/- A type test of an object for a class is a subtype test. -/
theorem instanceOf_object
    (h : Heap)
    (a : Nat)
    (cls : String) :
    Call.instanceOf p h (.obj a) (.cls cls) =
      p.isSubclass (h.classOf a) cls :=
  rfl

/- A handler for a class makes the test, or takes all. -/
theorem catches_object
    (h : Heap)
    (a : Nat)
    (cls : String) :
    Call.catches p h (.obj a) (.cls cls) = true ↔
      cls = throwableClass ∨
        p.isSubclass (h.classOf a) cls = true := by
  unfold Call.catches
  rw [instanceOf_object, Bool.or_eq_true]
  simp [Ty.throwable, throwableClass]

/- A cast of an object to a class makes the test. -/
theorem cast_object
    (m : Machine)
    (a : Nat)
    (cls : String) :
    Call.cast p (.obj a) (.cls cls) m =
      if p.isSubclass (m.heap.classOf a) cls then (.ok (.obj a), m)
      else
        raise p "ClassCastException"
          (m.heap.className (.obj a) ++ " cannot be cast to "
            ++ cls) m := by
  have hReference : (Ty.cls cls).isPrimitive = false := rfl
  have hObject : (Val.obj a).isNull = false := rfl
  unfold Call.cast
  rw [get_bind_apply]
  simp only [hReference, hObject, instanceOf_object,
    Bool.false_or, Bool.false_eq_true, if_false]
  split
  · rfl
  · rfl

end Tests

/-
  A class is recognized as a subclass of the root class and of
  all its ancestors but those that lie too far above. Without
  cycles and with few classes none does, and the test follows
  the hierarchy at any depth. Type tests, casts and handlers
  decide by it about objects.
-/
theorem subtypes_follow_hierarchy
    (p : Program)
    (sub sup : String) :
    (p.isSubclass sub sup = true ↔
      sup = rootClass ∨
        ∃ steps < Program.maxAncestors,
          p.ancestor? steps sub = some sup) ∧
    (p.Acyclic →
      p.classes.length + 15 < Program.maxAncestors →
      (p.isSubclass sub sup = true ↔ p.Below sub sup)) ∧
    ∀ m a, m.heap.classOf a = sub →
      (Call.instanceOf p m.heap (.obj a) (.cls sup) = true ↔
        p.isSubclass sub sup = true) ∧
      (Call.catches p m.heap (.obj a) (.cls sup) = true ↔
        sup = throwableClass ∨ p.isSubclass sub sup = true) ∧
      Call.cast p (.obj a) (.cls sup) m =
        if p.isSubclass sub sup then (.ok (.obj a), m)
        else
          raise p "ClassCastException"
            (m.heap.className (.obj a) ++ " cannot be cast to "
              ++ sup) m := by
  refine ⟨p.isSubclass_iff sub sup, ?_, ?_⟩
  · intro hp hFew
    exact Program.isSubclass_iff_below hp hFew sub sup
  · rintro m a rfl
    refine ⟨?_, catches_object m.heap a sup, cast_object m a sup⟩
    rw [instanceOf_object]

/- An exception class below one that needs no declaration. -/
def oopsProgram : Program where
  classes :=
    [{ name := "Oops", superclass := some "IllegalStateException" }]

/- The links of the program do not form a cycle. -/
theorem acyclic_oopsProgram : oopsProgram.Acyclic := by
  apply Program.acyclic_of_rank fun name =>
    if name = "Oops" then 5 else Program.builtinRank name
  intro name above h
  unfold Program.Extends Program.superclass? at h
  by_cases hOops : name = "Oops"
  · subst hOops
    cases h
    decide
  · have hNone : oopsProgram.class? name = none := by
      simp [oopsProgram, Program.class?, Ne.symm hOops]
    rw [hNone] at h
    have hBuiltin : builtinSuperclass? name = some above := h
    have hLess := Program.builtinRank_lt hBuiltin
    have hOthers : ∀ link ∈ Program.builtinLinks,
        link.2 ≠ "Oops" := by
      decide
    have hNew := hOthers _ (Program.mem_builtinLinks hBuiltin)
    rw [if_neg hNew, if_neg hOops]
    exact hLess

/-
  An object of the class is an exception at any depth, but it is
  no error, and it is not caught as one.
-/
theorem subtypes_follow_hierarchy_oops :
    let m : Machine :=
      { heap := (({} : Heap).addObject ⟨1, "Oops", []⟩).1 }
    oopsProgram.Acyclic ∧
      oopsProgram.classes.length + 15 < Program.maxAncestors ∧
      m.heap.classOf 0 = "Oops" ∧
      oopsProgram.Below "Oops" "Exception" ∧
      ¬oopsProgram.Below "Oops" "Error" ∧
      Call.instanceOf oopsProgram m.heap (.obj 0)
        (.cls "Exception") = true ∧
      ¬Call.catches oopsProgram m.heap (.obj 0)
        (.cls "Error") = true := by
  intro m
  have hFew :
      oopsProgram.classes.length + 15 < Program.maxAncestors := by
    decide
  have hYes := subtypes_follow_hierarchy oopsProgram "Oops"
    "Exception"
  have hNo := subtypes_follow_hierarchy oopsProgram "Oops" "Error"
  have hSub : oopsProgram.isSubclass "Oops" "Exception" = true := by
    decide
  have hOther :
      ¬oopsProgram.isSubclass "Oops" "Error" = true := by
    decide
  have hClass : m.heap.classOf 0 = "Oops" := by decide
  refine ⟨acyclic_oopsProgram, hFew, hClass, ?_, ?_, ?_, ?_⟩
  · exact (hYes.2.1 acyclic_oopsProgram hFew).mp hSub
  · intro hBelow
    exact hOther ((hNo.2.1 acyclic_oopsProgram hFew).mpr hBelow)
  · exact (hYes.2.2 m 0 hClass).1.mpr hSub
  · intro hCaught
    rcases (hNo.2.2 m 0 hClass).2.1.mp hCaught with hAll | hError
    · exact absurd hAll (by decide)
    · exact hOther hError

/-
  In a tower of 257 classes the lowest one lies below the highest
  one, but it is not recognized as a subclass of it: an object of
  the class is no instance of it, and no handler for it takes one.
-/
theorem subtypes_follow_hierarchy_tower :
    let p := Program.tower 256
    let h := (({} : Heap).addObject ⟨1, "C0", []⟩).1
    p.Acyclic ∧ p.Below "C0" "C256" ∧
      p.isSubclass "C0" "C256" = false ∧
      h.classOf 0 = "C0" ∧
      Call.instanceOf p h (.obj 0) (.cls "C256") = false ∧
      Call.catches p h (.obj 0) (.cls "C256") = false := by
  intro p h
  have hLowest : Program.level 0 = "C0" := by decide
  have hHighest : Program.level 256 = "C256" := by decide
  have hClass : h.classOf 0 = "C0" := by decide
  have hSub : p.isSubclass "C0" "C256" = false := by
    rw [← hLowest, ← hHighest, Bool.eq_false_iff, ne_eq,
      Program.isSubclass_tower]
    decide
  have hInstance :
      Call.instanceOf p h (.obj 0) (.cls "C256") = false := by
    rw [instanceOf_object, hClass, hSub]
  refine ⟨Program.acyclic_tower 256, ?_, hSub, hClass, hInstance, ?_⟩
  · rw [← hLowest, ← hHighest]
    exact Program.below_tower 256
  · rw [Call.catches, hInstance]
    decide

end ExecTrace
