import ExecTrace.Proofs.Guarding
import ExecTrace.Proofs.Hosting
import ExecTrace.Proofs.Stillness
import Mathlib.Data.List.Nodup
import Mathlib.Data.List.Perm.Subperm
import Mathlib.Logic.Relation
import Mathlib.Tactic.Common

/-
  When a capture ends. An array is captured item by item, and an
  item that is an array itself is captured in the same way. What
  is captured therefore has to have an end: as long as no array
  among it holds itself, no more arrays lie around an item than
  the heap has, and a capture may go as deep as that. A text that
  an object has of its own must end too, and must not change the
  arrays that are being captured.

  Main declarations:
    * `Subject` and `Heap.Within`
    * `Renders`
    * `Heap.Depictable`
    * `Heap.Trail`
    * `captures_end_iff`
-/

namespace ExecTrace

open Run

------------------------------------------------------------
-- Subjects
------------------------------------------------------------

/- What is captured: a value, as a value of a kind. -/
abbrev Subject := Kind × Val

namespace Heap

/- The kind that the items of an array are captured as. -/
def itemKind
    (h : Heap)
    (a : Nat) : Kind :=
  (h.elementOf a).kind?.getD .reference

/- The parts of a subject: an array is captured item by item. -/
def parts
    (h : Heap) : Subject → List Subject
  | (.array, .arr a) =>
    (h.itemsOf a).toList.map fun v => (h.itemKind a, v)
  | _ => []

/- Whether a subject has another one as a part. -/
def Part
    (h : Heap)
    (x y : Subject) : Prop :=
  y ∈ h.parts x

/- Whether a subject is captured when another one is. -/
abbrev Within (h : Heap) : Subject → Subject → Prop :=
  Relation.ReflTransGen h.Part

variable {h : Heap}
variable {x y z : Subject}

/- What has a part is an array that is captured as one. -/
theorem array_of_part
    (hPart : h.Part y z) :
    ∃ a, y = (.array, .arr a) ∧ a < h.arrays.size := by
  rcases y with ⟨kind, v⟩
  unfold Part parts at hPart
  split at hPart
  · rename_i a hSame
    cases hSame
    refine ⟨a, rfl, ?_⟩
    by_contra hBound
    have hNone : h.arrays[a]? = none :=
      Array.getElem?_eq_none_iff.mpr (Nat.not_lt.mp hBound)
    simp [itemsOf, hNone] at hPart
  · cases hPart

/- Everything else has no parts. -/
theorem parts_eq_nil
    (hPlain : ∀ a, y ≠ (.array, .arr a)) : h.parts y = [] := by
  rw [List.eq_nil_iff_forall_not_mem]
  intro z hz
  rcases array_of_part hz with ⟨a, hArray, _⟩
  exact hPlain a hArray

/-
  Whether a subject can be captured: it fits, and so do its parts,
  down to subjects without parts.
-/
inductive Depictable (h : Heap) : Subject → Prop where
  | of
      {y : Subject}
      (hFits : y.1.fits y.2 = true)
      (hParts : ∀ z ∈ h.parts y, h.Depictable z) : h.Depictable y

/- All of what can be captured fits, and nothing of it is in itself. -/
theorem Depictable.sound
    (hx : h.Depictable x) :
    ∀ y, h.Within x y →
      y.1.fits y.2 = true ∧ ¬Relation.TransGen h.Part y y := by
  induction hx with
  | @of x hFits hParts ih =>
    intro y hy
    have hBelow : ∀ z, Relation.TransGen h.Part x z →
        z.1.fits z.2 = true ∧ ¬Relation.TransGen h.Part z z := by
      intro z hz
      rcases Relation.TransGen.head'_iff.mp hz with ⟨w, hw, hwz⟩
      exact ih w hw z hwz
    rcases Relation.reflTransGen_iff_eq_or_transGen.mp hy with
      rfl | hy
    · exact ⟨hFits, fun hCycle => (hBelow y hCycle).2 hCycle⟩
    · exact hBelow y hy

------------------------------------------------------------
-- Trails
------------------------------------------------------------

/-
  Arrays around a subject, innermost first: each holds the next
  one, and no array is among them twice.
-/
structure Trail
    (h : Heap)
    (as : List Nat)
    (y : Subject) : Prop where
  nodup : as.Nodup
  bound : ∀ a ∈ as, a < h.arrays.size
  around : ∀ a ∈ as, Relation.TransGen h.Part (.array, .arr a) y

namespace Trail

variable {as : List Nat}
variable {a : Nat}

/- There are no more arrays around a subject than there are. -/
theorem length_le
    (hTrail : h.Trail as y) : as.length ≤ h.arrays.size := by
  have hSubset : as ⊆ List.range h.arrays.size := fun a ha =>
    List.mem_range.mpr (hTrail.bound a ha)
  simpa using (hTrail.nodup.subperm hSubset).length_le

/- An array that is not in itself is one more around its items. -/
theorem cons
    (hTrail : h.Trail as (.array, .arr a))
    (hBound : a < h.arrays.size)
    (hOnce : ¬Relation.TransGen h.Part (.array, .arr a)
      (.array, .arr a))
    (hPart : h.Part (.array, .arr a) z) : h.Trail (a :: as) z where
  nodup := List.nodup_cons.mpr
    ⟨fun ha => hOnce (hTrail.around a ha), hTrail.nodup⟩
  bound := List.forall_mem_cons.mpr ⟨hBound, hTrail.bound⟩
  around := List.forall_mem_cons.mpr
    ⟨.single hPart, fun b hb => (hTrail.around b hb).tail hPart⟩

end Trail

end Heap

------------------------------------------------------------
-- Runs that Give a Value
------------------------------------------------------------

section Rules

variable {α β : Type}
variable {I : Machine → Prop}

/- A run gives a value, whatever machine of some kind it is on. -/
def Delivers
    (I : Machine → Prop)
    (x : Run α) : Prop :=
  ∀ k, I k → ∃ a k', x k = (.ok a, k') ∧ I k'

/- A run gives a value only if something holds. -/
def Needs
    (I : Machine → Prop)
    (P : Prop)
    (x : Run α) : Prop :=
  ∀ k a k', I k → x k = (.ok a, k') → P ∧ I k'

/- A value is given. -/
theorem Delivers.pure (a : α) : Delivers I (Pure.pure a : Run α) :=
  fun k hk => ⟨a, k, rfl, hk⟩

/- A sequence gives a value if its parts do. -/
theorem Delivers.bind
    {x : Run α}
    {f : α → Run β}
    (hx : Delivers I x)
    (hf : ∀ a, Delivers I (f a)) : Delivers I (x >>= f) := by
  intro k hk
  rcases hx k hk with ⟨a, k₁, hFirst, hk₁⟩
  rw [bind_ok hFirst]
  exact hf a k₁ hk₁

/- A list is run through if each of its items gives a value. -/
theorem Delivers.mapM
    {f : α → Run β}
    (as : List α)
    (h : ∀ a ∈ as, Delivers I (f a)) : Delivers I (as.mapM f) := by
  induction as with
  | nil => exact .pure []
  | cons a as ih =>
    rw [List.mapM_cons]
    refine (h a List.mem_cons_self).bind fun b => ?_
    refine (ih fun a ha => h a (List.mem_cons_of_mem _ ha)).bind ?_
    exact fun bs => .pure _

/- A run that gives a value anyway needs nothing. -/
theorem Delivers.needs
    {x : Run α}
    (h : Delivers I x) : Needs I True x := by
  intro k a k' hk hRun
  rcases h k hk with ⟨b, k₁, hSame, hk₁⟩
  cases hRun.symm.trans hSame
  exact ⟨trivial, hk₁⟩

/- A sequence needs what its parts need. -/
theorem Needs.bind
    {P Q : Prop}
    {x : Run α}
    {f : α → Run β}
    (hx : Needs I P x)
    (hf : ∀ a, Needs I Q (f a)) : Needs I (P ∧ Q) (x >>= f) := by
  intro k b k' hk hRun
  rcases bind_returned hRun with ⟨a, k₁, hFirst, hRest⟩
  rcases hx k a k₁ hk hFirst with ⟨hP, hk₁⟩
  rcases hf a k₁ b k' hk₁ hRest with ⟨hQ, hk'⟩
  exact ⟨⟨hP, hQ⟩, hk'⟩

/- To run through a list needs what all of its items need. -/
theorem Needs.mapM
    {P : α → Prop}
    {f : α → Run β}
    (as : List α)
    (h : ∀ a ∈ as, Needs I (P a) (f a)) :
    Needs I (∀ a ∈ as, P a) (as.mapM f) := by
  induction as with
  | nil =>
    intro k bs k' hk hRun
    exact ⟨nofun, ((Delivers.pure []).needs k bs k' hk hRun).2⟩
  | cons a as ih =>
    rw [List.mapM_cons]
    intro k bs k' hk hRun
    have hRest := ih fun a ha => h a (List.mem_cons_of_mem _ ha)
    have hAll := (h a List.mem_cons_self).bind fun b =>
      hRest.bind fun bs => (Delivers.pure (b :: bs)).needs
    rcases hAll k bs k' hk hRun with ⟨⟨ha, has, _⟩, hk'⟩
    exact ⟨List.forall_mem_cons.mpr ⟨ha, has⟩, hk'⟩

end Rules

------------------------------------------------------------
-- Captures
------------------------------------------------------------

/-
  Machines that lie on the way of a capture. Each text that the
  program is asked for is given, or fails to be given, and leaves
  the arrays that are captured as they are.
-/
structure Renders
    (p : Program)
    (i : Invoker)
    (h : Heap)
    (x : Subject)
    (I : Machine → Prop) : Prop where
  parts : ∀ k y, I k → h.Within x y → k.heap.parts y = h.parts y
  texts : ∀ y, h.Within x y →
    Delivers I (textUnlessThrown (Call.textOf p i "toString" y.2))
  numbers : ∀ k, I k → I { k with nextId := k.nextId + 1 }

section Captures

variable {p : Program}
variable {i : Invoker}
variable {h : Heap}
variable {x y z : Subject}
variable {I : Machine → Prop}
variable {a d : Nat}

/- What does not fit is not captured. -/
theorem snapshot_unfit
    (hUnfit : y.1.fits y.2 = false)
    (d : Nat)
    (k : Machine) :
    ∃ c k', snapshot .silent p i (d + 1) y.1 y.2 k
      = (.error c, k') := by
  rcases y with ⟨kind, v⟩
  unfold snapshot
  cases hKind : kind.scalarTy? with
  | some ty =>
    cases v with
    | scalar s => simp [Kind.fits, hKind] at hUnfit
    | _ => exact ⟨_, _, rfl⟩
  | none =>
    cases v with
    | void => exact ⟨_, _, rfl⟩
    | _ => simp [Kind.fits, hKind] at hUnfit

namespace Renders

/- An array that is captured as one is captured item by item. -/
theorem snapshot_array
    (hRenders : Renders p i h x I)
    (hy : h.Within x (.array, .arr a))
    (d : Nat)
    {k : Machine}
    (hk : I k) :
    snapshot .silent p i (d + 1) .array (.arr a) k =
      ((h.parts (.array, .arr a)).mapM
        (fun z => snapshot .silent p i d z.1 z.2) >>=
          fun ts => pure (Snapshot.array ts)) k := by
  rw [← hRenders.parts k _ hk hy]
  simp only [Heap.parts, List.mapM_map]
  rw [snapshot]
  rfl

/- What fits and is no such array is captured. -/
theorem snapshot_plain
    (hRenders : Renders p i h x I)
    (hy : h.Within x y)
    (hFits : y.1.fits y.2 = true)
    (hPlain : ∀ a, y ≠ (.array, .arr a))
    (d : Nat) :
    Delivers I (snapshot .silent p i (d + 1) y.1 y.2) := by
  have hReference : Delivers I (referenceSnapshot p i y.2) :=
    fun k hk => (hRenders.texts y hy).bind (fun _ => .pure _) k hk
  rcases y with ⟨kind, v⟩
  have hWatch : Delivers I (watch .silent (.captured kind v)) :=
    fun k hk => ⟨(), k, rfl, hk⟩
  unfold snapshot
  refine hWatch.bind fun _ => ?_
  cases hKind : kind.scalarTy? with
  | some ty =>
    cases v with
    | scalar s => exact .pure _
    | _ => simp [Kind.fits, hKind] at hFits
  | none =>
    cases v with
    | void => simp [Kind.fits, hKind] at hFits
    | null => exact .pure _
    | str s => exact hReference
    | obj a => exact hReference
    | arr a =>
      have hOther : kind ≠ .array := by
        rintro rfl
        exact hPlain a rfl
      simp only [if_neg hOther]
      exact hReference
    | scalar s =>
      dsimp only
      cases hBoxed : (Val.scalar s).boxedClass? with
      | none => cases s <;> cases hBoxed
      | some cls => exact fun k hk => ⟨_, _, rfl, hRenders.numbers k hk⟩

/- A capture gives nothing unless all of its subject fits. -/
theorem needs_depictable
    (hRenders : Renders p i h x I)
    (hy : h.Within x y) :
    Needs I (h.Depictable y) (snapshot .silent p i d y.1 y.2) := by
  induction d generalizing y with
  | zero => rintro k t k' _ ⟨⟩
  | succ d ih =>
    intro k t k' hk hRun
    cases hFits : y.1.fits y.2 with
    | false =>
      rcases snapshot_unfit hFits d k with ⟨c, k₁, hError⟩
      cases hRun.symm.trans hError
    | true =>
      by_cases hArray : ∃ a, y = (.array, .arr a)
      · rcases hArray with ⟨a, rfl⟩
        rw [hRenders.snapshot_array hy d hk] at hRun
        have hItems := Needs.mapM (h.parts (.array, .arr a))
          fun z hz => ih (hy.tail hz)
        have hAll := hItems.bind fun ts =>
          (Delivers.pure (Snapshot.array ts)).needs
        rcases hAll k t k' hk hRun with ⟨⟨hParts, _⟩, hk'⟩
        exact ⟨.of hFits hParts, hk'⟩
      · have hPlain := not_exists.mp hArray
        have hGives := hRenders.snapshot_plain hy hFits hPlain d
        refine ⟨.of hFits ?_, (hGives.needs k t k' hk hRun).2⟩
        simp [Heap.parts_eq_nil hPlain]

/-
  A capture gives a value if it may go one level deeper than there
  are arrays that do not lie around its subject already.
-/
theorem gives
    (hRenders : Renders p i h x I)
    (hSound : ∀ y, h.Within x y →
      y.1.fits y.2 = true ∧ ¬Relation.TransGen h.Part y y)
    {as : List Nat}
    (hy : h.Within x y)
    (hTrail : h.Trail as y)
    (hDeep : h.arrays.size < d + as.length) :
    Delivers I (snapshot .silent p i d y.1 y.2) := by
  induction d generalizing y as with
  | zero =>
    have hLength := hTrail.length_le
    omega
  | succ d ih =>
    have hItems : ∀ z ∈ h.parts y,
        Delivers I (snapshot .silent p i d z.1 z.2) := by
      intro z hz
      rcases Heap.array_of_part hz with ⟨a, rfl, hBound⟩
      refine ih (hy.tail hz)
        (hTrail.cons hBound (hSound _ hy).2 hz) ?_
      rw [List.length_cons]
      omega
    by_cases hArray : ∃ a, y = (.array, .arr a)
    · rcases hArray with ⟨a, rfl⟩
      intro k hk
      rw [hRenders.snapshot_array hy d hk]
      exact (Delivers.mapM _ hItems).bind (fun ts => .pure _) k hk
    · exact hRenders.snapshot_plain hy (hSound y hy).1
        (not_exists.mp hArray) d

end Renders

/-
  A value is captured if and only if all that is captured of it
  fits its kind and no array among it is in itself: such a capture
  ends at every supply of fuel, and no other one ends at any.
-/
theorem captures_end_iff
    {m : Machine}
    {kind : Kind}
    {v : Val}
    (hRenders : Renders p i m.heap (kind, v) I)
    (hm : I m)
    (fuel : Nat) :
    (∃ t k, captureValue .silent p i fuel kind v m = (.ok t, k)) ↔
      ∀ y, m.heap.Within (kind, v) y →
        y.1.fits y.2 = true ∧
          ¬Relation.TransGen m.heap.Part y y := by
  constructor
  · rintro ⟨t, k, hRun⟩
    exact (hRenders.needs_depictable .refl m t k hm hRun).1.sound
  · intro hSound
    have hTrail : m.heap.Trail [] (kind, v) := ⟨.nil, nofun, nofun⟩
    have hDeep : m.heap.arrays.size <
        captureDepth fuel m.heap + ([] : List Nat).length := by
      simp only [captureDepth, List.length_nil]
      omega
    rcases hRenders.gives hSound .refl hTrail hDeep m hm with
      ⟨t, k, hRun, _⟩
    exact ⟨t, k, hRun⟩

/- If no object has a text of its own, a text changes nothing. -/
theorem renders_textless
    (hp : p.isTextless = true)
    (i : Invoker)
    (h : Heap)
    (x : Subject) :
    Renders p i h x fun k => k.heap = h where
  parts := by
    rintro k y rfl _
    rfl
  texts := by
    intro y _ k hk
    have hText : ∃ s, Call.textOf p i "toString" y.2 k = (.ok s, k) := by
      unfold Call.textOf
      rw [get_bind_apply]
      cases y.2 with
      | obj a =>
        simp only
        cases hFound :
            p.findMethod? (k.heap.classOf a) "toString" 0 with
        | none => exact ⟨_, rfl⟩
        | some found =>
          simp only [Program.isStatic_of_isTextless hp hFound, if_true]
          exact ⟨_, rfl⟩
      | _ => exact ⟨_, rfl⟩
    rcases hText with ⟨s, hText⟩
    refine ⟨some s, k, ?_, hk⟩
    unfold textUnlessThrown
    rw [hText]
  numbers := fun _ hk => hk

end Captures

------------------------------------------------------------
-- Nested Arrays
------------------------------------------------------------

/-
  A program with a method that returns an array of an array, and
  with one that stores an array in itself.
-/
def nestingProgram : Program :=
  let inner := Ty.array (.cls "Object")
  let a := Expr.localVar "a" (.array inner)
  let create := Stmt.ofForm
    (.declare "a" (.array inner) (some (.newArray inner (.int 1))))
  ⟨[{ name := "Main"
      methods := [
        { name := "nests"
          kind := .static
          ret := .array inner
          body := some [
            create,
            .expr (.assign (.index a (.int 0))
              (.newArray (.cls "Object") (.int 1))),
            .ofForm (.return (some a))] },
        { name := "loops"
          kind := .static
          ret := .array inner
          body := some [
            create,
            .expr (.assign (.index a (.int 0)) a),
            .ofForm (.return (some a))] }] }]⟩

/- A call of one of the methods. -/
def nestingRun (method : String) : End Val :=
  Machine.request .silent nestingProgram 20 "Main" method []
    (.fresh 64)

/- The capture of what a call has returned. -/
def nestingCapture
    (method : String)
    (fuel : Nat) : End Snapshot :=
  captureValue .silent nestingProgram
    (invoke .silent nestingProgram fuel) fuel .array (.arr 0)
    (nestingRun method).2

/- An array of an array is captured, and needs no fuel for it. -/
theorem captures_end_nested :
    (nestingRun "nests").1.toOption = some (.arr 0) ∧
      ∃ t k, nestingCapture "nests" 0 = (.ok t, k) := by
  have hRun : (nestingRun "nests").1.toOption = some (.arr 0) ∧
      (nestingRun "nests").2.heap = ⟨#[], #[
        ⟨1, .array (.cls "Object"), #[.arr 1]⟩,
        ⟨2, .cls "Object", #[.null]⟩]⟩ := by
    decide +kernel
  refine ⟨hRun.1, ?_⟩
  unfold nestingCapture
  generalize (nestingRun "nests").2 = m at hRun
  have hRenders := renders_textless (p := nestingProgram) (by decide)
    (invoke .silent nestingProgram 0) m.heap (.array, .arr 0)
  have hNull : m.heap.Depictable (.reference, .null) :=
    .of rfl nofun
  have hInner : m.heap.Depictable (.array, .arr 1) := by
    refine .of rfl fun z hz => ?_
    simp only [Heap.parts, Heap.itemsOf, Heap.itemKind,
      Heap.elementOf, hRun.2] at hz
    exact List.mem_singleton.mp hz ▸ hNull
  have hOuter : m.heap.Depictable (.array, .arr 0) := by
    refine .of rfl fun z hz => ?_
    simp only [Heap.parts, Heap.itemsOf, Heap.itemKind,
      Heap.elementOf, hRun.2] at hz
    exact List.mem_singleton.mp hz ▸ hInner
  exact (captures_end_iff hRenders rfl 0).mpr hOuter.sound

/- An array in itself is captured with no supply of fuel. -/
theorem captures_end_looped :
    (nestingRun "loops").1.toOption = some (.arr 0) ∧
      ∀ fuel, (nestingCapture "loops" fuel).1
        = .error .outOfFuel := by
  have hRun : (nestingRun "loops").1.toOption = some (.arr 0) ∧
      (nestingRun "loops").2.heap.parts (.array, .arr 0)
        = [(.array, .arr 0)] := by
    decide +kernel
  refine ⟨hRun.1, fun fuel => ?_⟩
  unfold nestingCapture captureValue
  generalize (nestingRun "loops").2 = m at hRun
  rw [get_bind_apply]
  generalize captureDepth fuel m.heap = d
  have hRenders := renders_textless (p := nestingProgram) (by decide)
    (invoke .silent nestingProgram fuel) m.heap (.array, .arr 0)
  induction d with
  | zero => rfl
  | succ d ih =>
    rw [hRenders.snapshot_array .refl d rfl, hRun.2, List.mapM_cons]
    generalize hInner : snapshot .silent nestingProgram _ d
      .array (.arr 0) m = r at ih
    rcases r with ⟨c | t, k⟩
    · rw [bind_error (bind_error hInner)]
      exact ih
    · cases ih

end ExecTrace
