import ExecTrace.Machine.State

/-
  Heaps only grow. An object keeps its number and its class, and
  an array its number and the type of its items, whatever a run
  does to a heap; so whoever has a number keeps it. A mild step
  of a machine does no more than grow its heap and change what
  no frame, no variable and no recorder depends on.

  Main declarations:
    * `Heap.Extends`
    * `Heap.Extends.identity` and `Heap.Extends.className`
    * `Machine.Mild`
-/

namespace ExecTrace

open Run

------------------------------------------------------------
-- Larger Heaps
------------------------------------------------------------

/-
  A heap with the objects and the arrays of another one, where
  the contents of both may differ.
-/
structure Heap.Extends (h h' : Heap) : Prop where
  objects : ∀ (a : Nat) (o : Object), h.objects[a]? = some o →
    ∃ o', h'.objects[a]? = some o' ∧ o'.id = o.id ∧ o'.cls = o.cls
  arrays : ∀ (a : Nat) (c : ArrayCell), h.arrays[a]? = some c →
    ∃ c', h'.arrays[a]? = some c' ∧ c'.id = c.id ∧
      c'.element = c.element

namespace Heap

variable {h h' h'' : Heap}
variable {v : Val}

namespace Extends

/- Every heap extends itself. -/
theorem refl : h.Extends h where
  objects := fun _ o ho => ⟨o, ho, rfl, rfl⟩
  arrays := fun _ c hc => ⟨c, hc, rfl, rfl⟩

/- Heaps grow step by step. -/
theorem trans
    (h₁ : h.Extends h')
    (h₂ : h'.Extends h'') : h.Extends h'' where
  objects := fun a o ho => by
    rcases h₁.objects a o ho with ⟨o', ho', hId, hCls⟩
    rcases h₂.objects a o' ho' with ⟨o'', ho'', hId', hCls'⟩
    exact ⟨o'', ho'', hId'.trans hId, hCls'.trans hCls⟩
  arrays := fun a c hc => by
    rcases h₁.arrays a c hc with ⟨c', hc', hId, hElement⟩
    rcases h₂.arrays a c' hc' with ⟨c'', hc'', hId', hElement'⟩
    exact ⟨c'', hc'', hId'.trans hId, hElement'.trans hElement⟩

/- An object is put on a heap. -/
theorem addObject
    (o : Object) : h.Extends (h.addObject o).1 where
  objects := fun a o' ho => by
    refine ⟨o', ?_, rfl, rfl⟩
    have hBound := (Array.getElem?_eq_some_iff.mp ho).1
    simp only [Heap.addObject, Array.getElem?_push]
    rw [if_neg (Nat.ne_of_lt hBound), ho]
  arrays := fun _ c hc => ⟨c, hc, rfl, rfl⟩

/- An array is put on a heap. -/
theorem addArray
    (c : ArrayCell) : h.Extends (h.addArray c).1 where
  objects := fun _ o ho => ⟨o, ho, rfl, rfl⟩
  arrays := fun a c' hc => by
    refine ⟨c', ?_, rfl, rfl⟩
    have hBound := (Array.getElem?_eq_some_iff.mp hc).1
    simp only [Heap.addArray, Array.getElem?_push]
    rw [if_neg (Nat.ne_of_lt hBound), hc]

/- A field of an object is set. -/
theorem setField
    (a : Nat)
    (field : String)
    (v : Val) : h.Extends (h.setField a field v) where
  objects := fun b o ho => by
    simp only [Heap.setField, Array.getElem?_modify, ho]
    split
    · exact ⟨_, rfl, rfl, rfl⟩
    · exact ⟨o, rfl, rfl, rfl⟩
  arrays := fun _ c hc => ⟨c, hc, rfl, rfl⟩

/- An item of an array is set. -/
theorem setItem
    (a i : Nat)
    (v : Val) : h.Extends (h.setItem a i v) where
  objects := fun _ o ho => ⟨o, ho, rfl, rfl⟩
  arrays := fun b c hc => by
    simp only [Heap.setItem, Array.getElem?_modify, hc]
    split
    · exact ⟨_, rfl, rfl, rfl⟩
    · exact ⟨c, rfl, rfl, rfl⟩

/- Whoever has a number keeps it, and keeps its class. -/
theorem identity
    (hGrown : h.Extends h')
    (hv : h.identity v ≠ 0) :
    h'.identity v = h.identity v ∧
      h'.className v = h.className v := by
  cases v with
  | obj a =>
    cases ho : h.objects[a]? with
    | none => simp [Heap.identity, ho] at hv
    | some o =>
      rcases hGrown.objects a o ho with ⟨o', ho', hId, hCls⟩
      simp [Heap.identity, Heap.className, classOf, ho, ho', hId,
        hCls]
  | arr a =>
    cases hc : h.arrays[a]? with
    | none => simp [Heap.identity, hc] at hv
    | some c =>
      rcases hGrown.arrays a c hc with ⟨c', hc', hId, hElement⟩
      simp [Heap.identity, Heap.className, elementOf, hc, hc', hId,
        hElement]
  | _ => exact absurd rfl hv

end Extends

end Heap

------------------------------------------------------------
-- Mild Steps
------------------------------------------------------------

/-
  A step of a machine that leaves the local variables, the frames
  and the recorder alone, and takes nothing off the heap.
-/
structure Machine.Mild
    {β : Type}
    (f : Machine → β × Machine) : Prop where
  locals : ∀ m, (f m).2.locals = m.locals
  frames : ∀ m, (f m).2.frames = m.frames
  recorder : ∀ m, (f m).2.recorder = m.recorder
  heap : ∀ m : Machine, m.heap.Extends (f m).2.heap

namespace Machine

variable {β : Type}

/- A step that does not change the heap either. -/
theorem Mild.ofHeap
    {f : Machine → β × Machine}
    (hLocals : ∀ m, (f m).2.locals = m.locals)
    (hFrames : ∀ m, (f m).2.frames = m.frames)
    (hRecorder : ∀ m, (f m).2.recorder = m.recorder)
    (hHeap : ∀ m, (f m).2.heap = m.heap) : Mild f :=
  ⟨hLocals, hFrames, hRecorder, fun m => hHeap m ▸ .refl⟩

end Machine

end ExecTrace
