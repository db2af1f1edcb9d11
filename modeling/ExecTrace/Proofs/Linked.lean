import ExecTrace.Machine.Observer
import ExecTrace.Proofs.Scopes
import ExecTrace.Proofs.Simulation

/-
  Linked machines: two machines with the same heap, static
  fields, output and numbers, whose frames and recorders are
  bonded and whose variables correspond layer by layer. Most
  computations take linked machines to linked machines and give
  one result, whatever the bond is; the rules for sequences,
  scopes and frames are stated once for all of them.

  Main declarations:
    * `Heap.Grows`
    * `Bond`, `World` and `Linked`
    * `Yields` and `Agrees`, for expressions
    * `Steers` and `Keeps`, for statements
    * `Keeps.inScope`, `Sim.inFrame`, `Sim.withLocals`
-/

namespace ExecTrace

------------------------------------------------------------
-- Growing Heaps
------------------------------------------------------------

/- No array changes its length, and no field disappears. -/
structure Heap.Grows (h h' : Heap) : Prop where
  sizes : ∀ a, 0 < (h.itemsOf a).size →
    (h'.itemsOf a).size = (h.itemsOf a).size
  fields : ∀ a name,
    (Bindings.get? name (h.fieldsOf a)).isSome = true →
      (Bindings.get? name (h'.fieldsOf a)).isSome = true

namespace Heap

/- A heap grows from itself. -/
theorem Grows.refl (h : Heap) : h.Grows h where
  sizes := fun _ _ => rfl
  fields := fun _ _ hn => hn

/- A heap that grew twice has grown. -/
theorem Grows.trans
    {h h' h'' : Heap}
    (hOne : h.Grows h')
    (hTwo : h'.Grows h'') : h.Grows h'' where
  sizes := fun a ha => by
    have hSize := hOne.sizes a ha
    rw [hTwo.sizes a (by omega), hSize]
  fields := fun a name hn =>
    hTwo.fields a name (hOne.fields a name hn)

/- A heap grows by a new object. -/
theorem grows_addObject
    (h : Heap)
    (o : Object) : h.Grows (h.addObject o).1 where
  sizes := fun _ _ => rfl
  fields := fun a name hn => by
    unfold fieldsOf at hn ⊢
    cases ha : h.objects[a]? with
    | none => simp [ha, Bindings.get?] at hn
    | some old =>
      have hBound := (Array.getElem?_eq_some_iff.mp ha).1
      have hGet : (h.objects.push o)[a]? = some old := by
        rw [Array.getElem?_push_lt hBound, ← ha]
        simp [hBound]
      simpa [addObject, hGet, ha] using hn

/- A heap grows by a new array. -/
theorem grows_addArray
    (h : Heap)
    (c : ArrayCell) : h.Grows (h.addArray c).1 where
  sizes := fun a ha => by
    unfold itemsOf at ha ⊢
    cases hc : h.arrays[a]? with
    | none => simp [hc] at ha
    | some old =>
      have hBound := (Array.getElem?_eq_some_iff.mp hc).1
      have hGet : (h.arrays.push c)[a]? = some old := by
        rw [Array.getElem?_push_lt hBound, ← hc]
        simp [hBound]
      simp [addArray, hGet]
  fields := fun _ _ hn => hn

/- A heap grows when a field is set. -/
theorem grows_setField
    (h : Heap)
    (a : Nat)
    (field : String)
    (v : Val) : h.Grows (h.setField a field v) where
  sizes := fun _ _ => rfl
  fields := fun b name hn => by
    unfold fieldsOf at hn ⊢
    simp only [setField, Array.getElem?_modify]
    cases hb : h.objects[b]? with
    | none => simp [hb, Bindings.get?] at hn
    | some o =>
      rw [hb] at hn
      by_cases hab : a = b
      · simp only [hab, if_true, Option.map_some]
        rw [Bindings.get?_put]
        split
        · rfl
        · exact hn
      · simpa [hab] using hn

/- A heap grows when an item is set. -/
theorem grows_setItem
    (h : Heap)
    (a i : Nat)
    (v : Val) : h.Grows (h.setItem a i v) where
  sizes := fun b _ => by
    unfold itemsOf
    simp only [setItem, Array.getElem?_modify]
    cases h.arrays[b]? with
    | none => simp
    | some c => by_cases hab : a = b <;> simp [hab]
  fields := fun _ _ hn => hn

end Heap

------------------------------------------------------------
-- Linked Machines
------------------------------------------------------------

/-
  A relation between the frames and recorders of two machines.
-/
abbrev Joint :=
  List Frame × Option Recorder →
    List Frame × Option Recorder → Prop

/-
  How the frames and the recorders of two machines belong
  together, inside methods with some result types. What is known
  of them is a ghost: most computations give back the ghost that
  they were given. Less may be known after the end of a method
  was told, once its body is through, and after a fault.
-/
structure Bond where
  Ghost : Type
  rets : Ty → Prop
  holds : Ghost → Joint
  ended : String → Ghost → Joint
  done : Ghost → Joint
  lost : Ghost → Joint
  push : Frame → Ghost → Ghost
  doneOfHolds : ∀ g a b, holds g a b → done g a b
  lostOfHolds : ∀ g a b, holds g a b → lost g a b
  lostOfEnded : ∀ method g a b, ended method g a b → lost g a b
  pushed : ∀ cls method g a b, holds g a b →
    holds (push ⟨cls, method, false⟩ g)
      (⟨cls, method, false⟩ :: a.1, a.2)
      (⟨cls, method, false⟩ :: b.1, b.2)
  popped : ∀ f g a b, done (push f g) a b →
    holds g (a.1.tail, a.2) (b.1.tail, b.2)
  poppedLost : ∀ f g a b, lost (push f g) a b →
    lost g (a.1.tail, a.2) (b.1.tail, b.2)
  length : ∀ g a b, holds g a b → a.1.length = b.1.length

/- What is known after the end of a method was told, or not. -/
def Bond.after
    (B : Bond)
    (g : B.Ghost) : Option String → Joint
  | some method => B.ended method g
  | none => B.holds g

/- Machines that differ in their variables only, up to a bond. -/
structure World
    (J : Joint)
    (since : Heap)
    (m n : Machine) : Prop where
  heap : n.heap = m.heap
  statics : n.statics = m.statics
  nextId : n.nextId = m.nextId
  output : n.output = m.output
  maxDepth : n.maxDepth = m.maxDepth
  joint : J (m.frames, m.recorder) (n.frames, n.recorder)
  grown : since.Grows m.heap

/-
  What is known of the variables of two machines, and the heap
  that both have grown from: the result type of the current
  method, the hidden bindings of the innermost scope, of the
  other scopes of its layer, and of the layers around it, and
  how many scopes lie below all layers.
-/
structure Shape where
  since : Heap
  ret : Ty
  top : Bindings String := []
  outer : Shadow := []
  rest : List Shadow := []
  depth : Nat := 0

namespace Shape

/- The hidden bindings of all layers. -/
def layers (s : Shape) : List Shadow :=
  (s.top :: s.outer) :: s.rest

/- How many scopes the second machine has. -/
def height (s : Shape) : Nat :=
  s.layers.flatten.length + s.depth

/- The value of a hidden variable. -/
def find?
    (s : Shape)
    (x : String) : Option Val :=
  lookup x s.layers.flatten

/- A new scope on both sides. -/
def inner (s : Shape) : Shape :=
  { s with top := [], outer := [], rest := s.layers }

/- A new scope on the second side only. -/
def opened (s : Shape) : Shape :=
  { s with top := [], outer := s.top :: s.outer }

/- A hidden variable of the innermost scope. -/
def hide
    (s : Shape)
    (x : String)
    (v : Val) : Shape :=
  { s with top := s.top.put x v }

end Shape

/- Variables that correspond layer by layer. -/
structure Matched
    (s : Shape)
    (l r : Locals) : Prop where
  self : r.self = l.self
  cls : r.cls = l.cls
  retLeft : l.ret = s.ret
  retRight : r.ret = s.ret
  scopes : Layered s.depth s.layers l.scopes r.scopes

/- Machines with one world and corresponding variables. -/
structure Linked
    (J : Joint)
    (s : Shape)
    (m n : Machine) : Prop where
  world : World J s.since m n
  locals : Matched s m.locals n.locals

/- Linked machines with any innermost hidden bindings. -/
def Loose
    (J : Joint)
    (s : Shape)
    (m n : Machine) : Prop :=
  ∃ top, Linked J { s with top := top } m n

/-
  What is known after a cut: everything if something was thrown,
  less after a fault, and nothing after any other cut.
-/
def Bond.cut
    (B : Bond)
    (g : B.Ghost)
    (L : Joint → Machine → Machine → Prop) : Cut
  | .throw _, m, n => L (B.holds g) m n
  | .fault _, m, n => L (B.lost g) m n
  | _, _, _ => True

/-
  A cut that nobody handles. What is known after it does not
  matter.
-/
def hard : Cut :=
  fun c _ _ => (∀ v, c ≠ .throw v) ∧ ∀ cause, c ≠ .fault cause

/- Nothing is known after a cut that nobody handles. -/
theorem Bond.cut_hard
    {B : Bond}
    {g : B.Ghost}
    {L : Joint → Machine → Machine → Prop}
    {c : Interrupt}
    {m n : Machine}
    (h : hard c m n) : B.cut g L c m n := by
  cases c with
  | throw v => exact absurd rfl (h.1 v)
  | fault cause => exact absurd rfl (h.2 cause)
  | _ => trivial

section Updates

variable {J K : Joint}
variable {s : Shape}
variable {since h : Heap}
variable {m n : Machine}

/- Less may be known of frames and recorders. -/
theorem World.weaken
    (hw : World J since m n)
    (hJ : ∀ a b, J a b → K a b) : World K since m n :=
  ⟨hw.heap, hw.statics, hw.nextId, hw.output, hw.maxDepth,
    hJ _ _ hw.joint, hw.grown⟩

/- The heap grows from what it is. -/
theorem World.here
    (hw : World J since m n) : World J m.heap m n :=
  ⟨hw.heap, hw.statics, hw.nextId, hw.output, hw.maxDepth,
    hw.joint, .refl _⟩

/- The heap has grown from an earlier one. -/
theorem World.earlier
    (hw : World J since m n)
    (hGrows : h.Grows since) : World J h m n :=
  ⟨hw.heap, hw.statics, hw.nextId, hw.output, hw.maxDepth,
    hw.joint, hGrows.trans hw.grown⟩

/- Less may be known of frames and recorders. -/
theorem Linked.weaken
    (hl : Linked J s m n)
    (hJ : ∀ a b, J a b → K a b) : Linked K s m n :=
  ⟨hl.world.weaken hJ, hl.locals⟩

/- Less may be known of frames and recorders. -/
theorem Loose.weaken
    (hl : Loose J s m n)
    (hJ : ∀ a b, J a b → K a b) : Loose K s m n := by
  rcases hl with ⟨top, hl⟩
  exact ⟨top, hl.weaken hJ⟩

/- Linked machines are loosely linked. -/
theorem Linked.loose
    (hl : Linked J s m n) : Loose J s m n :=
  ⟨s.top, hl⟩

/- The variables play no role for the world. -/
theorem World.locals
    (hw : World J since m n)
    (l r : Locals) :
    World J since { m with locals := l }
      { n with locals := r } :=
  ⟨hw.heap, hw.statics, hw.nextId, hw.output, hw.maxDepth,
    hw.joint, hw.grown⟩

/- A heap grows on both sides. -/
theorem World.onHeap
    (hw : World J since m n)
    (hGrows : m.heap.Grows h) :
    World J since { m with heap := h } { n with heap := h } :=
  ⟨rfl, hw.statics, hw.nextId, hw.output, hw.maxDepth,
    hw.joint, hw.grown.trans hGrows⟩

/- A heap grows on both sides. -/
theorem Linked.onHeap
    (hl : Linked J s m n)
    (hGrows : m.heap.Grows h) :
    Linked J s { m with heap := h } { n with heap := h } :=
  ⟨hl.world.onHeap hGrows, hl.locals⟩

/- Other parts of the state get one value on both sides. -/
theorem Linked.onState
    (hl : Linked J s m n)
    (statics : Bindings (String × String))
    (nextId : UInt64)
    (output : String) :
    Linked J s
      { m with
        statics := statics, nextId := nextId, output := output }
      { n with
        statics := statics, nextId := nextId,
        output := output } :=
  ⟨⟨hl.world.heap, rfl, rfl, rfl, hl.world.maxDepth,
      hl.world.joint, hl.world.grown⟩,
    hl.locals⟩

/- The frames and the recorders are changed. -/
theorem Linked.onJoint
    (hl : Linked J s m n)
    {φ ψ : List Frame}
    {r t : Option Recorder}
    (hJ : K (φ, r) (ψ, t)) :
    Linked K s { m with frames := φ, recorder := r }
      { n with frames := ψ, recorder := t } :=
  ⟨⟨hl.world.heap, hl.world.statics, hl.world.nextId,
      hl.world.output, hl.world.maxDepth, hJ, hl.world.grown⟩,
    hl.locals⟩

end Updates

------------------------------------------------------------
-- Computations with One Result
------------------------------------------------------------

/-
  Linked machines are taken to linked machines, with one result
  of which `P` holds.
-/
def Yields
    {α : Type}
    (S : Slack)
    (B : Bond)
    (P : α → Prop)
    (x y : Run α) : Prop :=
  ∀ g s, B.rets s.ret → Sim S (Linked (B.holds g) s)
    (fun a b m n => a = b ∧ P a ∧ Linked (B.holds g) s m n)
    (B.cut g fun J => Linked J s) x y

/- Linked machines are taken to linked machines. -/
abbrev Agrees
    {α : Type}
    (S : Slack)
    (B : Bond)
    (x y : Run α) : Prop :=
  Yields S B (fun _ => True) x y

/-
  Linked machines are taken to linked machines; `ends` says the
  end of which method was told before a result, if it was, and
  `told` what was told before the computation.
-/
def Steers
    {α : Type}
    (S : Slack)
    (B : Bond)
    (told : Option String)
    (ends : α → Option String)
    (x y : Run α) : Prop :=
  ∀ g s, B.rets s.ret → Sim S (Linked (B.after g told) s)
    (fun a b m n => a = b ∧ Linked (B.after g (ends a)) s m n)
    (B.cut g fun J => Linked J s) x y

/-
  Loosely linked machines are taken to such machines: the
  innermost hidden bindings may change. Statements are compared
  in layers of a single scope only, where both sides may declare
  visible variables.
-/
def Keeps
    {α : Type}
    (S : Slack)
    (B : Bond)
    (told : Option String)
    (ends : α → Option String)
    (x y : Run α) : Prop :=
  ∀ g s, B.rets s.ret → s.outer = [] →
    Sim S (Loose (B.after g told) s)
      (fun a b m n => a = b ∧ Loose (B.after g (ends a)) s m n)
      (B.cut g fun J => Loose J s) x y

section Rules

variable {S : Slack}
variable {B : Bond}
variable {α β : Type}
variable {P P' : α → Prop}
variable {Q : β → Prop}
variable {told : Option String}
variable {ends : α → Option String}
variable {ends' : β → Option String}
variable {x y : Run α}
variable {f g : α → Run β}

/- What is known is enough for what is known after a fault. -/
theorem Bond.lostOfAfter
    (g : B.Ghost)
    (a b : List Frame × Option Recorder)
    (h : B.after g told a b) : B.lost g a b := by
  cases told with
  | some method => exact B.lostOfEnded method g a b h
  | none => exact B.lostOfHolds g a b h

namespace Yields

/- More may be known of a result. -/
theorem weaken
    (h : Yields S B P x y)
    (hP : ∀ a, P a → P' a) : Yields S B P' x y :=
  fun g s hs => (h g s hs).weaken (fun _ _ hm => hm)
    (fun _ _ _ _ ⟨hab, ha, hm⟩ => ⟨hab, hP _ ha, hm⟩)
    (fun _ _ _ hm => hm)

/- Nothing needs to be known of a result. -/
theorem agrees
    (h : Yields S B P x y) : Agrees S B x y :=
  h.weaken fun _ _ => trivial

/- A value is returned on both sides. -/
theorem pure
    {a : α}
    (ha : P a) :
    Yields S B P (Pure.pure a) (Pure.pure a) :=
  fun _ _ _ => Sim.pure fun _ _ hm => ⟨rfl, ha, hm⟩

/- Sequences are compared part by part. -/
theorem bind
    (h : Yields S B P x y)
    (hf : ∀ a, P a → Yields S B Q (f a) (g a)) :
    Yields S B Q (x >>= f) (y >>= g) := by
  intro gh s hs
  refine (h gh s hs).bind ?_
  intro a b m n ⟨hab, ha, hm⟩
  subst hab
  exact hf a ha gh s hs m n hm

/- A value that is not null is thrown on both sides. -/
theorem throw
    (v : Val)
    (hv : v ≠ .null) :
    Yields S B P (MonadExcept.throw (Interrupt.throw v))
      (MonadExcept.throw (Interrupt.throw v)) :=
  fun _ _ _ => Sim.throw (.throw v hv) fun _ _ hm => hm

/- One fault is as good as another. -/
theorem fault
    (c d : Fault) :
    Yields S B P (Run.fault c) (Run.fault d) :=
  fun g _ _ => Sim.throw (.fault c d) fun _ _ hm =>
    hm.weaken (B.lostOfHolds g)

/- A look at both machines. -/
theorem look
    {f g : Machine → Run β}
    (h : ∀ J s m n, Linked J s m n → Yields S B Q (f m) (g n)) :
    Yields S B Q ((get : Run Machine) >>= f)
      ((get : Run Machine) >>= g) :=
  fun gh s hs => Sim.look fun m n hm =>
    (h _ s m n hm gh s hs).weaken
      (fun m' n' ⟨hm', hn'⟩ => by rw [hm', hn']; exact hm)
      (fun _ _ _ _ h => h) (fun _ _ _ h => h)

/- Both machines are changed. -/
theorem modify
    {f g : Machine → Machine}
    (h : ∀ J s m n, Linked J s m n → Linked J s (f m) (g n)) :
    Agrees S B (modify f : Run Unit) (modify g : Run Unit) :=
  fun _ s _ m n hm => .ok ⟨rfl, trivial, h _ s m n hm⟩

/- Lists of computations are compared one by one. -/
theorem mapM
    {γ : Type}
    {f g : γ → Run α}
    (cs : List γ)
    (h : ∀ c ∈ cs, Yields S B P (f c) (g c)) :
    Yields S B (fun as => ∀ a ∈ as, P a)
      (cs.mapM f) (cs.mapM g) := by
  induction cs with
  | nil =>
    rw [List.mapM_nil, List.mapM_nil]
    exact pure (by simp)
  | cons c rest ih =>
    rw [List.mapM_cons, List.mapM_cons]
    refine (h c (by simp)).bind fun a ha => ?_
    refine (ih fun c hc => h c (by simp [hc])).bind
      fun as has => ?_
    refine pure ?_
    intro b hb
    rcases List.mem_cons.mp hb with hb | hb
    · exact hb ▸ ha
    · exact has b hb

end Yields

namespace Steers

/- Results after which nothing was told. -/
theorem ofYields
    (h : Yields S B P x y)
    (hEnds : ∀ a, P a → ends a = none) :
    Steers S B none ends x y :=
  fun g s hs => (h g s hs).weaken (fun _ _ hm => hm)
    (fun a b m n ⟨hab, ha, hm⟩ => by
      refine ⟨hab, ?_⟩
      rw [hEnds a ha]
      exact hm)
    (fun _ _ _ hm => hm)

/- If no end is told by any result, there is one result. -/
theorem agrees
    (h : Steers S B none (fun _ => none) x y) :
    Agrees S B x y :=
  fun g s hs => (h g s hs).weaken (fun _ _ hm => hm)
    (fun _ _ _ _ ⟨hab, hm⟩ => ⟨hab, trivial, hm⟩)
    (fun _ _ _ hm => hm)

/- A value is returned on both sides. -/
theorem pure
    {a : α}
    (h : ends a = told) :
    Steers S B told ends (Pure.pure a) (Pure.pure a) :=
  fun _ _ _ => Sim.pure fun _ _ hm => ⟨rfl, h ▸ hm⟩

/- One fault is as good as another. -/
theorem fault
    (c d : Fault) :
    Steers S B told ends (Run.fault c) (Run.fault d) :=
  fun g _ _ => Sim.throw (.fault c d) fun _ _ hm =>
    hm.weaken (B.lostOfAfter g)

/- Sequences are compared part by part. -/
theorem bind
    (h : Steers S B told ends x y)
    (hf : ∀ a, Steers S B (ends a) ends' (f a) (g a)) :
    Steers S B told ends' (x >>= f) (y >>= g) := by
  intro gh s hs
  refine (h gh s hs).bind ?_
  intro a b m n ⟨hab, hm⟩
  subst hab
  exact hf a gh s hs m n hm

/- A computation with one result comes first. -/
theorem after
    (h : Yields S B P x y)
    (hf : ∀ a, P a → Steers S B none ends' (f a) (g a)) :
    Steers S B none ends' (x >>= f) (y >>= g) := by
  intro gh s hs
  refine (h gh s hs).bind ?_
  intro a b m n ⟨hab, ha, hm⟩
  subst hab
  exact hf a ha gh s hs m n hm

/- A look at both machines. -/
theorem look
    {f g : Machine → Run β}
    (h : ∀ J s m n, Linked J s m n →
      Steers S B told ends' (f m) (g n)) :
    Steers S B told ends' ((get : Run Machine) >>= f)
      ((get : Run Machine) >>= g) :=
  fun gh s hs => Sim.look fun m n hm =>
    (h _ s m n hm gh s hs).weaken
      (fun m' n' ⟨hm', hn'⟩ => by rw [hm', hn']; exact hm)
      (fun _ _ _ _ h => h) (fun _ _ _ h => h)

end Steers

namespace Keeps

/- Linked machines in particular are taken to such machines. -/
theorem ofSteers
    (h : Steers S B told ends x y) : Keeps S B told ends x y := by
  intro g s hs _
  refine Sim.ofExists fun top => ?_
  refine (h g { s with top := top } hs).weaken (fun _ _ hm => hm)
    ?_ ?_
  · intro a b m n ⟨hab, hm⟩
    exact ⟨hab, top, hm⟩
  · intro c m n hm
    cases c with
    | throw v => exact ⟨top, hm⟩
    | fault c => exact ⟨top, hm⟩
    | _ => trivial

/- A value is returned on both sides. -/
theorem pure
    {a : α}
    (h : ends a = told) :
    Keeps S B told ends (Pure.pure a) (Pure.pure a) :=
  ofSteers (Steers.pure h)

/- One fault is as good as another. -/
theorem fault
    (c d : Fault) :
    Keeps S B told ends (Run.fault c) (Run.fault d) :=
  ofSteers (Steers.fault c d)

/- Sequences are compared part by part. -/
theorem bind
    (h : Keeps S B told ends x y)
    (hf : ∀ a, Keeps S B (ends a) ends' (f a) (g a)) :
    Keeps S B told ends' (x >>= f) (y >>= g) := by
  intro gh s hs ho
  refine (h gh s hs ho).bind ?_
  intro a b m n ⟨hab, hm⟩
  subst hab
  exact hf a gh s hs ho m n hm

/- An expression in front of statements. -/
theorem after
    (h : Yields S B P x y)
    (hf : ∀ a, P a → Keeps S B none ends' (f a) (g a)) :
    Keeps S B none ends' (x >>= f) (y >>= g) := by
  intro gh s hs ho
  refine Sim.ofExists fun top => ?_
  refine ((h gh { s with top := top } hs).weaken (fun _ _ hm => hm)
    (fun _ _ _ _ hm => hm) ?_).bind ?_
  · intro c m n hm
    cases c with
    | throw v => exact ⟨top, hm⟩
    | fault c => exact ⟨top, hm⟩
    | _ => trivial
  · intro a b m n ⟨hab, ha, hm⟩
    subst hab
    exact hf a ha gh s hs ho m n ⟨top, hm⟩

/- A look at both machines. -/
theorem look
    {f g : Machine → Run β}
    (h : ∀ J s m n, Linked J s m n →
      Keeps S B told ends' (f m) (g n)) :
    Keeps S B told ends' ((get : Run Machine) >>= f)
      ((get : Run Machine) >>= g) :=
  fun gh s hs ho => Sim.look fun m n ⟨top, hm⟩ =>
    (h _ { s with top := top } m n hm gh s hs ho).weaken
      (fun m' n' ⟨hm', hn'⟩ => by
        rw [hm', hn']; exact ⟨top, hm⟩)
      (fun _ _ _ _ h => h) (fun _ _ _ h => h)

end Keeps

end Rules

------------------------------------------------------------
-- Brackets
------------------------------------------------------------

section Brackets

variable {S : Slack}
variable {B : Bond}
variable {J : Joint}
variable {s : Shape}
variable {α β : Type}
variable {told : Option String}
variable {ends : α → Option String}
variable {x y : Run α}
variable {m n : Machine}

/- Scopes without the innermost one. -/
def Machine.leaveScope (m : Machine) : Machine :=
  { m with
    locals := { m.locals with scopes := m.locals.scopes.tail } }

/- Scopes with a new innermost one. -/
def Machine.enterScope (m : Machine) : Machine :=
  { m with
    locals := { m.locals with scopes := [] :: m.locals.scopes } }

/- A scope is left by a run that leaves one scope more. -/
theorem inScope_apply
    {r : Except Interrupt α}
    {m' : Machine}
    (hRun : x m.enterScope = (r, m'))
    (hLength :
      m'.locals.scopes.length = m.locals.scopes.length + 1) :
    inScope x m = (r, m'.leaveScope) := by
  have hInner : x m.enterScope = x
      { m with
        locals :=
          { m.locals with scopes := [] :: m.locals.scopes } } :=
    rfl
  unfold inScope
  simp only
  rw [← hInner, hRun]
  simp [hLength, Machine.leaveScope]

/- A scope does not change how a run ends. -/
theorem inScope_error
    {c : Interrupt}
    {m' : Machine}
    (hRun : x m.enterScope = (.error c, m')) :
    ∃ m'', inScope x m = (.error c, m'') := by
  have hFirst : (inScope x m).1 = (x m.enterScope).1 := rfl
  rw [hRun] at hFirst
  exact ⟨(inScope x m).2, Prod.ext hFirst rfl⟩

/- A scope on both sides. -/
theorem Linked.enter
    (hl : Linked J s m n) :
    Linked J s.inner m.enterScope n.enterScope :=
  ⟨hl.world.locals _ _,
    ⟨hl.locals.self, hl.locals.cls, hl.locals.retLeft,
      hl.locals.retRight, .cons .empty hl.locals.scopes⟩⟩

/- What is known of the scopes around the innermost ones. -/
theorem Layered.leave
    {depth : Nat}
    {b : Bindings String}
    {shadow : Shadow}
    {shadows : List Shadow}
    {ls rs : List (Bindings String)}
    (h : Layered depth ([b] :: shadow :: shadows) ls rs) :
    Layered depth (shadow :: shadows) ls.tail rs.tail := by
  cases h with
  | @cons _ _ _ scope ls' layer rest h hRest =>
    have hShadow := h.shadow
    cases layer with
    | nil => simp at hShadow
    | cons r layer =>
      rw [List.map_cons, List.cons.injEq] at hShadow
      rw [List.map_eq_nil_iff.mp hShadow.2]
      exact hRest

/- A scope is left on both sides. -/
theorem Loose.leave
    (hl : Loose J s.inner m n) :
    Linked J s m.leaveScope n.leaveScope := by
  rcases hl with ⟨top, hl⟩
  exact ⟨hl.world.locals _ _,
    ⟨hl.locals.self, hl.locals.cls, hl.locals.retLeft,
      hl.locals.retRight, hl.locals.scopes.leave⟩⟩

/- How many scopes there are inside one more. -/
theorem Loose.lengths
    {K : Joint}
    (hl : Loose J s.inner m n)
    {m₀ n₀ : Machine}
    (h₀ : Linked K s m₀ n₀) :
    m.locals.scopes.length = m₀.locals.scopes.length + 1 ∧
      n.locals.scopes.length = n₀.locals.scopes.length + 1 := by
  rcases hl with ⟨top, hl⟩
  have hLeft := hl.locals.scopes.length_left
  have hRight := hl.locals.scopes.length_right
  have hLeft₀ := h₀.locals.scopes.length_left
  have hRight₀ := h₀.locals.scopes.length_right
  simp only [Shape.layers, Shape.inner, List.flatten_cons,
    List.length_cons, List.length_append, List.length_nil]
    at hLeft hRight hLeft₀ hRight₀
  omega

/- Statements in a scope of their own. -/
theorem Keeps.inScope
    (h : Keeps S B told ends x y) :
    Steers S B told ends (inScope x) (inScope y) := by
  intro g s hs m n hm
  have hBody :=
    h g s.inner hs rfl m.enterScope n.enterScope hm.enter.loose
  -- Each comparable pair of ends leaves one scope on each side.
  generalize hx : x m.enterScope = r at hBody
  generalize hy : y n.enterScope = t at hBody
  cases hBody with
  | ok hPost =>
    have hLengths := hPost.2.lengths hm
    rw [inScope_apply hx hLengths.1, inScope_apply hy hLengths.2]
    exact .ok ⟨hPost.1, Loose.leave hPost.2⟩
  | alike hAlike hCut =>
    cases hAlike with
    | throw v hv =>
      have hLengths := Loose.lengths hCut hm
      rw [inScope_apply hx hLengths.1,
        inScope_apply hy hLengths.2]
      exact .alike (.throw v hv) (Loose.leave hCut)
    | fault c d =>
      have hLengths := Loose.lengths hCut hm
      rw [inScope_apply hx hLengths.1,
        inScope_apply hy hLengths.2]
      exact .alike (.fault c d) (Loose.leave hCut)
    | panic text hText =>
      rcases inScope_error hx with ⟨_, hx'⟩
      rcases inScope_error hy with ⟨_, hy'⟩
      rw [hx', hy']
      exact .alike (.panic text hText) trivial
    | outOfFuel =>
      rcases inScope_error hx with ⟨_, hx'⟩
      rcases inScope_error hy with ⟨_, hy'⟩
      rw [hx', hy']
      exact .alike .outOfFuel trivial
    | stopped why hWhy =>
      rcases inScope_error hx with ⟨_, hx'⟩
      rcases inScope_error hy with ⟨_, hy'⟩
      rw [hx', hy']
      exact .alike (.stopped why hWhy) trivial
    | answered why text hWhy =>
      rcases inScope_error hx with ⟨_, hx'⟩
      rcases inScope_error hy with ⟨_, hy'⟩
      rw [hx', hy']
      exact .alike (.answered why text hWhy) trivial
  | first hFirst =>
    rcases inScope_error hx with ⟨_, hx'⟩
    rw [hx']
    exact .first hFirst
  | second hSecond =>
    rcases inScope_error hy with ⟨_, hy'⟩
    rw [hy']
    exact .second hSecond

/- What is known of a computation in a frame after a cut. -/
def Bond.bodyCut
    (B : Bond)
    (g : B.Ghost)
    (L : Joint → Machine → Machine → Prop) : Cut
  | .throw _, m, n => L (B.done g) m n
  | .fault _, m, n => L (B.lost g) m n
  | _, _, _ => True

/- What is known in a frame of a body that is through, or not. -/
def Bond.inside
    (B : Bond)
    (g : B.Ghost) : Bool → Joint
  | true => B.done g
  | false => B.lost g

/- What is known behind a frame of a body that was through. -/
def Bond.behind
    (B : Bond)
    (g : B.Ghost) : Bool → Joint
  | true => B.holds g
  | false => B.lost g

/- A computation in a frame; `through` tells good results. -/
theorem Sim.inFrame
    (through : α → Bool)
    {g : B.Ghost}
    {cls method : String}
    (h : Sim S
      (Linked (B.holds (B.push ⟨cls, method, false⟩ g)) s)
      (fun a b m n => a = b ∧ Linked
        (B.inside (B.push ⟨cls, method, false⟩ g) (through a))
        s m n)
      (B.bodyCut (B.push ⟨cls, method, false⟩ g)
        fun J => Linked J s) x y) :
    Sim S (Linked (B.holds g) s)
      (fun a b m n => a = b ∧
        Linked (B.behind g (through a)) s m n)
      (B.cut g fun J => Linked J s)
      (inFrame ⟨cls, method, false⟩ x)
      (inFrame ⟨cls, method, false⟩ y) := by
  intro m n hm
  have hBody := h _ _
    (hm.onJoint (B.pushed cls method g _ _ hm.world.joint))
  have hPop : ∀ {m n : Machine},
      Linked (B.done (B.push ⟨cls, method, false⟩ g)) s m n →
      Linked (B.holds g) s { m with frames := m.frames.tail }
        { n with frames := n.frames.tail } :=
    fun hl => hl.onJoint (B.popped _ g _ _ hl.world.joint)
  have hPopLost : ∀ {m n : Machine},
      Linked (B.lost (B.push ⟨cls, method, false⟩ g)) s m n →
      Linked (B.lost g) s { m with frames := m.frames.tail }
        { n with frames := n.frames.tail } :=
    fun hl => hl.onJoint (B.poppedLost _ g _ _ hl.world.joint)
  unfold ExecTrace.inFrame
  generalize x { m with
    frames := ⟨cls, method, false⟩ :: m.frames } = r at hBody
  generalize y { n with
    frames := ⟨cls, method, false⟩ :: n.frames } = t at hBody
  cases hBody with
  | @ok a b m' n' hPost =>
    refine .ok ⟨hPost.1, ?_⟩
    have hLinked := hPost.2
    generalize through a = good at hLinked
    cases good with
    | true => exact hPop hLinked
    | false => exact hPopLost hLinked
  | alike hAlike hCut =>
    cases hAlike with
    | throw v hv => exact .alike (.throw v hv) (hPop hCut)
    | fault c d => exact .alike (.fault c d) (hPopLost hCut)
    | panic text hText =>
      exact .alike (.panic text hText) trivial
    | outOfFuel => exact .alike .outOfFuel trivial
    | stopped why hWhy =>
      exact .alike (.stopped why hWhy) trivial
    | answered why text hWhy =>
      exact .alike (.answered why text hWhy) trivial
  | @first c m' _ hFirst => cases c <;> exact .first hFirst
  | @second d n' _ hSecond =>
    cases d with
    | panic text => exact .second hSecond
    | throw v => exact .second hSecond
    | fault c => exact .second hSecond
    | outOfFuel => exact .second hSecond
    | stopped why => exact .second hSecond

/- A computation in a frame that tells no end. -/
theorem Agrees.inFrame
    (h : Agrees S B x y)
    (cls method : String) :
    Agrees S B (inFrame ⟨cls, method, false⟩ x)
      (inFrame ⟨cls, method, false⟩ y) := by
  intro g s hs
  have hFrame := Sim.inFrame (fun _ => true)
    ((h (B.push ⟨cls, method, false⟩ g) s hs).weaken (fun _ _ hm => hm) ?_ ?_)
  · exact hFrame.weaken (fun _ _ hm => hm)
      (fun _ _ _ _ ⟨hab, hm⟩ => ⟨hab, trivial, hm⟩)
      (fun _ _ _ hm => hm)
  · intro a b m n ⟨hab, ha, hm⟩
    exact ⟨hab, hm.weaken (B.doneOfHolds _)⟩
  · intro c m n hm
    cases c with
    | throw v => exact Linked.weaken hm (B.doneOfHolds _)
    | fault c => exact hm
    | _ => trivial

/- A computation with other variables. -/
theorem Sim.withLocals
    {J : Joint}
    {K : α → Joint}
    {g : B.Ghost}
    {l r : Locals}
    (shape : Shape)
    (hSince : shape.since = s.since)
    (hl : Matched shape l r)
    (h : Sim S (Linked J shape)
      (fun a b m n => a = b ∧ World (K a) s.since m n)
      (B.bodyCut g fun J => World J s.since) x y) :
    Sim S (Linked J s)
      (fun a b m n => a = b ∧ Linked (K a) s m n)
      (B.bodyCut g fun J => Linked J s)
      (withLocals l x) (withLocals r y) := by
  intro m n hm
  have hStart : Linked J shape
      { m with locals := l } { n with locals := r } := by
    refine ⟨?_, hl⟩
    rw [hSince]
    exact hm.world.locals l r
  have hBody := h _ _ hStart
  unfold ExecTrace.withLocals
  generalize x { m with locals := l } = e at hBody
  generalize y { n with locals := r } = t at hBody
  cases hBody with
  | ok hPost =>
    exact .ok ⟨hPost.1, ⟨hPost.2.locals _ _, hm.locals⟩⟩
  | @alike c d m' n' hAlike hCut =>
    refine .alike hAlike ?_
    cases c with
    | throw v => exact ⟨World.locals hCut _ _, hm.locals⟩
    | fault c => exact ⟨World.locals hCut _ _, hm.locals⟩
    | _ => trivial
  | first hFirst => exact .first hFirst
  | second hSecond => exact .second hSecond

end Brackets

end ExecTrace
