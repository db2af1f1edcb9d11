import Mathlib.Data.List.Nodup
import ExecTrace.Proofs.Replaying

/-
  Rebuilding. A sequence of events is read into a forest: every
  event is pushed below the event that it names, and siblings
  are put into the order of their numbers. What is read back has
  no broken properties exactly if the events, in the order of
  their numbers, open and close frames like brackets, and stand
  in this order in the forest.

  Main declarations:
    * `Forest.Built` and `Forest.built_of_ofEvents`
    * `Grove.sorted` and `Forest.Shows.ordered`
    * `Forest.validate_eq_nil_iff_replay`
-/

namespace ExecTrace

------------------------------------------------------------
-- Sorting by Numbers
------------------------------------------------------------

section Sorting

variable {α : Type}
variable {key : α → UInt64}

/- Sorted by its keys, a list is in their order. -/
theorem pairwise_sortByKey
    (as : List α) :
    (as.mergeSort fun a b => decide (key a ≤ key b)).Pairwise
      fun a b => key a ≤ key b := by
  have hTrans : ∀ a b c : α, decide (key a ≤ key b) = true →
      decide (key b ≤ key c) = true →
        decide (key a ≤ key c) = true := by
    intro a b c hab hbc
    simp only [decide_eq_true_eq] at hab hbc ⊢
    exact UInt64.le_trans hab hbc
  have hTotal : ∀ a b : α,
      (decide (key a ≤ key b) || decide (key b ≤ key a)) = true := by
    intro a b
    simp only [Bool.or_eq_true, decide_eq_true_eq]
    exact UInt64.le_total _ _
  have hSorted := List.pairwise_mergeSort hTrans hTotal as
  exact hSorted.imp fun h => of_decide_eq_true h

/- The same entries in order are what sorting makes of a list. -/
theorem sortByKey_eq
    {as bs : List α}
    (hPerm : as.Perm bs)
    (hSorted : bs.Pairwise fun a b => key a ≤ key b)
    (hKeys : ∀ a ∈ as, ∀ b ∈ as, key a = key b → a = b) :
    (as.mergeSort fun a b => decide (key a ≤ key b)) = bs := by
  have hSame := List.mergeSort_perm as
    fun a b => decide (key a ≤ key b)
  refine List.Perm.eq_of_pairwise ?_ (pairwise_sortByKey as)
    hSorted (hSame.trans hPerm)
  intro a b ha hb hab hba
  exact hKeys a (hSame.mem_iff.mp ha) b (hPerm.mem_iff.mpr hb)
    (UInt64.le_antisymm hab hba)

end Sorting

/- Events in the order of their numbers. -/
def byId (es : List Event) : List Event :=
  es.mergeSort fun a b => decide (a.id.number ≤ b.id.number)

------------------------------------------------------------
-- Sorted Groves
------------------------------------------------------------

namespace Grove

/- Put an event in front of the first one with a greater number. -/
@[grind] def place
    (i : Nat)
    (e : Event)
    (below : Grove) : Grove → Grove
  | empty => event i e below empty
  | event j d inner rest =>
    if e.id.number ≤ d.id.number then
      event i e below (event j d inner rest)
    else event j d inner (place i e below rest)

/- Put all siblings into the order of their numbers. -/
@[grind] def sorted : Grove → Grove
  | empty => empty
  | event i e below rest => place i e below.sorted rest.sorted

variable {f : Forest}
variable {g below : Grove}
variable {i : Nat}
variable {e : Event}
variable {parent : Option EventId}

/- Placing an event adds its positions. -/
theorem positions_place :
    (place i e below g).positions.Perm
      (i :: (below.positions ++ g.positions)) := by
  induction g with
  | empty => exact .refl _
  | event j d inner rest _ ih =>
    unfold place
    split
    · exact .refl _
    · simp only [positions]
      refine (List.Perm.cons j (ih.append_left inner.positions)).trans
        ?_
      refine List.perm_iff_count.mpr fun x => ?_
      simp only [List.count_cons, List.count_append]
      omega

/- Sorting keeps all positions. -/
theorem positions_sorted (g : Grove) :
    g.sorted.positions.Perm g.positions := by
  induction g with
  | empty => exact .refl _
  | event i e below rest ihBelow ihRest =>
    refine positions_place.trans ?_
    exact (ihBelow.append ihRest).cons i

/- Placing an event adds one topmost position. -/
theorem tops_place :
    (place i e below g).tops.Perm (i :: g.tops) := by
  induction g with
  | empty => exact .refl _
  | event j d inner rest _ ih =>
    unfold place
    split
    · exact .refl _
    · exact (ih.cons j).trans (List.Perm.swap i j rest.tops)

/- Sorting keeps the topmost positions. -/
theorem tops_sorted (g : Grove) : g.sorted.tops.Perm g.tops := by
  induction g with
  | empty => exact .refl _
  | event i e below rest _ ih => exact tops_place.trans (ih.cons i)

/- A placed event is shown among the others. -/
theorem ShownIn.place
    (hNode : f.nodes[i]? = some e)
    (hChildren : f.childrenAt i = below.tops)
    (hBelow : below.ShownIn f)
    (h : g.ShownIn f) : (Grove.place i e below g).ShownIn f := by
  induction g with
  | empty => exact ⟨hNode, hChildren, hBelow, trivial⟩
  | event j d inner rest _ ih =>
    unfold Grove.place
    split
    · exact ⟨hNode, hChildren, hBelow, h⟩
    · rcases h with ⟨hNode', hChildren', hInner, hRest⟩
      exact ⟨hNode', hChildren', hInner, ih hRest⟩

/- A placed event names the event around. -/
theorem Linked.place
    (hParent : e.parent = parent)
    (hBelow : below.Linked (some e.id))
    (h : g.Linked parent) : (Grove.place i e below g).Linked parent := by
  induction g with
  | empty => exact ⟨hParent, hBelow, trivial⟩
  | event j d inner rest _ ih =>
    unfold Grove.place
    split
    · exact ⟨hParent, hBelow, h⟩
    · rcases h with ⟨hParent', hInner, hRest⟩
      exact ⟨hParent', hInner, ih hRest⟩

/- Sorting keeps the events around. -/
theorem Linked.sorted
    (h : g.Linked parent) : g.sorted.Linked parent := by
  induction g generalizing parent with
  | empty => trivial
  | event i e below rest ihBelow ihRest =>
    rcases h with ⟨hParent, hBelow, hRest⟩
    exact .place hParent (ihBelow hBelow) (ihRest hRest)

/- The numbers of topmost events are those at their positions. -/
theorem ShownIn.idAt_tops
    (h : g.ShownIn f) :
    g.tops.map f.idAt = g.topEvents.map Event.id := by
  induction g with
  | empty => rfl
  | event i e below rest _ ih =>
    rcases h with ⟨hNode, _, _, hRest⟩
    simp only [tops, topEvents, List.map_cons, ih hRest,
      Forest.idAt, hNode]

/- The topmost events after one was placed. -/
theorem mem_topEvents_place
    {c : Event} :
    c ∈ (place i e below g).topEvents ↔
      c = e ∨ c ∈ g.topEvents := by
  induction g with
  | empty => simp [place, topEvents]
  | event j d inner rest _ ih =>
    unfold place
    split
    · simp only [topEvents, List.mem_cons]
    · simp only [topEvents, List.mem_cons, ih]
      exact or_left_comm

/- Topmost events that are in order remain in order. -/
theorem pairwise_place
    (h : g.topEvents.Pairwise fun a b =>
      a.id.number ≤ b.id.number) :
    (place i e below g).topEvents.Pairwise fun a b =>
      a.id.number ≤ b.id.number := by
  induction g with
  | empty => exact List.pairwise_singleton _ _
  | event j d inner rest _ ih =>
    rcases List.pairwise_cons.mp h with ⟨hFirst, hRest⟩
    unfold place
    split
    · rename_i hLess
      refine List.pairwise_cons.mpr ⟨fun c hc => ?_, h⟩
      rcases List.mem_cons.mp hc with rfl | hc
      · exact hLess
      · exact UInt64.le_trans hLess (hFirst c hc)
    · rename_i hNot
      have hLess : d.id.number ≤ e.id.number :=
        UInt64.le_of_lt (UInt64.not_le.mp hNot)
      refine List.pairwise_cons.mpr ⟨fun c hc => ?_, ih hRest⟩
      rcases mem_topEvents_place.mp hc with rfl | hc
      · exact hLess
      · exact hFirst c hc

/- The topmost events of a sorted grove are in order. -/
theorem pairwise_sorted (g : Grove) :
    g.sorted.topEvents.Pairwise fun a b =>
      a.id.number ≤ b.id.number := by
  induction g with
  | empty => exact .nil
  | event i e below rest _ ih => exact pairwise_place ih

end Grove

------------------------------------------------------------
-- Sorted Forests
------------------------------------------------------------

namespace Forest

/- A forest with siblings in the order of their numbers. -/
def ordered (f : Forest) : Forest where
  nodes := f.nodes
  children := f.children.map f.sortById
  roots := f.sortById f.roots

/- No two events have the same number. -/
def Distinct (f : Forest) : Prop :=
  (f.nodes.toList.map Event.id).Nodup

variable {f : Forest}
variable {g : Grove}

/- Events are read by pushing them all, and sorting siblings. -/
theorem ofEvents_eq
    (es : List Event) :
    ofEvents? es = (pushAll empty ∅ es).map ordered := by
  unfold ofEvents?
  cases pushAll empty ∅ es <;> rfl

/- A number stands at one position at most. -/
theorem Distinct.position_eq
    (h : f.Distinct)
    {i j : Nat}
    (hi : i < f.size)
    (hj : j < f.size)
    (hSame : (f.idAt i).number = (f.idAt j).number) : i = j := by
  have hIdAt : ∀ k, k < f.size →
      (f.nodes.toList.map Event.id)[k]? = some (f.idAt k) := by
    intro k hk
    have hNode : f.nodes[k]? = some f.nodes[k] :=
      Array.getElem?_eq_getElem hk
    simp only [idAt, List.getElem?_map, Array.getElem?_toList,
      hNode, Option.map_some]
  have hIds : f.idAt i = f.idAt j :=
    congrArg EventId.mk hSame
  have hBound : i < (f.nodes.toList.map Event.id).length := by
    rw [List.length_map, Array.length_toList]
    exact hi
  refine (List.getElem?_inj hBound h).mp ?_
  rw [hIdAt i hi, hIdAt j hj, hIds]

/- Children are sorted, too. -/
theorem childrenAt_ordered
    (f : Forest)
    (i : Nat) :
    f.ordered.childrenAt i
      = (f.childrenAt i).mergeSort fun i j =>
          decide ((f.idAt i).number ≤ (f.idAt j).number) := by
  unfold childrenAt ordered
  simp only [Array.getElem?_map]
  cases f.children[i]? with
  | none => simp
  | some cs => simp [sortById]

end Forest

namespace Grove

variable {f : Forest}
variable {g : Grove}

/- A position that is shown is one of the forest. -/
theorem ShownIn.lt_size
    (h : g.ShownIn f)
    {i : Nat}
    (hi : i ∈ g.positions) : i < f.size := by
  rcases h.mem_events hi with ⟨e, _, hNode⟩
  exact (Array.getElem?_eq_some_iff.mp hNode).1

/- Sorting positions is sorting the grove. -/
theorem ShownIn.sort_tops
    (h : g.ShownIn f)
    (hShown : g.sorted.ShownIn f.ordered)
    (hDistinct : f.Distinct) :
    (g.tops.mergeSort fun i j =>
        decide ((f.idAt i).number ≤ (f.idAt j).number))
      = g.sorted.tops := by
  have hSorted : g.sorted.tops.Pairwise fun i j =>
      (f.idAt i).number ≤ (f.idAt j).number := by
    have hOrder : (g.sorted.topEvents.map Event.id).Pairwise
        fun a b => a.number ≤ b.number :=
      List.pairwise_map.mpr (pairwise_sorted g)
    rw [← hShown.idAt_tops, List.pairwise_map] at hOrder
    exact hOrder
  refine sortByKey_eq (tops_sorted g).symm hSorted ?_
  intro i hi j hj hSame
  exact hDistinct.position_eq (h.lt_size (g.tops_sublist.subset hi))
    (h.lt_size (g.tops_sublist.subset hj)) hSame

/- A sorted forest shows the sorted grove. -/
theorem ShownIn.sorted
    (h : g.ShownIn f)
    (hDistinct : f.Distinct) : g.sorted.ShownIn f.ordered := by
  induction g with
  | empty => trivial
  | event i e below rest ihBelow ihRest =>
    rcases h with ⟨hNode, hChildren, hBelow, hRest⟩
    have hInner := ihBelow hBelow
    refine .place hNode ?_ hInner (ihRest hRest)
    rw [Forest.childrenAt_ordered, hChildren]
    exact hBelow.sort_tops hInner hDistinct

end Grove

/- A sorted forest shows the sorted grove with all its events. -/
theorem Forest.Shows.ordered
    {f : Forest}
    {g : Grove}
    (h : f.Shows g)
    (hDistinct : f.Distinct) : f.ordered.Shows g.sorted where
  sized := by
    unfold Forest.ordered
    rw [Array.size_map]
    exact h.sized
  roots := by
    have hSort := h.shown.sort_tops (h.shown.sorted hDistinct)
      hDistinct
    rw [← hSort, ← h.roots]
    rfl
  shown := h.shown.sorted hDistinct
  all := g.positions_sorted.trans h.all

------------------------------------------------------------
-- Pushing Events One by One
------------------------------------------------------------

namespace Forest

/-
  What pushing events one by one leads to: a forest, and the
  positions of its events.
-/
inductive Built : List Event → Forest → Positions → Prop where
  | nil : Built [] empty ∅
  | snoc
      {es : List Event}
      {f : Forest}
      {positions : Positions}
      {parent : Option Nat}
      {e : Event}
      (hBuilt : Built es f positions)
      (hParent : (e.parent.map fun p => positions[p]?)
        = parent.map some)
      (hNew : e.id ∉ positions) :
      Built (es ++ [e]) (f.push parent e)
        (positions.insert e.id f.size)

variable {es : List Event}
variable {f f' : Forest}
variable {positions : Positions}
variable {e : Event}
variable {more : List Event}

/- The first event is pushed below the one that it names. -/
theorem pushAll_cons
    {parent : Option Nat}
    (hParent : (e.parent.map fun p => positions[p]?)
      = parent.map some)
    (hNew : e.id ∉ positions) :
    f.pushAll positions (e :: more)
      = (f.push parent e).pushAll (positions.insert e.id f.size)
          more := by
  have hNew' : positions.contains e.id = false := by
    simpa using hNew
  rw [pushAll]
  cases hNamed : e.parent with
  | none =>
    rw [hNamed] at hParent
    cases parent with
    | none => simp only [hNew', Bool.false_eq_true, if_false]
    | some i => cases hParent
  | some p =>
    rw [hNamed] at hParent
    cases parent with
    | none => cases hParent
    | some i =>
      have hFound : positions[p]? = some i :=
        Option.some.inj hParent
      simp only [hFound, hNew', Bool.false_eq_true, if_false]

/- Events that were pushed name known events, and are new. -/
theorem pushAll_cons_ok
    (h : f.pushAll positions (e :: more) = .ok f') :
    ∃ parent : Option Nat,
      (e.parent.map fun p => positions[p]?) = parent.map some ∧
        e.id ∉ positions := by
  have hNew : ∀ {parent : Option Nat},
      (if positions.contains e.id then
          .error (.duplicate e.id)
        else
          (f.push parent e).pushAll
            (positions.insert e.id f.size) more) = Except.ok f' →
        e.id ∉ positions := by
    intro parent hPushed hMem
    rw [if_pos (Std.HashMap.mem_iff_contains.mp hMem)] at hPushed
    cases hPushed
  rw [pushAll] at h
  cases hNamed : e.parent with
  | none =>
    simp only [hNamed] at h
    exact ⟨none, rfl, hNew h⟩
  | some p =>
    simp only [hNamed] at h
    cases hFound : positions[p]? with
    | none =>
      simp only [hFound] at h
      cases h
    | some i =>
      simp only [hFound] at h
      exact ⟨some i, congrArg some hFound, hNew h⟩

namespace Built

/- The events that are still to be pushed. -/
theorem pushAll_eq
    (h : Built es f positions)
    (more : List Event) :
    pushAll empty ∅ (es ++ more) = pushAll f positions more := by
  induction h generalizing more with
  | nil => rfl
  | snoc _ hParent hNew ih =>
    rw [List.append_assoc, ih]
    exact pushAll_cons hParent hNew

/- What is pushed in the end is built from the events. -/
theorem of_pushAll
    (h : Built es f positions)
    (hAll : f.pushAll positions more = .ok f') :
    ∃ positions', Built (es ++ more) f' positions' := by
  induction more generalizing es f positions with
  | nil =>
    cases hAll
    rw [List.append_nil]
    exact ⟨positions, h⟩
  | cons e more ih =>
    rcases pushAll_cons_ok hAll with ⟨parent, hParent, hNew⟩
    rw [pushAll_cons hParent hNew] at hAll
    have hMore := ih (h.snoc hParent hNew) hAll
    rwa [List.append_assoc] at hMore

/- The events are those that were pushed. -/
theorem nodes_eq
    (h : Built es f positions) : f.nodes.toList = es := by
  induction h with
  | nil => rfl
  | snoc _ _ _ ih => rw [push_nodes, Array.toList_push, ih]

/- Positions are where events stand. -/
theorem indexed
    (h : Built es f positions)
    {id : EventId}
    {i : Nat} :
    positions[id]? = some i ↔
      ∃ e, f.nodes[i]? = some e ∧ e.id = id := by
  induction h generalizing i with
  | nil => simp [empty]
  | @snoc es f positions parent e hBuilt hParent hNew ih =>
    have hSize : f.nodes.size = f.size := rfl
    rw [push_nodes, Std.HashMap.getElem?_insert,
      Array.getElem?_push, hSize]
    by_cases hHere : i = f.size
    · have hNone : f.nodes[f.size]? = none :=
        Array.getElem?_eq_none (Nat.le_refl _)
      have hNoOld : positions[id]? ≠ some f.size := by
        intro hOld
        rcases ih.mp hOld with ⟨d, hNode, _⟩
        rw [hNone] at hNode
        cases hNode
      subst hHere
      by_cases hSame : e.id = id
      · simp [hSame]
      · simp [hSame, hNoOld]
    · by_cases hSame : e.id = id
      · subst hSame
        have hNoOld : ¬∃ d, f.nodes[i]? = some d ∧ d.id = e.id := by
          intro hOld
          refine hNew (Std.HashMap.mem_iff_isSome_getElem?.mpr ?_)
          rw [ih.mpr hOld]
          rfl
        simp only [beq_self_eq_true, if_true, if_neg hHere]
        constructor
        · intro hEq
          exact absurd (Option.some.inj hEq).symm hHere
        · intro hOld
          exact absurd hOld hNoOld
      · simp only [beq_iff_eq, if_neg hSame, if_neg hHere]
        exact ih

/- The position of a parent is the one where its event stands. -/
theorem parent_found
    (h : Built es f positions)
    {parent : Option Nat}
    (hParent : (e.parent.map fun p => positions[p]?)
      = parent.map some)
    {i : Nat}
    (hi : parent = some i) :
    ∃ d, f.nodes[i]? = some d ∧ e.parent = some d.id := by
  subst hi
  cases hNamed : e.parent with
  | none =>
    rw [hNamed] at hParent
    cases hParent
  | some p =>
    rw [hNamed] at hParent
    rcases h.indexed.mp (Option.some.inj hParent) with
      ⟨d, hNode, rfl⟩
    exact ⟨d, hNode, rfl⟩

/- No number is given twice. -/
theorem distinct
    (h : Built es f positions) : f.Distinct := by
  induction h with
  | nil => exact List.nodup_nil
  | @snoc es f positions parent e hBuilt hParent hNew ih =>
    unfold Distinct
    rw [push_nodes, Array.toList_push, List.map_append,
      List.nodup_append]
    refine ⟨ih, List.pairwise_singleton _ _, ?_⟩
    intro a ha b hb hSame
    rcases List.mem_map.mp ha with ⟨d, hd, rfl⟩
    cases List.mem_singleton.mp hb
    rcases Array.mem_iff_getElem?.mp (Array.mem_toList_iff.mp hd)
      with ⟨i, hNode⟩
    refine hNew (Std.HashMap.mem_iff_isSome_getElem?.mpr ?_)
    rw [hBuilt.indexed.mpr ⟨d, hNode, hSame⟩]
    rfl

/- What was pushed shows as a grove of nested events. -/
theorem shows_linked
    (h : Built es f positions) :
    ∃ g, f.Shows g ∧ g.Linked none := by
  induction h with
  | nil =>
    exact ⟨.empty, ⟨rfl, rfl, trivial, .refl _⟩, trivial⟩
  | @snoc es f positions parent e hBuilt hParent hNew ih =>
    rcases ih with ⟨g, hShows, hLinked⟩
    have hFound : ∀ i, parent = some i →
        ∃ d, f.nodes[i]? = some d ∧ e.parent = some d.id :=
      fun _ => hBuilt.parent_found hParent
    refine ⟨_, hShows.push ?_ e, ?_⟩
    · intro i hi
      rcases hFound i hi with ⟨d, hNode, _⟩
      exact (Array.getElem?_eq_some_iff.mp hNode).1
    · cases parent with
      | none =>
        refine hLinked.snoc ?_
        cases hNamed : e.parent with
        | none => rfl
        | some p =>
          rw [hNamed] at hParent
          cases hParent
      | some i =>
        rcases hFound i rfl with ⟨d, hNode, hNames⟩
        exact hLinked.insert hShows.shown hNode hNames

end Built

/- What is read from events is built from them, and sorted. -/
theorem built_of_ofEvents
    (h : ofEvents? es = .ok f) :
    ∃ f' positions, Built es f' positions ∧ f = f'.ordered := by
  rw [ofEvents_eq] at h
  cases hAll : pushAll empty ∅ es with
  | error m =>
    rw [hAll] at h
    cases h
  | ok f' =>
    rw [hAll] at h
    rcases Built.nil.of_pushAll hAll with ⟨positions, hBuilt⟩
    exact ⟨f', positions, hBuilt, (Except.ok.inj h).symm⟩

end Forest

------------------------------------------------------------
-- Traces without Violations
------------------------------------------------------------

section Valid

variable {es : List Event}
variable {f : Forest}
variable {g : Grove}

/- A list is what stands at all of its positions. -/
theorem filterMap_range
    {α : Type}
    (as : List α) :
    ((List.range as.length).filterMap fun i => as[i]?) = as := by
  induction as with
  | nil => rfl
  | cons a as ih =>
    rw [List.length_cons, List.range_succ_eq_map,
      List.filterMap_cons, List.filterMap_map]
    simp only [List.getElem?_cons_zero, Function.comp_def,
      List.getElem?_cons_succ, ih]

/- The events of a forest stand at its positions. -/
theorem Forest.filterMap_nodes
    (f : Forest) :
    ((List.range f.size).filterMap fun i => f.nodes[i]?)
      = f.nodes.toList := by
  have hList := filterMap_range f.nodes.toList
  simp only [Array.length_toList, Array.getElem?_toList] at hList
  exact hList

/- The events of a grove are those of the forest. -/
theorem Forest.Shows.events_perm
    (h : f.Shows g) : g.events.Perm f.nodes.toList := by
  rw [h.shown.events_eq, ← f.filterMap_nodes]
  exact h.all.filterMap _

/- Only events that open frames have something below them. -/
theorem Grove.nests_of_parents
    {parent : Option EventId}
    (hLinked : g.Linked parent)
    (hOpeners : ∀ e ∈ g.events, ∀ d ∈ g.events,
      e.parent = some d.id → d.opens.isSome) : g.Nests := by
  induction g generalizing parent with
  | empty => trivial
  | event i e below rest ihBelow ihRest =>
    rcases hLinked with ⟨_, hBelow, hRest⟩
    refine ⟨?_, ihBelow hBelow ?_, ihRest hRest ?_⟩
    · intro hOpens
      cases below with
      | empty => rfl
      | event j c inner last =>
        have hSome := hOpeners c (by simp [events]) e
          (by simp [events]) hBelow.1
        rw [hOpens] at hSome
        cases hSome
    · intro c hc d hd
      exact hOpeners c (by simp [events, hc]) d
        (by simp [events, hd])
    · intro c hc d hd
      exact hOpeners c (by simp [events, hc]) d
        (by simp [events, hd])

/- Different events in order have increasing numbers. -/
theorem pairwise_lt_byId
    (hNodup : (es.map Event.id).Nodup) :
    (byId es).Pairwise fun a b => a.id.number < b.id.number := by
  have hSame : (byId es).Perm es := List.mergeSort_perm _ _
  have hOther : (byId es).Pairwise fun a b => a.id ≠ b.id :=
    List.pairwise_map.mp ((hSame.map Event.id).nodup_iff.mpr hNodup)
  have hOrder : (byId es).Pairwise
      fun a b => a.id.number ≤ b.id.number :=
    pairwise_sortByKey es
  refine (hOrder.and hOther).imp fun {a b} h => ?_
  refine UInt64.lt_of_le_of_ne h.1 ?_
  intro hNumber
  exact h.2 (congrArg EventId.mk hNumber)

/- The same events with increasing numbers are in order. -/
theorem byId_eq
    {ds : List Event}
    (hNodup : (es.map Event.id).Nodup)
    (hPerm : es.Perm ds)
    (hOrder : ds.Pairwise fun a b => a.id.number < b.id.number) :
    byId es = ds := by
  refine sortByKey_eq hPerm (hOrder.imp UInt64.le_of_lt) ?_
  intro a ha b hb hSame
  exact List.inj_on_of_nodup_map hNodup ha hb
    (congrArg EventId.mk hSame)

end Valid

/- The events of a call that returns at once. -/
def oneCall : List Event :=
  [⟨⟨1⟩, none, .initialization .epoch⟩,
    ⟨⟨2⟩, none, .action (.call ⟨"A", "m", "()"⟩ none []) .unknown⟩,
    ⟨⟨3⟩, some ⟨2⟩, .action (.resume ⟨2⟩ "A" "m" .void) .unknown⟩]

/- The forest of these events. -/
def oneCallForest : Forest where
  nodes := oneCall.toArray
  children := #[#[], #[2], #[]]
  roots := #[0, 1]

/- The forest is read from the events. -/
theorem ofEvents_oneCall :
    Forest.ofEvents? oneCall = .ok oneCallForest := by
  have hAll : Forest.pushAll .empty ∅ oneCall
      = .ok oneCallForest := by
    simp [Forest.pushAll, Forest.push, Forest.empty, Forest.size,
      oneCall, oneCallForest]
  rw [Forest.ofEvents_eq, hAll]
  simp [Except.map, Forest.ordered, Forest.sortById, oneCallForest,
    List.mergeSort_of_pairwise, Forest.idAt, oneCall]

section Valid

variable {es : List Event}
variable {f : Forest}

/-
  A trace that is read from events, where every parent opens a
  frame, has no broken properties if and only if its events, in
  the order of their numbers, open and close frames like
  brackets, and this is the order in which the forest has them.
-/
theorem Forest.validate_eq_nil_iff_replay
    (hRead : ofEvents? es = .ok f)
    (hParents : ∀ e ∈ es, ∀ id, e.parent = some id →
      ∃ d ∈ es, d.id = id ∧ d.opens.isSome) :
    f.validate = [] ↔
      replay [] (byId es) = some [] ∧ f.eventsInOrder = byId es := by
  rcases built_of_ofEvents hRead with ⟨f', positions, hBuilt, rfl⟩
  rcases hBuilt.shows_linked with ⟨g', hShows', hLinked'⟩
  have hShows := hShows'.ordered hBuilt.distinct
  have hLinked := hLinked'.sorted
  generalize g'.sorted = g at hShows hLinked
  have hPerm : g.events.Perm es := by
    have hEvents := hShows.events_perm
    rw [← hBuilt.nodes_eq]
    exact hEvents
  have hNodup : (es.map Event.id).Nodup := by
    rw [← hBuilt.nodes_eq]
    exact hBuilt.distinct
  rw [hShows.validate_eq, List.append_eq_nil_iff,
    orderViolations_eq_nil_iff, hShows.eventsInOrder_eq]
  constructor
  · rintro ⟨hOrder, hValid⟩
    have hSorted : byId es = g.events := byId_eq hNodup hPerm.symm hOrder
    rw [hSorted]
    refine ⟨Grove.replay_nil_of_valid ?_ hValid, rfl⟩
    refine Grove.nests_of_parents hLinked ?_
    intro e he d hd hParent
    rcases hParents e (hPerm.mem_iff.mp he) d.id hParent with
      ⟨c, hc, hSame, hOpens⟩
    cases List.inj_on_of_nodup_map hNodup hc (hPerm.mem_iff.mp hd)
      hSame
    exact hOpens
  · rintro ⟨hReplay, hSorted⟩
    rw [hSorted]
    refine ⟨pairwise_lt_byId hNodup, ?_⟩
    rw [← hSorted] at hReplay
    exact Grove.violations_of_replay hLinked
      ((hPerm.map Event.id).nodup_iff.mpr hNodup) hReplay

end Valid

/- A call that returns is a trace like that. -/
theorem Forest.validate_eq_nil_iff_replay_oneCall :
    oneCallForest.validate = [] ↔
      replay [] (byId oneCall) = some [] ∧
        oneCallForest.eventsInOrder = byId oneCall := by
  refine Forest.validate_eq_nil_iff_replay ofEvents_oneCall ?_
  intro e he id hParent
  simp only [oneCall, List.mem_cons, List.not_mem_nil, or_false]
    at he
  rcases he with rfl | rfl | rfl
  · cases hParent
  · cases hParent
  · cases hParent
    exact ⟨oneCall[1], by simp [oneCall], rfl, rfl⟩

end ExecTrace
