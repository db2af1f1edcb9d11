import ExecTrace.Trace.Forest

/-
  Groves: forests read recursively. A grove is empty, or it
  starts with an event, the grove below the event and the grove
  behind it. A walk with an explicit stack visits a forest as the
  recursion visits its grove, and an event that is pushed onto
  the right edge of a grove comes last in depth-first order.

  Main declarations:
    * `Grove` and `Grove.walk`
    * `Forest.Shows` and `Forest.Shows.walk_eq`
    * `Forest.Shows.eventsInOrder_eq`
    * `Forest.Shows.push`
    * `Grove.edge` and `Grove.insert_edge`
-/

namespace ExecTrace

------------------------------------------------------------
-- Groves
------------------------------------------------------------

/-
  A grove: an event with its position in an arena, what is below
  the event, and what comes behind all that.
-/
inductive Grove where
  | empty
  | event (position : Nat) (e : Event) (below rest : Grove)

namespace Grove

/- The positions of a grove, depth first. -/
@[grind] def positions : Grove → List Nat
  | empty => []
  | event i _ below rest =>
    i :: (below.positions ++ rest.positions)

/- The events of a grove, depth first. -/
@[grind] def events : Grove → List Event
  | empty => []
  | event _ e below rest => e :: (below.events ++ rest.events)

/- The positions that are below no other position. -/
@[grind] def tops : Grove → List Nat
  | empty => []
  | event i _ _ rest => i :: rest.tops

/- The number of events. -/
def size (g : Grove) : Nat :=
  g.positions.length

section Walk

variable {σ γ : Type}

/-
  Visit a grove. A visit says in which context the events below
  are visited, or that they are left out.
-/
def walk
    (visit : σ → Nat → Event → γ → σ × Option γ) :
    Grove → γ → σ → σ
  | empty, _, s => s
  | event i e below rest, c, s =>
    match visit s i e c with
    | (s, none) => rest.walk visit c s
    | (s, some inner) =>
      rest.walk visit c (below.walk visit inner s)

end Walk

/-
  A forest shows a grove: its events stand at their positions,
  and the children of each are what is below it.
-/
@[grind] def ShownIn (f : Forest) : Grove → Prop
  | empty => True
  | event i e below rest =>
    f.nodes[i]? = some e ∧ f.childrenAt i = below.tops ∧
      below.ShownIn f ∧ rest.ShownIn f

/- Every event names the event that it is below. -/
@[grind] def Linked : Option EventId → Grove → Prop
  | _, empty => True
  | parent, event _ e below rest =>
    e.parent = parent ∧ below.Linked (some e.id) ∧
      rest.Linked parent

variable {f : Forest}
variable {g : Grove}

/- The event at a position of a grove is an event of the grove. -/
theorem ShownIn.mem_events
    (h : g.ShownIn f)
    {i : Nat}
    (hi : i ∈ g.positions) :
    ∃ e ∈ g.events, f.nodes[i]? = some e := by
  induction g with
  | empty => cases hi
  | event j e below rest ihBelow ihRest =>
    rcases h with ⟨hNode, _, hBelow, hRest⟩
    simp only [positions, List.mem_cons, List.mem_append] at hi
    rcases hi with rfl | hi | hi
    · exact ⟨e, by simp [events], hNode⟩
    · rcases ihBelow hBelow hi with ⟨d, hd, hFound⟩
      exact ⟨d, by simp [events, hd], hFound⟩
    · rcases ihRest hRest hi with ⟨d, hd, hFound⟩
      exact ⟨d, by simp [events, hd], hFound⟩

/- Events are read off at their positions. -/
theorem ShownIn.events_eq
    (h : g.ShownIn f) :
    g.events = g.positions.filterMap fun i => f.nodes[i]? := by
  induction g with
  | empty => rfl
  | event i e below rest ihBelow ihRest =>
    rcases h with ⟨hNode, _, hBelow, hRest⟩
    rw [positions, List.filterMap_cons, hNode,
      List.filterMap_append, ← ihBelow hBelow, ← ihRest hRest]
    rfl

/- The topmost positions are positions. -/
theorem tops_sublist (g : Grove) : g.tops.Sublist g.positions := by
  induction g with
  | empty => exact .slnil
  | event i e below rest _ ihRest =>
    refine .cons_cons i ?_
    exact ihRest.trans (List.sublist_append_right _ _)

/- The children of an event are positions in the same order. -/
theorem ShownIn.childrenAt_sublist
    (h : g.ShownIn f)
    {i : Nat}
    (hi : i ∈ g.positions) :
    (f.childrenAt i).Sublist g.positions := by
  induction g with
  | empty => cases hi
  | event j e below rest ihBelow ihRest =>
    rcases h with ⟨_, hChildren, hBelow, hRest⟩
    simp only [positions, List.mem_cons, List.mem_append] at hi
    refine .cons j ?_
    rcases hi with rfl | hi | hi
    · rw [hChildren]
      exact below.tops_sublist.trans (List.sublist_append_left _ _)
    · exact (ihBelow hBelow hi).trans
        (List.sublist_append_left _ _)
    · exact (ihRest hRest hi).trans
        (List.sublist_append_right _ _)

end Grove

------------------------------------------------------------
-- Walks with an Explicit Stack
------------------------------------------------------------

namespace Forest

section Walk

variable {σ γ : Type}
variable {f : Forest}
variable {visit : σ → Nat → Event → γ → σ × Option γ}

/- Nothing is visited if nothing is pending. -/
theorem walkFrom_nil
    (fuel : Nat)
    (s : σ) : f.walkFrom visit fuel [] s = s := by
  cases fuel <;> rfl

/-
  A grove that is pending is visited before what is pending
  behind it, whatever `finish` makes of that.
-/
theorem walkFrom_grove
    {g : Grove}
    (hg : g.ShownIn f)
    (c : γ)
    {n : Nat}
    {rest : Pending γ}
    {finish : σ → σ}
    (hRest : ∀ fuel s, n ≤ fuel →
      f.walkFrom visit fuel rest s = finish s)
    (fuel : Nat)
    (s : σ)
    (hFuel : g.size + n ≤ fuel) :
    f.walkFrom visit fuel (g.tops.map (·, c) ++ rest) s
      = finish (g.walk visit c s) := by
  induction g generalizing c n rest finish fuel s with
  | empty => exact hRest fuel s (by simpa [Grove.size,
      Grove.positions] using hFuel)
  | event i e below behind ihBelow ihBehind =>
    rcases hg with ⟨hNode, hChildren, hBelow, hBehind⟩
    simp only [Grove.size, Grove.positions, List.length_cons,
      List.length_append] at hFuel
    cases fuel with
    | zero => omega
    | succ fuel =>
      have hAfter := fun fuel s => ihBehind hBehind c hRest fuel s
      simp only [Grove.tops, List.map_cons, List.cons_append,
        walkFrom, hNode, Grove.walk]
      cases hVisit : visit s i e c with
      | mk t inner =>
        cases inner with
        | none =>
          refine hAfter fuel t ?_
          simp only [Grove.size]
          omega
        | some inner =>
          simp only [hChildren]
          refine ihBelow hBelow inner hAfter fuel t ?_
          simp only [Grove.size]
          omega

end Walk

/-
  A forest shows a grove with all of its events.
-/
structure Shows
    (f : Forest)
    (g : Grove) : Prop where
  sized : f.children.size = f.nodes.size
  roots : f.roots.toList = g.tops
  shown : g.ShownIn f
  all : g.positions.Perm (List.range f.size)

namespace Shows

variable {f : Forest}
variable {g : Grove}

/- A forest has as many events as its grove. -/
theorem size_eq (h : f.Shows g) : g.size = f.size := by
  unfold Grove.size
  rw [h.all.length_eq, List.length_range]

/- A position of a grove is one of the forest. -/
theorem mem_positions
    (h : f.Shows g)
    {i : Nat} : i ∈ g.positions ↔ i < f.size := by
  rw [h.all.mem_iff, List.mem_range]

/- No position occurs twice. -/
theorem nodup (h : f.Shows g) : g.positions.Nodup :=
  h.all.nodup_iff.mpr List.nodup_range

/- Walking through a forest is visiting its grove. -/
theorem walk_eq
    {σ γ : Type}
    (h : f.Shows g)
    (visit : σ → Nat → Event → γ → σ × Option γ)
    (top : γ)
    (s : σ) : f.walk visit top s = g.walk visit top s := by
  have hNothing : ∀ fuel (s : σ), 0 ≤ fuel →
      f.walkFrom visit fuel [] s = s :=
    fun fuel s _ => walkFrom_nil fuel s
  have hWalk : f.walkFrom visit f.size
      (g.tops.map (·, top) ++ []) s = id (g.walk visit top s) :=
    walkFrom_grove h.shown top hNothing f.size s
      (Nat.le_of_eq h.size_eq)
  unfold walk
  rw [h.roots]
  simpa using hWalk

/- The events in order are those of the grove. -/
theorem eventsInOrder_eq (h : f.Shows g) :
    f.eventsInOrder = g.events := by
  have hOrder : ∀ (g : Grove) (depth : Nat)
      (out : Array (Nat × Nat)), g.ShownIn f →
      ((g.walk (fun out i _ depth =>
          (out.push (i, depth), some (depth + 1)))
        depth out).toList.filterMap fun x => f.nodes[x.1]?)
        = (out.toList.filterMap fun x => f.nodes[x.1]?)
          ++ g.events := by
    intro g
    induction g with
    | empty =>
      intro depth out _
      simp [Grove.walk, Grove.events]
    | event i e below rest ihBelow ihRest =>
      rintro depth out ⟨hNode, _, hBelow, hRest⟩
      rw [Grove.walk, ihRest _ _ hRest, ihBelow _ _ hBelow]
      simp [Grove.events, hNode]
  unfold eventsInOrder preorder
  rw [h.walk_eq]
  simpa using hOrder g 0 #[] h.shown

end Shows

end Forest

------------------------------------------------------------
-- Growing Groves
------------------------------------------------------------

namespace Grove

/- Add an event behind a grove. -/
@[grind] def snoc
    (i : Nat)
    (e : Event) : Grove → Grove
  | empty => event i e empty empty
  | event j d below rest => event j d below (rest.snoc i e)

/- Add an event as the last one below a position. -/
@[grind] def insert
    (p i : Nat)
    (e : Event) : Grove → Grove
  | empty => empty
  | event j d below rest =>
    let inner := below.insert p i e
    event j d (if j = p then inner.snoc i e else inner)
      (rest.insert p i e)

/- Add an event below a position, or at the end. -/
def push
    (parent : Option Nat)
    (i : Nat)
    (e : Event)
    (g : Grove) : Grove :=
  match parent with
  | none => g.snoc i e
  | some p => g.insert p i e

variable {f f' : Forest}
variable {g : Grove}
variable {p i : Nat}
variable {e : Event}

/- A position that is added at the end comes last. -/
theorem positions_snoc :
    (g.snoc i e).positions = g.positions ++ [i] := by
  induction g with
  | empty => rfl
  | event j d below rest _ ih =>
    simp only [snoc, positions, ih, List.cons_append,
      List.append_assoc]

/- What is added at the end is a topmost event. -/
theorem tops_snoc : (g.snoc i e).tops = g.tops ++ [i] := by
  induction g with
  | empty => rfl
  | event j d below rest _ ih =>
    simp only [snoc, tops, ih, List.cons_append]

/- The topmost events remain what they are. -/
theorem tops_insert : (g.insert p i e).tops = g.tops := by
  induction g with
  | empty => rfl
  | event j d below rest _ ih => simp only [insert, tops, ih]

/- Nothing is added below a position that does not occur. -/
theorem insert_of_not_mem
    (h : p ∉ g.positions) : g.insert p i e = g := by
  induction g with
  | empty => rfl
  | event j d below rest ihBelow ihRest =>
    simp only [positions, List.mem_cons, List.mem_append,
      not_or] at h
    rcases h with ⟨hHere, hBelow, hRest⟩
    have hOther : j ≠ p := fun h => hHere h.symm
    simp only [insert, ihBelow hBelow, ihRest hRest, if_neg hOther]

/- A position is added for each occurrence of the other one. -/
theorem count_insert
    (x : Nat) :
    (g.insert p i e).positions.count x
      = (if i = x then g.positions.count p else 0)
        + g.positions.count x := by
  induction g with
  | empty => simp [insert, positions]
  | event j d below rest ihBelow ihRest =>
    by_cases hHere : j = p
    · simp only [insert, positions, positions_snoc,
        List.count_cons, List.count_append, List.count_nil,
        ihBelow, ihRest, hHere, beq_self_eq_true, if_true,
        beq_iff_eq]
      split <;> split <;> omega
    · simp only [insert, if_neg hHere, positions, List.count_cons,
        List.count_append, ihBelow, ihRest, beq_iff_eq]
      split <;> split <;> omega

/- An event without children may be shown at the end. -/
theorem ShownIn.snoc
    (h : g.ShownIn f)
    (hNew : f.nodes[i]? = some e)
    (hBare : f.childrenAt i = []) : (g.snoc i e).ShownIn f := by
  induction g with
  | empty => exact ⟨hNew, hBare, trivial, trivial⟩
  | event j d below rest _ ih =>
    rcases h with ⟨hNode, hChildren, hBelow, hRest⟩
    exact ⟨hNode, hChildren, hBelow, ih hRest⟩

/- A grove is shown as long as its events and children stay. -/
theorem ShownIn.mono
    (h : g.ShownIn f)
    (hNodes : ∀ (j : Nat) (d : Event), f.nodes[j]? = some d →
      f'.nodes[j]? = some d)
    (hChildren : ∀ (j : Nat) (d : Event), f.nodes[j]? = some d →
      f'.childrenAt j = f.childrenAt j) : g.ShownIn f' := by
  induction g with
  | empty => trivial
  | event j d below rest ihBelow ihRest =>
    rcases h with ⟨hNode, hBelow, hInner, hRest⟩
    refine ⟨hNodes j d hNode, ?_, ihBelow hInner, ihRest hRest⟩
    rw [hChildren j d hNode, hBelow]

/- One position gets one more child. -/
theorem ShownIn.insert
    (h : g.ShownIn f)
    (hNodes : ∀ (j : Nat) (d : Event), f.nodes[j]? = some d →
      f'.nodes[j]? = some d)
    (hChildren : ∀ (j : Nat) (d : Event), f.nodes[j]? = some d →
      f'.childrenAt j
        = f.childrenAt j ++ if p = j then [i] else [])
    (hNew : f'.nodes[i]? = some e)
    (hBare : f'.childrenAt i = []) :
    (g.insert p i e).ShownIn f' := by
  induction g with
  | empty => trivial
  | event j d below rest ihBelow ihRest =>
    rcases h with ⟨hNode, hBelow, hInner, hRest⟩
    refine ⟨hNodes j d hNode, ?_, ?_, ihRest hRest⟩
    · rw [hChildren j d hNode, hBelow]
      by_cases hHere : j = p
      · rw [if_pos hHere.symm, if_pos hHere, tops_snoc, tops_insert]
      · rw [if_neg (Ne.symm hHere), if_neg hHere, tops_insert,
          List.append_nil]
    · by_cases hHere : j = p
      · rw [if_pos hHere]
        exact (ihBelow hInner).snoc hNew hBare
      · rw [if_neg hHere]
        exact ihBelow hInner

end Grove

------------------------------------------------------------
-- Growing Forests
------------------------------------------------------------

namespace Forest

variable {f : Forest}
variable {g : Grove}
variable {parent : Option Nat}
variable {e : Event}

/- The events after one more was added. -/
@[simp]
theorem push_nodes
    (f : Forest)
    (parent : Option Nat)
    (e : Event) : (f.push parent e).nodes = f.nodes.push e := by
  cases parent <;> rfl

/- There is one event more. -/
theorem size_push : (f.push parent e).size = f.size + 1 := by
  unfold size
  rw [push_nodes, Array.size_push]

/- Every event has a list of children after one was added. -/
theorem sized_push
    (h : f.children.size = f.nodes.size) :
    (f.push parent e).children.size
      = (f.push parent e).nodes.size := by
  cases parent <;> simp [push, h]

/- Events stay where they are. -/
theorem getElem?_push
    {j : Nat}
    {d : Event}
    (h : f.nodes[j]? = some d) :
    (f.push parent e).nodes[j]? = some d := by
  have hBound := (Array.getElem?_eq_some_iff.mp h).1
  rw [push_nodes, Array.getElem?_push_lt hBound]
  exact (Array.getElem?_eq_getElem hBound).symm.trans h

/- A new event stands at the end. -/
theorem getElem?_push_size :
    (f.push parent e).nodes[f.size]? = some e := by
  unfold size
  rw [push_nodes, Array.getElem?_push_size]

/- One event gets the new one as a child. -/
theorem childrenAt_push
    (hSized : f.children.size = f.nodes.size)
    {j : Nat}
    (hj : j < f.size) :
    (f.push parent e).childrenAt j
      = f.childrenAt j
        ++ if parent = some j then [f.size] else [] := by
  have hBound : j < f.children.size := by
    rw [hSized]
    exact hj
  cases parent with
  | none =>
    simp [push, childrenAt, Array.getElem?_push_lt, hBound]
  | some p =>
    by_cases hHere : p = j
    · subst hHere
      simp [push, childrenAt, Array.getElem?_push, hBound,
        Nat.ne_of_lt hBound, size, Array.getElem_modify]
    · simp [push, childrenAt, Array.getElem?_push, hBound,
        Nat.ne_of_lt hBound, hHere, Array.getElem_modify]

/- A new event has no children. -/
theorem childrenAt_push_size
    (hSized : f.children.size = f.nodes.size) :
    (f.push parent e).childrenAt f.size = [] := by
  have hSame : f.size = f.children.size := hSized.symm
  cases parent with
  | none => simp [push, childrenAt, hSame]
  | some p =>
    simp [push, childrenAt, hSame, Array.getElem_push]

/- A grove grows with the forest that shows it. -/
theorem Shows.push
    (h : f.Shows g)
    (hParent : ∀ p, parent = some p → p < f.size)
    (e : Event) :
    (f.push parent e).Shows (g.push parent f.size e) where
  sized := sized_push h.sized
  roots := by
    cases parent with
    | none =>
      have hRoots : (f.push none e).roots.toList
          = f.roots.toList ++ [f.size] := by
        simp [Forest.push, size]
      rw [hRoots, h.roots]
      exact Grove.tops_snoc.symm
    | some p => exact h.roots.trans Grove.tops_insert.symm
  shown := by
    have hHere : ∀ (j : Nat) (d : Event), f.nodes[j]? = some d →
        j < f.size :=
      fun j d hNode => (Array.getElem?_eq_some_iff.mp hNode).1
    have hNodes : ∀ (j : Nat) (d : Event), f.nodes[j]? = some d →
        (f.push parent e).nodes[j]? = some d :=
      fun _ _ hNode => getElem?_push hNode
    have hChildren : ∀ (j : Nat) (d : Event),
        f.nodes[j]? = some d →
          (f.push parent e).childrenAt j
            = f.childrenAt j
              ++ if parent = some j then [f.size] else [] :=
      fun j d hNode => childrenAt_push h.sized (hHere j d hNode)
    have hBare : (f.push parent e).childrenAt f.size = [] :=
      childrenAt_push_size h.sized
    cases parent with
    | none =>
      refine Grove.ShownIn.snoc ?_ getElem?_push_size hBare
      refine h.shown.mono hNodes fun j d hNode => ?_
      rw [hChildren j d hNode, if_neg (Option.some_ne_none j).symm,
        List.append_nil]
    | some p =>
      refine h.shown.insert hNodes (fun j d hNode => ?_)
        getElem?_push_size hBare
      rw [hChildren j d hNode]
      simp only [Option.some.injEq]
  all := by
    rw [size_push, List.range_succ]
    cases parent with
    | none =>
      simp only [Grove.push, Grove.positions_snoc]
      exact h.all.append_right _
    | some p =>
      have hOnce : g.positions.count p = 1 := by
        rw [h.nodup.count, if_pos]
        exact h.mem_positions.mpr (hParent p rfl)
      refine List.perm_iff_count.mpr fun x => ?_
      simp only [Grove.push, Grove.count_insert, hOnce,
        List.count_append, h.all.count_eq, List.count_singleton,
        beq_iff_eq]
      omega

end Forest

------------------------------------------------------------
-- The Right Edge
------------------------------------------------------------

namespace Grove

/- The positions on the way to the last event, outermost first. -/
@[grind] def edge : Grove → List Nat
  | empty => []
  | event i _ below rest =>
    match rest with
    | empty => i :: below.edge
    | event _ _ _ _ => rest.edge

variable {f : Forest}
variable {g : Grove}
variable {p i : Nat}
variable {e d : Event}
variable {parent : Option EventId}

/- The right edge goes downwards. -/
theorem edge_sublist (g : Grove) : g.edge.Sublist g.positions := by
  induction g with
  | empty => exact .slnil
  | event j d below rest ihBelow ihRest =>
    cases rest with
    | empty =>
      refine .cons_cons j ?_
      exact ihBelow.trans (List.sublist_append_left _ _)
    | event =>
      refine .cons j ?_
      exact ihRest.trans (List.sublist_append_right _ _)

/- The right edge consists of an event that was added at the end. -/
theorem edge_snoc : (g.snoc i e).edge = [i] := by
  induction g with
  | empty => rfl
  | event j d below rest _ ih =>
    cases rest with
    | empty => rfl
    | event => exact ih

/-
  An event below a position on the right edge comes last, and
  ends the right edge.
-/
theorem insert_edge
    (hNodup : g.positions.Nodup)
    (hEdge : p ∈ g.edge) :
    (g.insert p i e).positions = g.positions ++ [i] ∧
      ∃ before after, g.edge = before ++ p :: after ∧
        (g.insert p i e).edge = before ++ [p, i] := by
  induction g with
  | empty => cases hEdge
  | event j d below rest ihBelow ihRest =>
    simp only [positions, List.nodup_cons, List.mem_append,
      not_or, List.nodup_append] at hNodup
    rcases hNodup with ⟨⟨hjBelow, hjRest⟩, hBelow, hRest, hApart⟩
    cases rest with
    | empty =>
      rcases List.mem_cons.mp hEdge with rfl | hInner
      · have hKept : below.insert p i e = below :=
          insert_of_not_mem hjBelow
        refine ⟨?_, [], below.edge, rfl, ?_⟩
        · simp only [insert, hKept, if_true, positions,
            positions_snoc, List.append_nil, List.cons_append]
        · simp only [insert, hKept, if_true, edge, edge_snoc,
            List.nil_append]
      · have hOther : j ≠ p := by
          rintro rfl
          exact hjBelow (below.edge_sublist.subset hInner)
        rcases ihBelow hBelow hInner with
          ⟨hPositions, before, after, hSplit, hNew⟩
        refine ⟨?_, j :: before, after, ?_, ?_⟩
        · simp only [insert, if_neg hOther, positions, hPositions,
            List.append_nil, List.cons_append]
        · simp only [edge, hSplit, List.cons_append]
        · simp only [insert, if_neg hOther, edge, hNew,
            List.cons_append]
    | event k d' inner behind =>
      have hThere : p ∈ (event k d' inner behind).positions :=
        (edge_sublist _).subset hEdge
      have hOther : j ≠ p := by
        rintro rfl
        exact hjRest hThere
      have hKept : below.insert p i e = below :=
        insert_of_not_mem fun hHere => hApart p hHere p hThere rfl
      rcases ihRest hRest hEdge with
        ⟨hPositions, before, after, hSplit, hNew⟩
      refine ⟨?_, before, after, hSplit, ?_⟩
      · rw [insert, positions, hPositions]
        simp only [hKept, if_neg hOther, positions,
          List.append_assoc, List.cons_append]
      · rw [← hNew]
        rfl

------------------------------------------------------------
-- Links to the Events Around
------------------------------------------------------------

/- An event that is added at the end names what is around it. -/
theorem Linked.snoc
    (h : g.Linked parent)
    (hParent : e.parent = parent) : (g.snoc i e).Linked parent := by
  induction g with
  | empty => exact ⟨hParent, trivial, trivial⟩
  | event j d below rest _ ih =>
    rcases h with ⟨hHere, hBelow, hRest⟩
    exact ⟨hHere, hBelow, ih hRest⟩

/- An event that is added below an event names that event. -/
theorem Linked.insert
    (h : g.Linked parent)
    (hShown : g.ShownIn f)
    (hNode : f.nodes[p]? = some d)
    (hParent : e.parent = some d.id) :
    (g.insert p i e).Linked parent := by
  induction g generalizing parent with
  | empty => trivial
  | event j d' below rest ihBelow ihRest =>
    rcases h with ⟨hHere, hBelow, hRest⟩
    rcases hShown with ⟨hFound, _, hShownBelow, hShownRest⟩
    have hInner := ihBelow hBelow hShownBelow
    refine ⟨hHere, ?_, ihRest hRest hShownRest⟩
    by_cases hAt : j = p
    · subst hAt
      have hSame : d' = d := by
        rw [hFound] at hNode
        exact Option.some.inj hNode
      rw [if_pos rfl]
      refine hInner.snoc ?_
      rw [hParent, hSame]
    · rw [if_neg hAt]
      exact hInner

end Grove

end ExecTrace
