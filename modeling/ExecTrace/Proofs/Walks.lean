import Mathlib.Algebra.GroupWithZero.Nat
import ExecTrace.Proofs.Activations
import ExecTrace.Trace.Rendering

/-
  Walks. The events in order, the numbers about a trace and its
  text all come from walks with an explicit stack. This file
  defines the same reports by recursion over a grove and shows
  that every forest that comes about has them.

  Main declarations:
    * `Grove.visits` and `Grove.walk_eq_foldl`
    * `Tally.total` and `Tally.count`
    * `Grove.height`
    * `Grove.lines` and `Forest.Shows.render_eq`
    * `Forest.Grown.existsUnique_readsAs`
-/

namespace ExecTrace

------------------------------------------------------------
-- Visits
------------------------------------------------------------

/- An event with its position and its depth. -/
structure Visit where
  position : Nat
  event : Event
  depth : Nat

namespace Grove

/- The visits of a grove whose topmost events have a depth. -/
@[grind] def visits : Grove → Nat → List Visit
  | empty, _ => []
  | event i e below rest, depth =>
    ⟨i, e, depth⟩
      :: (below.visits (depth + 1) ++ rest.visits depth)

variable {g : Grove}
variable {depth : Nat}

/- Every event is visited, depth first. -/
@[simp]
theorem map_event_visits
    (g : Grove)
    (depth : Nat) :
    (g.visits depth).map Visit.event = g.events := by
  induction g generalizing depth with
  | empty => rfl
  | event i e below rest ihBelow ihRest =>
    simp [visits, events, ihBelow, ihRest]

/- Every position is visited, depth first. -/
@[simp]
theorem map_position_visits
    (g : Grove)
    (depth : Nat) :
    (g.visits depth).map Visit.position = g.positions := by
  induction g generalizing depth with
  | empty => rfl
  | event i e below rest ihBelow ihRest =>
    simp [visits, positions, ihBelow, ihRest]

/- There are as many visits as events. -/
@[simp]
theorem length_visits
    (g : Grove)
    (depth : Nat) : (g.visits depth).length = g.size := by
  rw [← List.length_map Visit.position, map_position_visits]
  rfl

/- There are as many events as positions. -/
theorem length_events (g : Grove) : g.events.length = g.size := by
  rw [← map_event_visits g 0, List.length_map, length_visits]

/-
  A walk that leaves nothing out and counts the depth goes
  through the visits one after the other.
-/
theorem walk_eq_foldl
    {σ : Type}
    (act : σ → Nat → Event → Nat → σ)
    (g : Grove)
    (depth : Nat)
    (s : σ) :
    g.walk (fun s i e d => (act s i e d, some (d + 1))) depth s
      = (g.visits depth).foldl
          (fun s v => act s v.position v.event v.depth) s := by
  induction g generalizing depth s with
  | empty => rfl
  | event i e below rest ihBelow ihRest =>
    simp only [walk, visits, List.foldl_cons, List.foldl_append,
      ihBelow, ihRest]

end Grove

------------------------------------------------------------
-- Events that are Moved
------------------------------------------------------------

namespace Forest

variable {f : Forest}
variable {g : Grove}

/- The walk for the order lists positions and depths. -/
theorem Shows.preorder_eq (h : f.Shows g) :
    f.preorder.toList
      = (g.visits 0).map fun v => (v.position, v.depth) := by
  have hWalk := g.walk_eq_foldl
    (fun (out : Array (Nat × Nat)) i _ d => out.push (i, d)) 0 #[]
  unfold preorder
  rw [h.walk_eq, hWalk]
  simp

/-
  As long as no position occurs twice, every slot is still full
  when its turn comes.
-/
theorem toList_takeEach
    {is : List Nat}
    (hNodup : is.Nodup)
    {slots : Array (Option Event)}
    (hFull : ∀ i ∈ is, slots[i]? = f.nodes[i]?.map some)
    (out : Array Event) :
    (takeEach is slots out).toList
      = out.toList ++ is.filterMap fun i => f.nodes[i]? := by
  induction is generalizing slots out with
  | nil => simp [takeEach]
  | cons i is ih =>
    rcases List.nodup_cons.mp hNodup with ⟨hNew, hNodup⟩
    have hHere := hFull i List.mem_cons_self
    cases hNode : f.nodes[i]? with
    | none =>
      rw [hNode] at hHere
      have hRest := ih hNodup
        (fun j hj => hFull j (List.mem_cons_of_mem i hj)) out
      simpa [takeEach, hHere, hNode] using hRest
    | some e =>
      rw [hNode] at hHere
      have hKept : ∀ j ∈ is, (slots.setIfInBounds i none)[j]?
          = f.nodes[j]?.map some := by
        intro j hj
        have hOther : i ≠ j := by
          rintro rfl
          exact hNew hj
        rw [Array.getElem?_setIfInBounds_ne hOther]
        exact hFull j (List.mem_cons_of_mem i hj)
      simp [takeEach, hHere, hNode, ih hNodup hKept]

/- The events that are moved out are those of the grove. -/
theorem Shows.intoEvents_eq (h : f.Shows g) :
    f.intoEvents = g.events := by
  have hPositions : f.preorder.toList.map Prod.fst
      = g.positions := by
    rw [h.preorder_eq, List.map_map]
    exact g.map_position_visits 0
  have hFull : ∀ i ∈ g.positions,
      (f.nodes.map some)[i]? = f.nodes[i]?.map some :=
    fun i _ => Array.getElem?_map
  unfold intoEvents
  rw [hPositions, toList_takeEach h.nodup hFull,
    h.shown.events_eq]
  rfl

end Forest

------------------------------------------------------------
-- Tallies
------------------------------------------------------------

namespace Tally

variable {t : Tally}

/- The sum of all numbers. -/
def total (t : Tally) : Nat :=
  (t.map Prod.snd).sum

/- How often a name occurred. -/
def count
    (name : String)
    (t : Tally) : Nat :=
  ((t.filter fun entry => entry.1 = name).map Prod.snd).sum

/- Count the names of a list. -/
def addAll
    (t : Tally)
    (names : List String) : Tally :=
  names.foldl (fun t name => t.add name) t

/- One more name counts for one. -/
theorem total_add
    (name : String)
    (t : Tally) : (t.add name).total = t.total + 1 := by
  induction t with
  | nil => rfl
  | cons entry t ih =>
    rcases entry with ⟨n, k⟩
    unfold add
    split
    · simp [total]; omega
    · split
      · simp [total]; omega
      · simp only [total, List.map_cons, List.sum_cons] at ih ⊢
        omega

/- One more occurrence changes the number of this name only. -/
theorem count_add
    (name other : String)
    (t : Tally) :
    (t.add name).count other
      = t.count other + if name = other then 1 else 0 := by
  induction t with
  | nil =>
    by_cases hHere : name = other <;> simp [add, count, hHere]
  | cons entry t ih =>
    rcases entry with ⟨n, k⟩
    unfold add
    split
    next hSame =>
      subst hSame
      by_cases hHere : name = other
      · simp [count, hHere]; omega
      · simp [count, hHere]
    next hDiffer =>
      split
      · by_cases hHere : name = other
        · simp [count, hHere]; omega
        · simp [count, hHere]
      · by_cases hHere : n = other
        · simp only [count, hHere, List.filter_cons, decide_true,
            if_true, List.map_cons, List.sum_cons] at ih ⊢
          omega
        · simp only [count, hHere, List.filter_cons, decide_false,
            Bool.false_eq_true, if_false] at ih ⊢
          exact ih

/- Every name of a list counts for one. -/
theorem total_addAll
    (t : Tally)
    (names : List String) :
    (t.addAll names).total = t.total + names.length := by
  unfold addAll
  induction names generalizing t with
  | nil => rfl
  | cons name names ih =>
    rw [List.foldl_cons, ih, total_add, List.length_cons]
    omega

/- A name is counted as often as the list has it. -/
theorem count_addAll
    (name : String)
    (t : Tally)
    (names : List String) :
    (t.addAll names).count name
      = t.count name + names.count name := by
  unfold addAll
  induction names generalizing t with
  | nil => rfl
  | cons n names ih =>
    rw [List.foldl_cons, ih, count_add, List.count_cons]
    simp only [beq_iff_eq]
    omega

end Tally

------------------------------------------------------------
-- Numbers about a Grove
------------------------------------------------------------

namespace Stats

/- Count visits one after the other. -/
def addAll
    (s : Stats)
    (vs : List Visit) : Stats :=
  vs.foldl (fun s v => s.add v.depth v.event) s

variable {s : Stats}
variable {vs : List Visit}

/- Every visit counts. -/
theorem events_addAll :
    (s.addAll vs).events = s.events + vs.length := by
  unfold addAll
  induction vs generalizing s with
  | nil => rfl
  | cons v vs ih =>
    rw [List.foldl_cons, ih, List.length_cons]
    simp only [add]
    omega

/- The names of the events are counted. -/
theorem byType_addAll :
    (s.addAll vs).byType
      = s.byType.addAll (vs.map fun v => v.event.name) := by
  unfold addAll
  induction vs generalizing s with
  | nil => rfl
  | cons v vs ih =>
    rw [List.foldl_cons, ih]
    rfl

/- The methods that the events call are counted. -/
theorem calls_addAll :
    (s.addAll vs).calls
      = s.calls.addAll
          (vs.filterMap fun v => v.event.calledMethod?) := by
  unfold addAll
  induction vs generalizing s with
  | nil => rfl
  | cons v vs ih =>
    rw [List.foldl_cons, ih]
    cases hCalled : v.event.calledMethod? with
    | none => simp [add, hCalled]
    | some m => simp [add, hCalled, Tally.addAll]

end Stats

/- The events that call a method are those with a call frame. -/
theorem Event.isSome_calledMethod
    (e : Event) :
    e.calledMethod?.isSome = decide (e.opens = some .call) := by
  unfold calledMethod? opens
  cases e.action? with
  | none => rfl
  | some a => cases a <;> rfl

namespace Grove

/- How many events lie one below the other at most. -/
@[grind] def height : Grove → Nat
  | empty => 0
  | event _ _ below rest => max (below.height + 1) rest.height

/-
  Counting a grove at a depth reaches down to its height, if
  what is around it was counted before.
-/
theorem maxDepth_addAll
    (g : Grove)
    {depth : Nat}
    {s : Stats}
    (hAround : depth ≤ s.maxDepth) :
    (s.addAll (g.visits depth)).maxDepth
      = max s.maxDepth (depth + g.height) := by
  induction g generalizing depth s with
  | empty =>
    simp only [visits, height, Stats.addAll, List.foldl_nil]
    omega
  | event i e below rest ihBelow ihRest =>
    have hBelow := @ihBelow (depth + 1) (s.add depth e)
      (Nat.le_max_right _ _)
    have hSplit : s.addAll ((event i e below rest).visits depth)
        = ((s.add depth e).addAll
            (below.visits (depth + 1))).addAll
              (rest.visits depth) := by
      simp only [Stats.addAll, visits, List.foldl_cons,
        List.foldl_append]
    have hDepth : (s.add depth e).maxDepth
        = max s.maxDepth (depth + 1) := rfl
    rw [hSplit, ihRest, hBelow, height, hDepth]
    · omega
    · rw [hBelow, hDepth]
      omega

end Grove

namespace Forest.Shows

variable {f : Forest}
variable {g : Grove}

/- The numbers of a forest come from the visits of its grove. -/
theorem stats_eq (h : f.Shows g) :
    f.stats = Stats.addAll {} (g.visits 0) := by
  unfold stats
  rw [h.walk_eq]
  exact g.walk_eq_foldl (fun (s : Stats) _ e d => s.add d e) 0 {}

/- All events are counted. -/
theorem stats_events (h : f.Shows g) : f.stats.events = f.size := by
  rw [h.stats_eq, Stats.events_addAll, Grove.length_visits,
    h.size_eq]
  exact Nat.zero_add _

/- The greatest depth is the height. -/
theorem stats_maxDepth (h : f.Shows g) :
    f.stats.maxDepth = g.height := by
  rw [h.stats_eq, g.maxDepth_addAll (Nat.zero_le _)]
  simp

/- The kinds of events are counted. -/
theorem stats_byType (h : f.Shows g) :
    f.stats.byType
      = Tally.addAll [] (g.events.map Event.name) := by
  rw [h.stats_eq, Stats.byType_addAll, ← g.map_event_visits 0,
    List.map_map]
  rfl

/- The methods that are called are counted. -/
theorem stats_calls (h : f.Shows g) :
    f.stats.calls
      = Tally.addAll [] (g.events.filterMap Event.calledMethod?) := by
  rw [h.stats_eq, Stats.calls_addAll, ← g.map_event_visits 0,
    List.filterMap_map]
  rfl

end Forest.Shows

------------------------------------------------------------
-- Text of a Grove
------------------------------------------------------------

namespace Grove

/-
  The lines of an event that has some children. A line for the
  children follows exactly at the limit, and what lies deeper
  is not shown.
-/
def eventLines
    (limit : Option Nat)
    (depth : Nat)
    (e : Event)
    (children : Nat) : List String :=
  if limit.all (depth ≤ ·) then
    if limit = some depth ∧ children ≠ 0 then
      [Forest.eventLine depth e, Forest.elisionLine depth children]
    else [Forest.eventLine depth e]
  else []

/-
  The lines of a grove: those of every event that is shown, and
  of what is below it in any case.
-/
@[grind] def lines
    (limit : Option Nat)
    (shown : Event → Bool) : Grove → Nat → List String
  | empty, _ => []
  | event _ e below rest, depth =>
    (if shown e then eventLines limit depth e below.tops.length
      else [])
      ++ (below.lines limit shown (depth + 1)
        ++ rest.lines limit shown depth)

variable {limit : Option Nat}
variable {shown : Event → Bool}

/- Nothing is shown beyond the limit. -/
theorem lines_beyond
    (g : Grove)
    {depth : Nat}
    (h : limit.any (· < depth)) : g.lines limit shown depth = [] := by
  induction g generalizing depth with
  | empty => rfl
  | event i e below rest ihBelow ihRest =>
    cases limit with
    | none => cases h
    | some n =>
      simp only [Option.any_some, decide_eq_true_eq] at h
      have hBelow := @ihBelow (depth + 1) (by simp; omega)
      have hRest := @ihRest depth (by simpa using h)
      have hHidden : ¬ depth ≤ n := by omega
      simp [lines, eventLines, hBelow, hRest, hHidden]

/- Up to the limit, the walk makes the lines of an event. -/
theorem linesAt_eq
    {f : Forest}
    {i children : Nat}
    (hChildren : (f.childrenAt i).length = children)
    {depth : Nat}
    (h : limit.all (depth ≤ ·))
    (e : Event) :
    f.linesAt limit shown i e depth
      = if shown e then eventLines limit depth e children
        else [] := by
  unfold Forest.linesAt eventLines
  rw [hChildren, if_pos h]
  cases limit with
  | none => simp
  | some n =>
    simp only [Option.all_some, decide_eq_true_eq] at h
    have hSame : n ≤ depth ↔ n = depth := by omega
    simp [hSame]

/-
  Up to the limit, a walk that stops there makes the lines of
  the grove: what it leaves out lies beyond the limit.
-/
theorem walk_lines
    {f : Forest}
    {g : Grove}
    (hShown : g.ShownIn f)
    {depth : Nat}
    (h : limit.all (depth ≤ ·))
    (out : Array String) :
    (g.walk
      (fun out i e depth =>
        (out ++ (f.linesAt limit shown i e depth).toArray,
          if limit.any (· ≤ depth) then none
          else some (depth + 1)))
      depth out).toList
      = out.toList ++ g.lines limit shown depth := by
  induction g generalizing depth out with
  | empty => simp [walk, lines]
  | event i e below rest ihBelow ihRest =>
    rcases hShown with ⟨_, hChildren, hBelow, hRest⟩
    have hLines :
        f.linesAt limit shown i e depth
          = if shown e
            then eventLines limit depth e (tops below).length
            else [] :=
      linesAt_eq (congrArg List.length hChildren) h e
    by_cases hLimit : limit.any (· ≤ depth)
    · have hBeyond : limit.any (· < depth + 1) := by
        simpa only [Nat.lt_succ_iff] using hLimit
      simp only [walk, lines, hLimit, if_true, hLines,
        below.lines_beyond hBeyond, ihRest hRest h]
      simp
    · have hDeeper : limit.all (depth + 1 ≤ ·) := by
        cases limit with
        | none => rfl
        | some n => simpa [Nat.succ_le_iff] using hLimit
      simp only [walk, lines, hLimit, Bool.false_eq_true, if_false,
        hLines, ihRest hRest h, ihBelow hBelow hDeeper]
      simp

end Grove

/- The text of a forest consists of the lines of its grove. -/
theorem Forest.Shows.render_eq
    {f : Forest}
    {g : Grove}
    (h : f.Shows g)
    (limit : Option Nat)
    (shown : Event → Bool) :
    f.render limit shown
      = String.intercalate "\n" (g.lines limit shown 0) := by
  have hTop : limit.all (0 ≤ ·) := by cases limit <;> simp
  unfold render lines
  rw [h.walk_eq, Grove.walk_lines h.shown hTop]
  rfl

------------------------------------------------------------
-- Reports on a Forest
------------------------------------------------------------

namespace Grove

/- Groves of a forest with the same topmost positions are equal. -/
theorem ShownIn.unique
    {f : Forest}
    {g g' : Grove}
    (h : g.ShownIn f)
    (h' : g'.ShownIn f)
    (hTops : g.tops = g'.tops) : g = g' := by
  induction g generalizing g' with
  | empty =>
    cases g' with
    | empty => rfl
    | event => cases hTops
  | event i e below rest ihBelow ihRest =>
    cases g' with
    | empty => cases hTops
    | event j d below' rest' =>
      rcases h with ⟨hNode, hChildren, hBelow, hRest⟩
      rcases h' with ⟨hNode', hChildren', hBelow', hRest'⟩
      rcases List.cons.inj hTops with ⟨rfl, hBehind⟩
      rw [hNode] at hNode'
      cases hNode'
      rw [ihBelow hBelow hBelow' (hChildren.symm.trans hChildren'),
        ihRest hRest hRest' hBehind]

end Grove

namespace Forest

/-
  The reports on a forest are those that recursion over a grove
  gives.
-/
structure ReadsAs
    (f : Forest)
    (g : Grove) : Prop where
  shows : f.Shows g
  -- every event once, depth first, also when events are moved
  order : f.eventsInOrder = g.events
  moved : f.intoEvents = g.events
  once : g.events.Perm f.nodes.toList
  -- all events are counted, by kind and by called method
  events : f.stats.events = f.size
  kinds : f.stats.byType.total = f.size
  kind : ∀ name, f.stats.byType.count name
    = g.events.countP fun e => e.name = name
  calls : f.stats.calls.total
    = g.events.countP fun e => e.opens = some .call
  call : ∀ method, f.stats.calls.count method
    = g.events.countP fun e => e.calledMethod? = some method
  depth : f.stats.maxDepth = g.height
  -- every limit and every filter
  text : ∀ limit shown, f.render limit shown
    = String.intercalate "\n" (g.lines limit shown 0)

/- A forest that shows a grove reads as this grove. -/
theorem Shows.readsAs
    {f : Forest}
    {g : Grove}
    (h : f.Shows g) : f.ReadsAs g where
  shows := h
  order := h.eventsInOrder_eq
  moved := h.intoEvents_eq
  once := h.events_perm
  events := h.stats_events
  kinds := by
    rw [h.stats_byType, Tally.total_addAll, List.length_map,
      Grove.length_events, h.size_eq]
    exact Nat.zero_add _
  kind name := by
    rw [h.stats_byType, Tally.count_addAll, List.count,
      List.countP_map]
    simp [Tally.count, Function.comp_def, Bool.beq_eq_decide_eq]
  calls := by
    rw [h.stats_calls, Tally.total_addAll,
      List.length_filterMap_eq_countP]
    simp only [Event.isSome_calledMethod]
    exact Nat.zero_add _
  call method := by
    rw [h.stats_calls, Tally.count_addAll, List.count_filterMap]
    simp [Tally.count, Bool.beq_eq_decide_eq]
  depth := h.stats_maxDepth
  text := h.render_eq

/-
  A forest that comes about, by pushing events or from a
  sequence of events, reads as one grove.
-/
theorem Grown.existsUnique_readsAs
    {f : Forest}
    (h : f.Grown) : ∃! g, f.ReadsAs g := by
  rcases h.shows with ⟨g, hShows⟩
  refine ⟨g, hShows.readsAs, ?_⟩
  rintro g' ⟨hShows'⟩
  refine hShows'.shown.unique hShows.shown ?_
  rw [← hShows'.roots, hShows.roots]

/- The forest of a call that returns is one that comes about. -/
theorem Grown.existsUnique_readsAs_oneCall :
    oneCallForest.Grown ∧ ∃! g, oneCallForest.ReadsAs g := by
  have hGrown : oneCallForest.Grown := .read ofEvents_oneCall
  exact ⟨hGrown, hGrown.existsUnique_readsAs⟩

end Forest

end ExecTrace
