import Mathlib.Data.List.Nodup
import ExecTrace.Proofs.Reordering
import ExecTrace.Trace.Activation

/-
  Activations. The activation tree of a forest is the forest with
  everything left out but the events that start an activation:
  one activation below the other exactly if its event is inside
  the other's, with no other such event in between. The walk with
  its explicit stack adds an activation when it meets the event;
  the proof reads the list of what is added, and for every entry
  the number of the activation around it, off the grove.

  Main declarations:
    * `Grove.Around`
    * `Forest.Hosts` and `Forest.Grown`
    * `ActivationTree.ofStarts`
    * `Grove.starts` and `Grove.walk_starts`
    * `ActivationTree.Condenses`
    * `Forest.activations_condense`
-/

namespace ExecTrace

------------------------------------------------------------
-- The Context of a Position
------------------------------------------------------------

namespace Grove

section Around

variable {γ : Type}
variable (step : Nat → Event → γ → γ)

/-
  A position comes up in the context `d` when a grove is visited
  in a context, where `step` says in which context the events
  below an event are visited.
-/
@[grind] def Around : γ → Grove → Nat → γ → Prop
  | _, empty, _, _ => False
  | c, event i e below rest, j, d =>
    (j = i ∧ d = c) ∨ Around (step i e c) below j d ∨
      Around c rest j d

variable {step}
variable {f : Forest}
variable {g : Grove}
variable {c d d' : γ}
variable {i j : Nat}
variable {e : Event}

/- What comes up is a position of the grove. -/
theorem Around.mem
    (h : g.Around step c j d) : j ∈ g.positions := by
  induction g generalizing c with
  | empty => exact h.elim
  | event i e below rest ihBelow ihRest =>
    simp only [positions, List.mem_cons, List.mem_append]
    rcases h with ⟨rfl, _⟩ | h | h
    · exact .inl rfl
    · exact .inr (.inl (ihBelow h))
    · exact .inr (.inr (ihRest h))

/- Every position of a grove comes up. -/
theorem around_of_mem
    (c : γ)
    (h : j ∈ g.positions) : ∃ d, g.Around step c j d := by
  induction g generalizing c with
  | empty => cases h
  | event i e below rest ihBelow ihRest =>
    simp only [positions, List.mem_cons, List.mem_append] at h
    rcases h with rfl | h | h
    · exact ⟨c, .inl ⟨rfl, rfl⟩⟩
    · rcases ihBelow (step i e c) h with ⟨d, hd⟩
      exact ⟨d, .inr (.inl hd)⟩
    · rcases ihRest c h with ⟨d, hd⟩
      exact ⟨d, .inr (.inr hd)⟩

/- A position comes up in one context only. -/
theorem Around.unique
    (hNodup : g.positions.Nodup)
    (h : g.Around step c j d)
    (h' : g.Around step c j d') : d = d' := by
  induction g generalizing c with
  | empty => exact h.elim
  | event i e below rest ihBelow ihRest =>
    simp only [positions, List.nodup_cons, List.mem_append,
      not_or, List.nodup_append] at hNodup
    rcases hNodup with ⟨⟨hiBelow, hiRest⟩, hBelow, hRest, hApart⟩
    rcases h with ⟨rfl, rfl⟩ | h | h
    · rcases h' with ⟨_, rfl⟩ | h' | h'
      · rfl
      · exact absurd h'.mem hiBelow
      · exact absurd h'.mem hiRest
    · rcases h' with ⟨rfl, _⟩ | h' | h'
      · exact absurd h.mem hiBelow
      · exact ihBelow hBelow h h'
      · exact absurd rfl (hApart j h.mem j h'.mem)
    · rcases h' with ⟨rfl, _⟩ | h' | h'
      · exact absurd h.mem hiRest
      · exact absurd rfl (hApart j h'.mem j h.mem)
      · exact ihRest hRest h h'

/- The topmost positions come up in the context of the grove. -/
theorem around_of_top
    (h : j ∈ g.tops) : g.Around step c j c := by
  induction g with
  | empty => cases h
  | event i e below rest _ ihRest =>
    rcases List.mem_cons.mp h with rfl | h
    · exact .inl ⟨rfl, rfl⟩
    · exact .inr (.inr (ihRest h))

/- The children of an event come up in the context below it. -/
theorem Around.child
    (hShown : g.ShownIn f)
    (h : g.Around step c i d)
    (hNode : f.nodes[i]? = some e)
    (hChild : j ∈ f.childrenAt i) :
    g.Around step c j (step i e d) := by
  induction g generalizing c with
  | empty => exact h.elim
  | event k e' below rest ihBelow ihRest =>
    rcases hShown with ⟨hFound, hChildren, hBelow, hRest⟩
    rcases h with ⟨rfl, rfl⟩ | h | h
    · rw [hFound] at hNode
      cases hNode
      rw [hChildren] at hChild
      exact .inr (.inl (around_of_top hChild))
    · exact .inr (.inl (ihBelow hBelow h))
    · exact .inr (.inr (ihRest hRest h))

/-
  What holds of the topmost positions, and of the children of an
  event if it holds of the event, holds of all positions.
-/
theorem Around.lift
    {P : Nat → γ → Prop}
    (hShown : g.ShownIn f)
    (hTops : ∀ j ∈ g.tops, P j c)
    (hChild : ∀ i e d j, f.nodes[i]? = some e → P i d →
      j ∈ f.childrenAt i → P j (step i e d))
    (h : g.Around step c j d) : P j d := by
  induction g generalizing c with
  | empty => exact h.elim
  | event i e below rest ihBelow ihRest =>
    rcases hShown with ⟨hFound, hChildren, hBelow, hRest⟩
    have hHere : P i c := hTops i (by simp [tops])
    rcases h with ⟨rfl, rfl⟩ | h | h
    · exact hHere
    · refine ihBelow hBelow (fun j hj => ?_) h
      rw [← hChildren] at hj
      exact hChild i e c j hFound hHere hj
    · exact ihRest hRest (fun j hj => hTops j (by simp [tops, hj])) h

end Around

end Grove

------------------------------------------------------------
-- Parents and Hosts
------------------------------------------------------------

namespace Forest

variable {f : Forest}
variable {g : Grove}
variable {i j : Nat}

/- Whether an activation starts at a position. -/
def startsAt
    (f : Forest)
    (i : Nat) : Bool :=
  match f.nodes[i]? with
  | some e => decide (e.opens = some .enter)
  | none => false

/- The positions at which activations start, depth first. -/
def entries (f : Forest) : List Nat :=
  (f.preorder.toList.map Prod.fst).filter f.startsAt

/-
  The innermost event around a position that starts an activation
  stands at `a`: either right around the position, or around its
  parent, which starts none itself.
-/
inductive Hosts
    (f : Forest)
    (a : Nat) : Nat → Prop where
  | child
      {i : Nat}
      (start : f.startsAt a = true)
      (below : i ∈ f.childrenAt a) : Hosts f a i
  | inner
      {i j : Nat}
      (around : Hosts f a j)
      (other : f.startsAt j = false)
      (below : i ∈ f.childrenAt j) : Hosts f a i

/-
  The forests that come about: an event is pushed below one that
  is there or as a root, or all events are read from a sequence.
-/
inductive Grown : Forest → Prop where
  | empty : Grown empty
  | push
      {f : Forest}
      {parent : Option Nat}
      (e : Event)
      (before : Grown f)
      (there : ∀ p, parent = some p → p < f.size) :
      Grown (f.push parent e)
  | read
      {f : Forest}
      {es : List Event}
      (read : ofEvents? es = .ok f) : Grown f

/- Forests that come about show a grove. -/
theorem Grown.shows (h : Grown f) : ∃ g, f.Shows g := by
  induction h with
  | empty => exact ⟨.empty, rfl, rfl, trivial, .refl _⟩
  | push e _ there ih =>
    rcases ih with ⟨g, hShows⟩
    exact ⟨_, hShows.push there e⟩
  | read read =>
    rcases shows_of_ofEvents read with ⟨g, hShows, _⟩
    exact ⟨g, hShows⟩

/- An activation starts where an event enters a method. -/
theorem startsAt_eq
    {e : Event}
    (h : f.nodes[i]? = some e) :
    f.startsAt i = decide (e.opens = some .enter) := by
  unfold startsAt
  rw [h]

/- An activation starts at an event that enters a method. -/
theorem startsAt_of_enter
    {e : Event}
    (h : f.nodes[i]? = some e)
    (hEnter : e.opens = some .enter) : f.startsAt i = true := by
  rw [startsAt_eq h, decide_eq_true hEnter]

/- An event stands where an activation starts. -/
theorem node_of_startsAt
    (h : f.startsAt i = true) :
    ∃ e, f.nodes[i]? = some e ∧ e.opens = some .enter := by
  unfold startsAt at h
  cases hNode : f.nodes[i]? with
  | none => simp [hNode] at h
  | some e =>
    simp only [hNode, decide_eq_true_eq] at h
    exact ⟨e, rfl, h⟩

/- Below an event, its position is the parent. -/
def parentStep
    (i : Nat)
    (_ : Event)
    (_ : Option Nat) : Option Nat :=
  some i

/- Below an event that starts an activation, it is the host. -/
def hostStep
    (i : Nat)
    (e : Event)
    (host : Option Nat) : Option Nat :=
  if e.opens = some .enter then some i else host

namespace Shows

/- Every position of a forest comes up in some context. -/
theorem around
    {γ : Type}
    (h : f.Shows g)
    (step : Nat → Event → γ → γ)
    (c : γ)
    {e : Event}
    (hNode : f.nodes[i]? = some e) : ∃ d, g.Around step c i d := by
  refine Grove.around_of_mem c (h.mem_positions.mpr ?_)
  exact (Array.getElem?_eq_some_iff.mp hNode).1

/- The parent of a position is the event that it is a child of. -/
theorem around_parent
    (h : f.Shows g)
    {p : Nat}
    {e : Event}
    (hNode : f.nodes[p]? = some e) :
    g.Around parentStep none j (some p) ↔ j ∈ f.childrenAt p := by
  constructor
  · intro hAround
    refine hAround.lift (P := fun j d =>
      ∀ p, d = some p → j ∈ f.childrenAt p) h.shown ?_ ?_ p rfl
    · rintro j _ p ⟨⟩
    · rintro i e d j _ _ hChild p ⟨⟩
      exact hChild
  · intro hChild
    rcases h.around parentStep none hNode with ⟨d, hd⟩
    exact hd.child h.shown hNode hChild

/- The host of a position is the innermost start around it. -/
theorem around_host
    (h : f.Shows g)
    {a : Nat} :
    g.Around hostStep none j (some a) ↔ f.Hosts a j := by
  constructor
  · intro hAround
    refine hAround.lift (P := fun j d =>
      ∀ a, d = some a → f.Hosts a j) h.shown ?_ ?_ a rfl
    · rintro j _ a ⟨⟩
    · intro i e d j hNode ih hChild a ha
      unfold hostStep at ha
      split at ha
      next hEnter =>
        cases ha
        exact .child (startsAt_of_enter hNode hEnter) hChild
      next hOther =>
        refine .inner (ih a ha) ?_ hChild
        rw [startsAt_eq hNode, decide_eq_false hOther]
  · intro hHosts
    induction hHosts with
    | child start below =>
      rcases node_of_startsAt start with ⟨e, hNode, hEnter⟩
      rcases h.around hostStep none hNode with ⟨d, hd⟩
      have hBelow := hd.child h.shown hNode below
      rwa [hostStep, if_pos hEnter] at hBelow
    | @inner i j around other below ih =>
      have hj := h.mem_positions.mp ih.mem
      have hNode := Array.getElem?_eq_some_iff.mpr ⟨hj, rfl⟩
      rw [startsAt_eq hNode, decide_eq_false_iff_not] at other
      have hBelow := ih.child h.shown hNode below
      rwa [hostStep, if_neg other] at hBelow

/- Positions come up depth first. -/
theorem preorder_positions (h : f.Shows g) :
    f.preorder.toList.map Prod.fst = g.positions := by
  have hOrder : ∀ (g : Grove) (depth : Nat)
      (out : Array (Nat × Nat)),
      ((g.walk (fun out i _ depth =>
          (out.push (i, depth), some (depth + 1)))
        depth out).toList.map Prod.fst)
        = out.toList.map Prod.fst ++ g.positions := by
    intro g
    induction g with
    | empty =>
      intro depth out
      simp [Grove.walk, Grove.positions]
    | event i e below rest ihBelow ihRest =>
      intro depth out
      rw [Grove.walk, ihRest, ihBelow]
      simp [Grove.positions]
  unfold preorder
  rw [h.walk_eq, hOrder]
  rfl

/- The entries are the positions of the grove that start one. -/
theorem entries_eq (h : f.Shows g) :
    f.entries = g.positions.filter f.startsAt := by
  unfold entries
  rw [h.preorder_positions]

end Shows

end Forest

------------------------------------------------------------
-- Trees from What Was Started
------------------------------------------------------------

/-
  An activation as it is found, with the number of the activation
  around it.
-/
abbrev Start := Option Nat × Activation

/- The numbers of the activations with a certain one around them. -/
def startedBy
    (starts : List Start)
    (owner : Option Nat) : List Nat :=
  (starts.zipIdx.filter fun x => decide (x.1.1 = owner)).map
    Prod.snd

/-
  Every activation is found after the one around it. The first
  one has the number `n`.
-/
def OwnersFirst
    (n : Nat)
    (starts : List Start) : Prop :=
  ∀ m s, starts[m]? = some s → ∀ o, s.1 = some o → o < n + m

section Starts

variable {starts others : List Start}
variable {owner : Option Nat}
variable {m n : Nat}

/- One more activation may have a certain one around it. -/
theorem startedBy_snoc
    (s : Start) :
    startedBy (starts ++ [s]) owner
      = startedBy starts owner
        ++ if s.1 = owner then [starts.length] else [] := by
  unfold startedBy
  rw [List.zipIdx_append, List.filter_append, List.map_append]
  by_cases h : s.1 = owner
  · simp [h]
  · simp [h]

/- Which activations have a certain one around them. -/
theorem mem_startedBy :
    m ∈ startedBy starts owner ↔
      ∃ s, starts[m]? = some s ∧ s.1 = owner := by
  unfold startedBy
  simp [List.mem_zipIdx_iff_getElem?]

/- The numbers of activations increase. -/
theorem pairwise_startedBy :
    (startedBy starts owner).Pairwise (· < ·) := by
  have hAll : (starts.zipIdx.map Prod.snd).Pairwise (· < ·) := by
    rw [List.zipIdx_map_snd]
    exact List.pairwise_lt_range'
  exact hAll.sublist (List.filter_sublist.map Prod.snd)

/- Activations in order may be followed by others in order. -/
theorem OwnersFirst.append
    (h : OwnersFirst n starts)
    (h' : OwnersFirst (n + starts.length) others) :
    OwnersFirst n (starts ++ others) := by
  intro m s hAt o hOwner
  by_cases hm : m < starts.length
  · rw [List.getElem?_append_left hm] at hAt
    exact h m s hAt o hOwner
  · have hLe := Nat.le_of_not_lt hm
    rw [List.getElem?_append_right hLe] at hAt
    have hLt := h' _ s hAt o hOwner
    omega

end Starts

namespace ActivationTree

/- Add an activation that was found. -/
def plant
    (t : ActivationTree)
    (s : Start) : ActivationTree :=
  t.push s.1 s.2

/- The tree of the activations that were found. -/
def ofStarts (starts : List Start) : ActivationTree :=
  starts.foldl plant {}

variable {starts : List Start}

/- There is one activation more. -/
theorem size_plant
    (t : ActivationTree)
    (s : Start) : (t.plant s).nodes.size = t.nodes.size + 1 := by
  unfold plant push
  cases s.1 <;> simp

/- There are as many activations more as were found. -/
theorem size_foldl_plant
    (t : ActivationTree)
    (starts : List Start) :
    (starts.foldl plant t).nodes.size
      = t.nodes.size + starts.length := by
  induction starts generalizing t with
  | nil => rfl
  | cons s starts ih =>
    rw [List.foldl_cons, ih, size_plant, List.length_cons]
    omega

/- A tree has the activations that were found. -/
theorem size_ofStarts (starts : List Start) :
    (ofStarts starts).nodes.size = starts.length := by
  unfold ofStarts
  rw [size_foldl_plant]
  exact Nat.zero_add _

/- The tree after one more activation. -/
theorem ofStarts_snoc (s : Start) :
    ofStarts (starts ++ [s]) = (ofStarts starts).plant s := by
  unfold ofStarts
  rw [List.foldl_append]
  rfl

/- The roots are what has no activation around it. -/
theorem roots_ofStarts (starts : List Start) :
    (ofStarts starts).roots.toList = startedBy starts none := by
  induction starts using List.reverseRecOn with
  | nil => rfl
  | append_singleton starts s ih =>
    rw [ofStarts_snoc, startedBy_snoc, ← ih, ← size_ofStarts]
    unfold plant push
    cases s.1 <;> simp

/-
  The activation with the number `k` among those that were found:
  below it are those that have it around them.
-/
def nodeOf
    (starts : List Start)
    (k : Nat)
    (s : Start) : Activation :=
  { s.2 with callees := (startedBy starts (some k)).toArray }

section NodeOf

variable {k : Nat}
variable {s : Start}

@[simp]
theorem nodeOf_enter : (nodeOf starts k s).enter = s.2.enter := rfl

@[simp]
theorem nodeOf_call : (nodeOf starts k s).call = s.2.call := rfl

@[simp]
theorem nodeOf_exit : (nodeOf starts k s).exit = s.2.exit := rfl

@[simp]
theorem nodeOf_callees :
    (nodeOf starts k s).callees.toList = startedBy starts (some k) :=
  rfl

end NodeOf

/- Add an activation that started while another one ran. -/
def withCallee
    (a : Activation)
    (i : Nat) : Activation :=
  { a with callees := a.callees.push i }

/- One more activation changes the one around it only. -/
theorem getElem?_plant
    (t : ActivationTree)
    (s : Start)
    (k : Nat) :
    (t.plant s).nodes[k]? =
      if k = t.nodes.size then some s.2
      else t.nodes[k]?.map fun a =>
        if s.1 = some k then withCallee a t.nodes.size else a := by
  unfold plant push
  cases s.1 with
  | none => simp [Array.getElem?_push]
  | some o =>
    simp only [Array.getElem?_push, Array.size_modify,
      Array.getElem?_modify]
    by_cases hHere : o = k
    · simp [hHere, withCallee]
    · simp [hHere]

/- An activation starts others only after it was started. -/
theorem startedBy_eq_nil
    (hOrdered : OwnersFirst 0 starts)
    {k : Nat}
    (h : starts.length ≤ k + 1) :
    startedBy starts (some k) = [] := by
  refine List.eq_nil_iff_forall_not_mem.mpr fun m hm => ?_
  rcases mem_startedBy.mp hm with ⟨s, hAt, hOwner⟩
  have hBound := (List.getElem?_eq_some_iff.mp hAt).1
  have hLt := hOrdered m s hAt k hOwner
  omega

/- An activation of the tree is the one that was found. -/
theorem getElem?_ofStarts
    (hOrdered : OwnersFirst 0 starts)
    (hBare : ∀ s ∈ starts, s.2.callees = #[])
    (k : Nat) :
    (ofStarts starts).nodes[k]?
      = starts[k]?.map (nodeOf starts k) := by
  induction starts using List.reverseRecOn with
  | nil => rfl
  | append_singleton starts s ih =>
    have hBefore : OwnersFirst 0 starts := by
      intro m s' hAt
      refine hOrdered m s' ?_
      rw [List.getElem?_append_left
        (List.getElem?_eq_some_iff.mp hAt).1, hAt]
    have hOthers : ∀ s ∈ starts, s.2.callees = #[] :=
      fun s hs => hBare s (List.mem_append_left _ hs)
    rw [ofStarts_snoc, getElem?_plant, size_ofStarts,
      ih hBefore hOthers]
    rcases Nat.lt_trichotomy k starts.length with hk | rfl | hk
    · rw [if_neg (Nat.ne_of_lt hk), List.getElem?_append_left hk,
        Option.map_map]
      refine congrArg (Option.map · starts[k]?) ?_
      funext s'
      unfold nodeOf
      rw [startedBy_snoc]
      by_cases hOwner : s.1 = some k
      · simp [hOwner, withCallee]
      · simp [hOwner]
    · have hNone : startedBy (starts ++ [s]) (some starts.length)
          = [] := startedBy_eq_nil hOrdered (by simp)
      have hFresh : s.2.callees = #[] := hBare s (by simp)
      rw [if_pos rfl, List.getElem?_concat_length, Option.map_some]
      unfold nodeOf
      rw [hNone, ← hFresh]
    · have hBeyond : (starts ++ [s]).length ≤ k := by
        rw [List.length_append]
        exact hk
      rw [if_neg (Nat.ne_of_gt hk),
        List.getElem?_eq_none (Nat.le_of_lt hk),
        List.getElem?_eq_none hBeyond]
      rfl

/- Every activation is a root or inside one other activation. -/
theorem startedBy_once (hOrdered : OwnersFirst 0 starts) :
    (startedBy starts none
      ++ (List.range starts.length).flatMap fun k =>
        startedBy starts (some k)).Perm
      (List.range starts.length) := by
  have hNodup : ∀ owner, (startedBy starts owner).Nodup :=
    fun owner => pairwise_startedBy.imp Nat.ne_of_lt
  have hApart : ∀ {owner owner'}, owner ≠ owner' →
      List.Disjoint (startedBy starts owner)
        (startedBy starts owner') := by
    intro owner owner' hOther m hm hm'
    rcases mem_startedBy.mp hm with ⟨s, hs, rfl⟩
    rcases mem_startedBy.mp hm' with ⟨s', hs', rfl⟩
    cases hs.symm.trans hs'
    exact hOther rfl
  refine (List.perm_ext_iff_of_nodup ?_ List.nodup_range).mpr
    fun m => ?_
  · refine List.Nodup.append (hNodup none) ?_ ?_
    · refine List.nodup_flatMap.mpr ⟨fun _ _ => hNodup _, ?_⟩
      refine List.nodup_range.imp fun hOther => hApart ?_
      exact fun hSame => hOther (Option.some.inj hSame)
    · intro m hm hInside
      rcases List.mem_flatMap.mp hInside with ⟨k, _, hk⟩
      exact hApart (Option.some_ne_none k).symm hm hk
  · simp only [List.mem_append, List.mem_flatMap, List.mem_range]
    constructor
    · rintro (hm | ⟨_, _, hm⟩)
      all_goals
        rcases mem_startedBy.mp hm with ⟨s, hs, _⟩
        exact (List.getElem?_eq_some_iff.mp hs).1
    · intro hm
      have hs := List.getElem?_eq_getElem hm
      cases hOwner : starts[m].1 with
      | none => exact .inl (mem_startedBy.mpr ⟨_, hs, hOwner⟩)
      | some k =>
        have hLt := hOrdered m _ hs k hOwner
        exact .inr ⟨k, by omega, mem_startedBy.mpr ⟨_, hs, hOwner⟩⟩

end ActivationTree

------------------------------------------------------------
-- What a Walk Starts
------------------------------------------------------------

namespace Surroundings

/-
  What is around the events below an event, where the next
  activation has the number `n`.
-/
def below
    (around : Surroundings)
    (n : Nat)
    (e : Event) : Surroundings :=
  match e.opens with
  | some .enter => { owner := some n, call := none }
  | some .call => { owner := around.owner, call := some e }
  | none => { owner := around.owner, call := none }

/- The activation that an event starts, if it starts one. -/
def start
    (around : Surroundings)
    (f : Forest)
    (i : Nat)
    (e : Event) : List Start :=
  if e.opens = some .enter then
    [(around.owner,
      { enter := e, call := around.call, exit := f.closing i e })]
  else []

/- A visit adds what an event starts. -/
theorem visit_eq
    (around : Surroundings)
    (f : Forest)
    (t : ActivationTree)
    (i : Nat)
    (e : Event) :
    f.visitActivation t i e around
      = ((around.start f i e).foldl ActivationTree.plant t,
        some (around.below t.nodes.size e)) := by
  unfold Forest.visitActivation start below
  split
  next hEnter => simp [hEnter, ActivationTree.plant]
  next hCall => simp [hCall]
  next hNone => simp [hNone]

end Surroundings

namespace Grove

variable {f : Forest}
variable {g : Grove}

/-
  The activations that the events of a grove start, depth first,
  where the first one has the number `n`.
-/
def starts
    (f : Forest)
    (around : Surroundings)
    (n : Nat) : Grove → List Start
  | empty => []
  | event i e below rest =>
    let here := around.start f i e
    let inside :=
      below.starts f (around.below n e) (n + here.length)
    here ++ (inside ++
      rest.starts f around (n + here.length + inside.length))

/- A walk adds the activations that the events start. -/
theorem walk_starts
    (g : Grove)
    (around : Surroundings)
    (t : ActivationTree) :
    g.walk f.visitActivation around t
      = (g.starts f around t.nodes.size).foldl
          ActivationTree.plant t := by
  induction g generalizing around t with
  | empty => rfl
  | event i e below rest ihBelow ihRest =>
    rw [walk, around.visit_eq]
    dsimp only
    rw [ihRest, ihBelow]
    simp only [starts, List.foldl_append,
      ActivationTree.size_foldl_plant]

/- Activations are found after those around them. -/
theorem ordered_starts
    (g : Grove)
    {around : Surroundings}
    {n : Nat}
    (hOwner : ∀ o, around.owner = some o → o < n) :
    OwnersFirst n (g.starts f around n) := by
  induction g generalizing around n with
  | empty =>
    intro m s hAt
    cases hAt
  | event i e below rest ihBelow ihRest =>
    have hHere : OwnersFirst n (around.start f i e) := by
      unfold Surroundings.start
      intro m s hAt o ho
      split at hAt
      · have hOnly := List.mem_of_getElem? hAt
        cases List.mem_singleton.mp hOnly
        exact Nat.lt_add_right m (hOwner o ho)
      · simp at hAt
    have hInside : ∀ o, (around.below n e).owner = some o →
        o < n + (around.start f i e).length := by
      unfold Surroundings.below Surroundings.start
      intro o ho
      split at ho
      next hEnter =>
        cases ho
        simp [hEnter]
      next => exact Nat.lt_add_right _ (hOwner o ho)
      next => exact Nat.lt_add_right _ (hOwner o ho)
    refine hHere.append ((ihBelow hInside).append (ihRest ?_))
    intro o ho
    have hLt := hOwner o ho
    omega

/- Nothing is around the activations of a whole grove. -/
theorem starts_ordered (g : Grove) :
    OwnersFirst 0 (g.starts f {} 0) :=
  g.ordered_starts nofun

end Grove

namespace Forest

/- The event at a position, if it is a call. -/
def callAt
    (f : Forest)
    (p : Option Nat) : Option Event :=
  (p.bind fun i => f.nodes[i]?).filter fun e =>
    decide (e.opens = some .call)

end Forest

/-
  Whether an activation that was found belongs to an entry of a
  grove: the number of the activation around it stands for the
  host of the entry, its call is the parent of the entry, and its
  events are those of the entry. The entries by their numbers are
  `numbers`, what is around the grove are `host` and `parent`.
-/
structure Start.Suits
    (f : Forest)
    (numbers : List Nat)
    (host parent : Option Nat)
    (g : Grove)
    (s : Start)
    (i : Nat) : Prop where
  hosted : g.Around Forest.hostStep host i
    (s.1.bind fun k => numbers[k]?)
  called : ∃ p, g.Around Forest.parentStep parent i p ∧
    s.2.call = f.callAt p
  node : f.nodes[i]? = some s.2.enter
  closed : s.2.exit = f.closing i s.2.enter
  bare : s.2.callees = #[]

namespace Start.Suits

variable {f : Forest}
variable {numbers : List Nat}
variable {host parent : Option Nat}
variable {below rest : Grove}
variable {s : Start}
variable {i j : Nat}
variable {e : Event}

/- An entry below an event is one of the grove. -/
theorem inside
    (h : Suits f numbers (Forest.hostStep i e host) (some i) below
      s j) :
    Suits f numbers host parent (.event i e below rest) s j where
  hosted := .inr (.inl h.hosted)
  called := by
    rcases h.called with ⟨p, hp, hCall⟩
    exact ⟨p, .inr (.inl hp), hCall⟩
  node := h.node
  closed := h.closed
  bare := h.bare

/- An entry behind an event is one of the grove. -/
theorem behind
    (h : Suits f numbers host parent rest s j) :
    Suits f numbers host parent (.event i e below rest) s j where
  hosted := .inr (.inr h.hosted)
  called := by
    rcases h.called with ⟨p, hp, hCall⟩
    exact ⟨p, .inr (.inr hp), hCall⟩
  node := h.node
  closed := h.closed
  bare := h.bare

end Start.Suits

namespace Grove

variable {f : Forest}
variable {numbers : List Nat}

/- What an event starts is the activation of its entry, if any. -/
theorem suits_start
    {i : Nat}
    {e : Event}
    {below rest : Grove}
    (hNode : f.nodes[i]? = some e)
    {host parent : Option Nat}
    {around : Surroundings}
    (hHost : (around.owner.bind fun k => numbers[k]?) = host)
    (hParent : around.call = f.callAt parent) :
    List.Forall₂
      (Start.Suits f numbers host parent (.event i e below rest))
      (around.start f i e) ([i].filter f.startsAt) := by
  unfold Surroundings.start
  by_cases hEnter : e.opens = some .enter
  · rw [if_pos hEnter, List.filter_cons_of_pos
      (Forest.startsAt_of_enter hNode hEnter)]
    refine .cons ?_ .nil
    exact
      { hosted := .inl ⟨rfl, hHost⟩
        called := ⟨parent, .inl ⟨rfl, rfl⟩, hParent⟩
        node := hNode
        closed := rfl
        bare := rfl }
  · have hOther : ¬ f.startsAt i = true := by
      rw [Forest.startsAt_eq hNode, decide_eq_true_iff]
      exact hEnter
    rw [if_neg hEnter, List.filter_cons_of_neg hOther]
    exact .nil

/- Below an event, its number stands for the host. -/
theorem host_below
    {i : Nat}
    {e : Event}
    (hNode : f.nodes[i]? = some e)
    {host : Option Nat}
    {around : Surroundings}
    {before after : List Nat}
    (hNumbers : numbers = before ++ [i].filter f.startsAt ++ after)
    (hHost : (around.owner.bind fun k => numbers[k]?) = host) :
    ((around.below before.length e).owner.bind fun k => numbers[k]?)
      = Forest.hostStep i e host := by
  unfold Surroundings.below Forest.hostStep
  split
  next hEnter =>
    rw [List.filter_cons_of_pos
      (Forest.startsAt_of_enter hNode hEnter)] at hNumbers
    simp [hNumbers, hEnter]
  next hCall => simp [hCall, hHost]
  next hNone => simp [hNone, hHost]

/- Below an event, it is the parent. -/
theorem call_below
    {i : Nat}
    {e : Event}
    (hNode : f.nodes[i]? = some e)
    (around : Surroundings)
    (n : Nat) : (around.below n e).call = f.callAt (some i) := by
  unfold Surroundings.below Forest.callAt
  rw [Option.bind_some, hNode]
  split
  next hEnter => simp [Option.filter, hEnter]
  next hCall => simp [Option.filter, hCall]
  next hNone => simp [Option.filter, hNone]

/-
  The activations that are found are those of the entries of a
  grove, one for each and in their order. The numbers of the
  activations follow the order of the entries, and those of the
  grove come behind `before`.
-/
theorem suits_starts
    {g : Grove}
    (hShown : g.ShownIn f)
    {host parent : Option Nat}
    {around : Surroundings}
    {before after : List Nat}
    (hNumbers : numbers
      = before ++ g.positions.filter f.startsAt ++ after)
    (hHost : (around.owner.bind fun k => numbers[k]?) = host)
    (hParent : around.call = f.callAt parent) :
    List.Forall₂ (Start.Suits f numbers host parent g)
      (g.starts f around before.length)
      (g.positions.filter f.startsAt) := by
  induction g generalizing host parent around before after with
  | empty => exact .nil
  | event i e below rest ihBelow ihRest =>
    rcases hShown with ⟨hNode, _, hBelow, hRest⟩
    have hEntries : (event i e below rest).positions.filter f.startsAt
        = [i].filter f.startsAt
          ++ (below.positions.filter f.startsAt
            ++ rest.positions.filter f.startsAt) := by
      rw [positions, ← List.singleton_append, List.filter_append,
        List.filter_append]
    rw [hEntries] at hNumbers ⊢
    have hHere : List.Forall₂
        (Start.Suits f numbers host parent (.event i e below rest))
        (around.start f i e) ([i].filter f.startsAt) :=
      suits_start hNode hHost hParent
    have hFirst : numbers = before ++ [i].filter f.startsAt
        ++ (below.positions.filter f.startsAt
          ++ (rest.positions.filter f.startsAt ++ after)) := by
      simp [hNumbers]
    have hSecond : numbers = (before ++ [i].filter f.startsAt)
        ++ below.positions.filter f.startsAt
        ++ (rest.positions.filter f.startsAt ++ after) := by
      simp [hNumbers]
    have hThird : numbers = (before ++ [i].filter f.startsAt
          ++ below.positions.filter f.startsAt)
        ++ rest.positions.filter f.startsAt ++ after := by
      simp [hNumbers]
    have hInside := ihBelow hBelow hSecond
      (host_below hNode hFirst hHost)
      (call_below hNode around before.length)
    have hBehind := ihRest hRest hThird hHost hParent
    rw [List.length_append, ← hHere.length_eq] at hInside
    rw [List.length_append, List.length_append, ← hHere.length_eq,
      ← hInside.length_eq] at hBehind
    refine List.rel_append hHere (List.rel_append ?_ ?_)
    · exact hInside.imp fun _ _ h => h.inside
    · exact hBehind.imp fun _ _ h => h.behind

end Grove

------------------------------------------------------------
-- The Tree of a Forest
------------------------------------------------------------

/-
  An activation tree condenses a forest: it has one activation
  for each event that starts one, depth first. One activation is
  below another exactly if the other's event is the innermost one
  around its own that starts an activation, and it is a root if
  there is none. Roots and callees are listed depth first, each
  activation once, and after the one around it. The call of an
  activation is the parent of its event, if that is a call, and
  its exit is the last event below, if that closes its frame.
-/
structure ActivationTree.Condenses
    (t : ActivationTree)
    (f : Forest) : Prop where
  entries : f.entries.Perm ((List.range f.size).filter f.startsAt)
  entered : t.nodes.toList.map (fun a => some a.enter)
    = f.entries.map fun i => f.nodes[i]?
  callees : ∀ (k : Nat) (a : Activation) (i : Nat),
    t.nodes[k]? = some a → f.entries[k]? = some i →
      ∀ m, m ∈ a.callees.toList ↔
        ∃ j, f.entries[m]? = some j ∧ f.Hosts i j
  roots : ∀ m, m ∈ t.roots.toList ↔
    ∃ j, f.entries[m]? = some j ∧ ∀ i, ¬ f.Hosts i j
  rootsOrdered : t.roots.toList.Pairwise (· < ·)
  calleesOrdered : ∀ a ∈ t.nodes.toList,
    a.callees.toList.Pairwise (· < ·)
  later : ∀ (k : Nat) (a : Activation), t.nodes[k]? = some a →
    ∀ m ∈ a.callees.toList, k < m
  once : (t.roots.toList
      ++ t.nodes.toList.flatMap fun a => a.callees.toList).Perm
    (List.range t.nodes.size)
  call : ∀ (k : Nat) (a : Activation) (i : Nat),
    t.nodes[k]? = some a → f.entries[k]? = some i →
      ∀ c, a.call = some c ↔
        ∃ p, i ∈ f.childrenAt p ∧ f.nodes[p]? = some c ∧
          c.opens = some .call
  exit : ∀ (k : Nat) (a : Activation) (i : Nat),
    t.nodes[k]? = some a → f.entries[k]? = some i →
      ∀ x, a.exit = some x ↔
        ∃ j, (f.childrenAt i).getLast? = some j ∧
          f.nodes[j]? = some x ∧ x.closes = some a.enter.id

namespace Forest

variable {f : Forest}
variable {g : Grove}

/- An event closes a frame if it is the last one below and says so. -/
theorem closing_eq_some
    {i : Nat}
    {e x : Event} :
    f.closing i e = some x ↔
      ∃ j, (f.childrenAt i).getLast? = some j ∧
        f.nodes[j]? = some x ∧ x.closes = some e.id := by
  have hLast : f.lastChild? i
      = (f.childrenAt i).getLast?.bind fun j => f.nodes[j]? := by
    unfold lastChild? childrenAt
    cases f.children[i]? with
    | none => rfl
    | some cs =>
      rw [Array.getLast?_toList]
      cases hBack : cs.back? <;> simp [hBack]
  unfold closing
  rw [hLast]
  cases (f.childrenAt i).getLast? with
  | none => simp
  | some j =>
    simp only [Option.bind_some, Option.some.injEq, exists_eq_left']
    cases f.nodes[j]? with
    | none => simp
    | some last =>
      simp only [Option.some.injEq]
      split
      next hClose =>
        constructor
        · rintro ⟨⟩
          exact ⟨rfl, hClose⟩
        · exact fun h => congrArg some h.1
      next hOther =>
        constructor
        · exact nofun
        · rintro ⟨rfl, hClose⟩
          exact absurd hClose hOther

namespace Shows

/- The activations of a forest are the tree of those found. -/
theorem activations_eq (h : f.Shows g) :
    f.activations = .ofStarts (g.starts f {} 0) := by
  unfold activations
  rw [h.walk_eq, g.walk_starts]
  rfl

/- The activations that are found are those of the entries. -/
theorem suits (h : f.Shows g) :
    List.Forall₂ (Start.Suits f f.entries none none g)
      (g.starts f {} 0) f.entries := by
  have hNumbers : f.entries
      = [] ++ g.positions.filter f.startsAt ++ [] := by
    simp [h.entries_eq]
  have hHost : (({} : Surroundings).owner.bind fun k => f.entries[k]?)
      = none := rfl
  have hParent : ({} : Surroundings).call = f.callAt none := rfl
  have hSuits := Grove.suits_starts h.shown hNumbers hHost hParent
  rw [← h.entries_eq] at hSuits
  exact hSuits

/- No entry occurs twice. -/
theorem nodup_entries (h : f.Shows g) : f.entries.Nodup := by
  rw [h.entries_eq]
  exact h.nodup.filter _

variable {s : Start}
variable {i j k m : Nat}

/- What was found with a number belongs to the entry with it. -/
theorem suits_at
    (h : f.Shows g)
    (hs : (g.starts f {} 0)[m]? = some s)
    (hj : f.entries[m]? = some j) :
    s.Suits f f.entries none none g j := by
  rcases List.forall₂_iff_get.mp h.suits with ⟨_, hAll⟩
  rcases List.getElem?_eq_some_iff.mp hs with ⟨hm, rfl⟩
  rcases List.getElem?_eq_some_iff.mp hj with ⟨hm', rfl⟩
  exact hAll m hm hm'

/- Something was found for every entry. -/
theorem start_of_entry
    (h : f.Shows g)
    (hj : f.entries[m]? = some j) :
    ∃ s, (g.starts f {} 0)[m]? = some s := by
  have hm := (List.getElem?_eq_some_iff.mp hj).1
  rw [← h.suits.length_eq] at hm
  exact ⟨_, List.getElem?_eq_getElem hm⟩

/- There is an entry for everything that was found. -/
theorem entry_of_start
    (h : f.Shows g)
    (hs : (g.starts f {} 0)[m]? = some s) :
    ∃ j, f.entries[m]? = some j := by
  have hm := (List.getElem?_eq_some_iff.mp hs).1
  rw [h.suits.length_eq] at hm
  exact ⟨_, List.getElem?_eq_getElem hm⟩

/- An activation is found inside the one that hosts its entry. -/
theorem owner_eq_some
    (h : f.Shows g)
    (hs : (g.starts f {} 0)[m]? = some s)
    (hj : f.entries[m]? = some j)
    (hi : f.entries[k]? = some i) :
    s.1 = some k ↔ f.Hosts i j := by
  have hHosted := (h.suits_at hs hj).hosted
  rw [← h.around_host]
  constructor
  · intro hOwner
    rwa [hOwner, Option.bind_some, hi] at hHosted
  · intro hHost
    have hSame := hHosted.unique h.nodup hHost
    rcases Option.bind_eq_some_iff.mp hSame with ⟨k', hOwner, hk'⟩
    have hBound := (List.getElem?_eq_some_iff.mp hk').1
    have hNumber := (List.getElem?_inj hBound h.nodup_entries).mp
      (hk'.trans hi.symm)
    rw [hOwner, hNumber]

/- An activation is found outside of all if nothing hosts it. -/
theorem owner_eq_none
    (h : f.Shows g)
    (hs : (g.starts f {} 0)[m]? = some s)
    (hj : f.entries[m]? = some j) :
    s.1 = none ↔ ∀ i, ¬ f.Hosts i j := by
  constructor
  · intro hNone i hHost
    have hHosted := (h.suits_at hs hj).hosted
    rw [hNone] at hHosted
    exact nomatch hHosted.unique h.nodup (h.around_host.mpr hHost)
  · intro hNone
    cases hOwner : s.1 with
    | none => rfl
    | some k =>
      have hLt := g.starts_ordered m s hs k hOwner
      have hm := (List.getElem?_eq_some_iff.mp hj).1
      have hk : k < f.entries.length := by omega
      refine absurd ?_ (hNone f.entries[k])
      exact (h.owner_eq_some hs hj
        (List.getElem?_eq_getElem hk)).mp hOwner

/- The activation with a number is what was found with it. -/
theorem getElem?_activations
    (h : f.Shows g)
    (k : Nat) :
    f.activations.nodes[k]?
      = (g.starts f {} 0)[k]?.map
          (ActivationTree.nodeOf (g.starts f {} 0) k) := by
  have hBare : ∀ s ∈ g.starts f {} 0, s.2.callees = #[] := by
    intro s hs
    rcases List.getElem?_of_mem hs with ⟨m, hm⟩
    rcases h.entry_of_start hm with ⟨j, hj⟩
    exact (h.suits_at hm hj).bare
  rw [h.activations_eq,
    ActivationTree.getElem?_ofStarts g.starts_ordered hBare]

/- An activation was found with its number. -/
theorem activation_at
    (h : f.Shows g)
    {a : Activation}
    (ha : f.activations.nodes[k]? = some a) :
    ∃ s, (g.starts f {} 0)[k]? = some s ∧
      a = ActivationTree.nodeOf (g.starts f {} 0) k s := by
  rw [h.getElem?_activations] at ha
  rcases Option.map_eq_some_iff.mp ha with ⟨s, hs, rfl⟩
  exact ⟨s, hs, rfl⟩

/- The call of an activation is the parent of its entry. -/
theorem call_of_parent
    (h : f.Shows g)
    {p : Option Nat}
    {c : Event}
    (hParent : g.Around parentStep none i p) :
    f.callAt p = some c ↔
      ∃ q, i ∈ f.childrenAt q ∧ f.nodes[q]? = some c ∧
        c.opens = some .call := by
  unfold callAt
  simp only [Option.filter_eq_some_iff, Option.bind_eq_some_iff,
    decide_eq_true_eq]
  constructor
  · rintro ⟨⟨q, rfl, hNode⟩, hCall⟩
    exact ⟨q, (h.around_parent hNode).mp hParent, hNode, hCall⟩
  · rintro ⟨q, hChild, hNode, hCall⟩
    have hSame := (h.around_parent hNode).mpr hChild
    exact ⟨⟨q, hParent.unique h.nodup hSame, hNode⟩, hCall⟩

/- There are as many activations as were found. -/
theorem size_activations (h : f.Shows g) :
    f.activations.nodes.size = (g.starts f {} 0).length := by
  rw [h.activations_eq, ActivationTree.size_ofStarts]

/- What no activation is around are the roots. -/
theorem roots_activations (h : f.Shows g) :
    f.activations.roots.toList
      = startedBy (g.starts f {} 0) none := by
  rw [h.activations_eq, ActivationTree.roots_ofStarts]

/- The activations are those that were found, in their order. -/
theorem activations_toList (h : f.Shows g) :
    f.activations.nodes.toList
      = (g.starts f {} 0).mapIdx
          (ActivationTree.nodeOf (g.starts f {} 0)) := by
  refine List.ext_getElem? fun k => ?_
  rw [Array.getElem?_toList, h.getElem?_activations,
    List.getElem?_mapIdx]

/- The events of the activations are those of the entries. -/
theorem entered_activations (h : f.Shows g) :
    f.activations.nodes.toList.map (fun a => some a.enter)
      = f.entries.map fun i => f.nodes[i]? := by
  rw [h.activations_toList]
  refine List.ext_getElem? fun k => ?_
  rw [List.getElem?_map, List.getElem?_mapIdx, List.getElem?_map]
  cases hj : f.entries[k]? with
  | none =>
    have hs : (g.starts f {} 0)[k]? = none := by
      rw [List.getElem?_eq_none_iff, h.suits.length_eq]
      exact List.getElem?_eq_none_iff.mp hj
    rw [hs]
    rfl
  | some j =>
    rcases h.start_of_entry hj with ⟨s, hs⟩
    have hNode := (h.suits_at hs hj).node
    simp only [hs, Option.map_some, ActivationTree.nodeOf_enter,
      hNode]

/- Every activation is a root or a callee of one other. -/
theorem once_activations (h : f.Shows g) :
    (f.activations.roots.toList
        ++ f.activations.nodes.toList.flatMap fun a =>
          a.callees.toList).Perm
      (List.range f.activations.nodes.size) := by
  have hCallees : (f.activations.nodes.toList.map fun a =>
      a.callees.toList)
      = (List.range (g.starts f {} 0).length).map fun k =>
        startedBy (g.starts f {} 0) (some k) := by
    rw [h.activations_toList]
    refine List.ext_getElem? fun k => ?_
    rw [List.getElem?_map, List.getElem?_mapIdx, List.getElem?_map]
    by_cases hk : k < (g.starts f {} 0).length
    · simp [List.getElem?_range hk, List.getElem?_eq_getElem hk]
    · simp [hk]
  rw [h.roots_activations, h.size_activations, List.flatMap_def,
    hCallees, ← List.flatMap_def]
  exact ActivationTree.startedBy_once g.starts_ordered

end Shows

/-
  The activation tree of every forest that comes about condenses
  the forest.
-/
theorem activations_condense
    (h : f.Grown) : f.activations.Condenses f := by
  rcases h.shows with ⟨g, h⟩
  refine
    { entries := ?_, entered := ?_, callees := ?_, roots := ?_
      rootsOrdered := ?_, calleesOrdered := ?_, later := ?_
      once := ?_, call := ?_, exit := ?_ }
  · rw [h.entries_eq]
    exact h.all.filter _
  · exact h.entered_activations
  · intro k a i ha hi m
    rcases h.activation_at ha with ⟨s, hs, rfl⟩
    rw [ActivationTree.nodeOf_callees, mem_startedBy]
    constructor
    · rintro ⟨s', hs', hOwner⟩
      rcases h.entry_of_start hs' with ⟨j, hj⟩
      exact ⟨j, hj, (h.owner_eq_some hs' hj hi).mp hOwner⟩
    · rintro ⟨j, hj, hHost⟩
      rcases h.start_of_entry hj with ⟨s', hs'⟩
      exact ⟨s', hs', (h.owner_eq_some hs' hj hi).mpr hHost⟩
  · intro m
    rw [h.roots_activations, mem_startedBy]
    constructor
    · rintro ⟨s, hs, hOwner⟩
      rcases h.entry_of_start hs with ⟨j, hj⟩
      exact ⟨j, hj, (h.owner_eq_none hs hj).mp hOwner⟩
    · rintro ⟨j, hj, hNone⟩
      rcases h.start_of_entry hj with ⟨s, hs⟩
      exact ⟨s, hs, (h.owner_eq_none hs hj).mpr hNone⟩
  · rw [h.roots_activations]
    exact pairwise_startedBy
  · intro a ha
    rw [h.activations_toList] at ha
    rcases List.mem_mapIdx.mp ha with ⟨k, _, rfl⟩
    exact pairwise_startedBy
  · intro k a ha m hm
    rcases h.activation_at ha with ⟨s, hs, rfl⟩
    rw [ActivationTree.nodeOf_callees] at hm
    rcases mem_startedBy.mp hm with ⟨s', hs', hOwner⟩
    simpa using g.starts_ordered m s' hs' k hOwner
  · exact h.once_activations
  · intro k a i ha hi c
    rcases h.activation_at ha with ⟨s, hs, rfl⟩
    rcases (h.suits_at hs hi).called with ⟨p, hp, hCall⟩
    rw [ActivationTree.nodeOf_call, hCall]
    exact h.call_of_parent hp
  · intro k a i ha hi x
    rcases h.activation_at ha with ⟨s, hs, rfl⟩
    rw [ActivationTree.nodeOf_exit, (h.suits_at hs hi).closed,
      closing_eq_some]
    rfl

/-
  A method that calls another one, which is entered once more
  from code that is not traced before it exits.
-/
def callback : Forest :=
  let m : Callee := ⟨"A", "m", "()"⟩
  let action := fun (n : UInt64) parent a =>
    (⟨⟨n⟩, parent, .action a .unknown⟩ : Event)
  empty
    |>.push none (action 1 none (.enter m []))
    |>.push (some 0) (action 2 (some ⟨1⟩) (.call m none []))
    |>.push (some 1) (action 3 (some ⟨2⟩) (.enter m []))
    |>.push (some 2)
      (action 4 (some ⟨3⟩) (.enter m [{ cls := "B", method := "n" }]))
    |>.push (some 3)
      (action 5 (some ⟨4⟩) (.exit ⟨4⟩ "m" .endOfBody))
    |>.push (some 2)
      (action 6 (some ⟨3⟩) (.exit ⟨3⟩ "m" .endOfBody))

/- The tree of this forest is a chain of three activations. -/
theorem activations_condense_callback :
    (callback.Grown
      ∧ callback.activations.roots = #[0]
      ∧ callback.activations.nodes.toList.map Activation.callees
        = [#[1], #[2], #[]])
    ∧ callback.activations.Condenses callback := by
  have hGrown : callback.Grown := by
    unfold callback
    refine .push _ (.push _ (.push _ (.push _ (.push _
      (.push _ .empty nofun) ?_) ?_) ?_) ?_) ?_
    all_goals
      rintro p ⟨⟩
      decide
  exact ⟨⟨hGrown, by decide, by decide⟩,
    activations_condense hGrown⟩

end Forest

end ExecTrace
