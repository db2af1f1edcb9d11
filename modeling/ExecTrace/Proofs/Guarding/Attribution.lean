import ExecTrace.Proofs.Activations
import ExecTrace.Proofs.Guarding.Brackets

/-
  Who started an activation. The call around an activation is a
  guess by the place of its event, since other activations can be
  below the same call: those of constructors above a class, of
  conversions to text, and of methods that code without probes
  calls. An activation that names no frames without probes was
  started by the call itself: it is the only one that the call
  started, has the name that is called, and takes the arguments.

  Main declarations:
    * `Kept.free` and `Kept.answered`
    * `Recorder.Sound.parent_of_child`
    * `direct_activations_answer`
-/

namespace ExecTrace

------------------------------------------------------------
-- Direct Starts
------------------------------------------------------------

/- Whether an event starts an activation without frames around it. -/
def Event.Direct (e : Event) : Prop :=
  ∃ callee, e.action? = some (.enter callee [])

/- Whether a tier is a call that started no activation directly. -/
def Role.Free : Role → Prop
  | .call _ _ direct _ => direct = false
  | .enter .. => False

/-
  A direct start answers the call around it: it has the name of
  the call, takes the arguments, and there is no other one.
-/
def Answered
    (p : Program)
    (es : List Event)
    (e : Event)
    (callee : Callee) : Prop :=
  ∀ d ∈ es, e.parent = some d.id → ∀ called receiver args,
    d.action? = some (.call called receiver args) →
      called.method = callee.method ∧ p.Takes callee args.length ∧
        ∀ e' ∈ es, e'.Direct → e'.parent = e.parent → e' = e

section Steps

variable {p : Program}
variable {strict : Bool}
variable {es : List Event}
variable {tiers tiers' : List Tier}
variable {d e : Event}
variable {t : Tier}
variable {callee : Callee}

/- A direct start answers the innermost tier. -/
theorem Step.answers
    (h : Step p strict tiers e tiers')
    (he : e.action? = some (.enter callee [])) :
    AskedFor p callee tiers := by
  cases h with
  | inner hOpens => simp [Event.opens, he, Action.opens] at hOpens
  | call ha => simp [he] at ha
  | enter ha hDirect =>
    rw [he] at ha
    cases ha
    exact hDirect rfl
  | exit ha => simp [he] at ha
  | resume ha => simp [he] at ha

/-
  A call that started nothing directly is new, or it was one
  before. A direct start is not the start by such a call.
-/
theorem Step.free
    (h : Step p strict tiers e tiers')
    (ht : t ∈ tiers')
    (hFree : t.role.Free) :
    (t.frame.owner = e.id ∧ ¬ e.Direct) ∨
      ∃ t' ∈ tiers, t'.frame = t.frame ∧ t'.role.Free ∧
        (e.Direct → t' ∈ tiers.tail) := by
  cases h with
  | inner hOpens =>
    refine .inr ⟨t, ht, rfl, hFree, ?_⟩
    rintro ⟨callee, he⟩
    simp [Event.opens, he, Action.opens] at hOpens
  | call ha =>
    have hOther : ¬ e.Direct := fun ⟨_, he⟩ => by simp [he] at ha
    rcases List.mem_cons.mp ht with rfl | ht
    · exact .inl ⟨rfl, hOther⟩
    · exact .inr ⟨t, ht, rfl, hFree, fun hDirect => absurd hDirect hOther⟩
  | @enter _ _ callee enclosing _ ha =>
    rcases List.mem_cons.mp ht with rfl | ht
    · exact hFree.elim
    refine .inr ?_
    split at ht
    · -- The innermost call is not free any more.
      rcases tiers with _ | ⟨⟨frame, role⟩, rest⟩
      · cases ht
      cases role <;> rcases List.mem_cons.mp ht with rfl | ht
      · cases hFree
      · exact ⟨t, List.mem_cons_of_mem _ ht, rfl, hFree, fun _ => ht⟩
      · exact hFree.elim
      · exact ⟨t, List.mem_cons_of_mem _ ht, rfl, hFree, fun _ => ht⟩
    · rename_i hSome
      refine ⟨t, ht, rfl, hFree, ?_⟩
      rintro ⟨_, he⟩
      rw [he] at ha
      cases ha
      exact absurd rfl hSome
  | exit ha =>
    have hOther : ¬ e.Direct := fun ⟨_, he⟩ => by simp [he] at ha
    refine .inr ?_
    unfold settled at ht
    split at ht
    · rcases List.mem_cons.mp ht with rfl | ht
      · exact ⟨_, List.mem_cons_of_mem _ List.mem_cons_self, rfl, hFree,
          fun hDirect => absurd hDirect hOther⟩
      · exact ⟨t, List.mem_cons_of_mem _ (List.mem_cons_of_mem _ ht),
          rfl, hFree, fun hDirect => absurd hDirect hOther⟩
    · exact ⟨t, List.mem_cons_of_mem _ ht, rfl, hFree,
        fun hDirect => absurd hDirect hOther⟩
  | resume ha =>
    refine .inr ⟨t, List.mem_cons_of_mem _ ht, rfl, hFree, ?_⟩
    rintro ⟨_, he⟩
    simp [he] at ha

namespace Kept

/- A call that is free has started nothing directly. -/
theorem free
    (h : Kept p strict es tiers)
    (ht : t ∈ tiers)
    (hFree : t.role.Free)
    (he : e ∈ es)
    (hDirect : e.Direct) : e.parent ≠ some t.frame.owner := by
  induction h generalizing t with
  | start hAction =>
    cases ht
  | @step es x tiers _ hKept hLater hHead hStep ih =>
    simp only [List.mem_append, List.mem_singleton] at he
    rcases hStep.free ht hFree with ⟨hNew, hOther⟩ |
      ⟨t', ht', hSame, hFree', hTail⟩
    · rcases he with he | rfl
      · intro hParent
        rcases hKept.parents he hParent with ⟨d, hd, hId, _⟩
        have hLess := hLater d hd
        rw [hId, hNew] at hLess
        exact UInt64.lt_irrefl _ hLess
      · exact absurd hDirect hOther
    · rw [← hSame]
      rcases he with he | rfl
      · exact ih ht' hFree' he
      · -- The start is the one of the innermost call.
        have hBehind := hTail hDirect
        have hOwners := hKept.nodup_owners
        rcases tiers with _ | ⟨first, rest⟩
        · cases ht'
        · rw [hHead]
          rintro hParent
          simp only [List.head?_cons, Option.map_some,
            Option.some.injEq] at hParent
          simp only [List.map_cons, List.nodup_cons] at hOwners
          refine hOwners.1 (hParent ▸ ?_)
          exact List.mem_map_of_mem (List.mem_map_of_mem hBehind)

/- A direct start is asked for by a call that is free. -/
theorem asked
    {called : Callee}
    {receiver : Option Snapshot}
    {args : List Snapshot}
    (h : Kept p strict es tiers)
    (hHead : e.parent = tiers.head?.map fun t => t.frame.owner)
    (hStep : Step p strict tiers e tiers')
    (hEnter : e.action? = some (.enter callee []))
    (hd : d ∈ es)
    (hParent : e.parent = some d.id)
    (hCall : d.action? = some (.call called receiver args)) :
    ∃ t ∈ tiers, t.frame.owner = d.id ∧ t.role.Free ∧
      called.method = callee.method ∧ p.Takes callee args.length := by
  rw [hParent] at hHead
  rcases tiers with _ | ⟨⟨frame, role⟩, rest⟩
  · cases hHead
  · have hOwner : frame.owner = d.id := (Option.some.inj hHead).symm
    rcases h.call_of_owner List.mem_cons_self hd hOwner hCall with
      ⟨direct, child, rfl⟩
    have hAnswers := hStep.answers hEnter
    exact ⟨_, List.mem_cons_self, hOwner, hAnswers⟩

/- Direct starts answer the calls around them. -/
theorem answered
    (h : Kept p strict es tiers)
    (he : e ∈ es)
    (hEnter : e.action? = some (.enter callee [])) :
    Answered p es e callee := by
  induction h generalizing e callee with
  | start hAction =>
    rw [List.mem_singleton.mp he, hAction] at hEnter
    cases hEnter
  | @step es x tiers _ hKept hLater hHead hStep ih =>
    intro d hd hParent called receiver args hCall
    -- The call stands in front of the events that it is around.
    have hOld : d ∈ es := by
      rcases List.mem_append.mp hd with hd | hd
      · exact hd
      · rw [List.mem_singleton.mp hd] at hParent
        exact absurd hParent
          ((hKept.step hLater hHead hStep).childless hLater he)
    simp only [List.mem_append, List.mem_singleton] at he ⊢
    rcases he with he | rfl
    · rcases ih he hEnter d hOld hParent called receiver args hCall with
        ⟨hName, hTakes, hOnly⟩
      refine ⟨hName, hTakes, ?_⟩
      rintro e' (he' | rfl) hDirect hSame
      · exact hOnly e' he' hDirect hSame
      · rcases hDirect with ⟨callee', hEnter'⟩
        rcases hKept.asked hHead hStep hEnter' hOld (hSame.trans hParent)
          hCall with ⟨t, ht, hOwner, hFree, _⟩
        rw [← hOwner] at hParent
        exact absurd hParent (hKept.free ht hFree he ⟨_, hEnter⟩)
    · rcases hKept.asked hHead hStep hEnter hOld hParent hCall with
        ⟨t, ht, hOwner, hFree, hName, hTakes⟩
      refine ⟨hName, hTakes, ?_⟩
      rintro e' (he' | rfl) hDirect hSame
      · rw [hParent, ← hOwner] at hSame
        exact absurd hSame (hKept.free ht hFree he' hDirect)
      · rfl

end Kept

end Steps

------------------------------------------------------------
-- Activations of Recorded Forests
------------------------------------------------------------

/- Below an event, its number is the parent. -/
def linkStep
    (_ : Nat)
    (e : Event)
    (_ : Option EventId) : Option EventId :=
  some e.id

/- In a linked grove an event names the one around it. -/
theorem Grove.Linked.parent_of_around
    {f : Forest}
    {g : Grove}
    {c d : Option EventId}
    {i : Nat}
    {e : Event}
    (hLinked : g.Linked c)
    (hShown : g.ShownIn f)
    (h : g.Around linkStep c i d)
    (hNode : f.nodes[i]? = some e) : e.parent = d := by
  induction g generalizing c with
  | empty => exact h.elim
  | event j e' below rest ihBelow ihRest =>
    rcases hLinked with ⟨hParent, hBelow, hRest⟩
    rcases hShown with ⟨hFound, _, hShownBelow, hShownRest⟩
    rcases h with ⟨rfl, rfl⟩ | h | h
    · rw [hFound] at hNode
      cases hNode
      exact hParent
    · exact ihBelow hBelow hShownBelow h
    · exact ihRest hRest hShownRest h

namespace Recorder.Sound

variable {r : Recorder}
variable {g : Grove}
variable {d e : Event}
variable {i j : Nat}

/- A forest that was recorded came about. -/
theorem grown (hr : r.Sound g) : r.forest.Grown :=
  .read hr.ofEvents_eq

/- A child of an event names it as its parent. -/
theorem parent_of_child
    (hr : r.Sound g)
    (hj : r.forest.nodes[j]? = some d)
    (hi : r.forest.nodes[i]? = some e)
    (hChild : i ∈ r.forest.childrenAt j) : e.parent = some d.id := by
  rcases hr.shows.around linkStep none hj with ⟨c, hc⟩
  exact hr.linked.parent_of_around hr.shows.shown
    (hc.child hr.shows.shown hj hChild) hi

/- An activation starts with the event at an entry. -/
theorem entry_of_activation
    {k : Nat}
    {a : Activation}
    (hr : r.Sound g)
    (ha : r.forest.activations.nodes[k]? = some a) :
    ∃ i, r.forest.entries[k]? = some i ∧
      r.forest.nodes[i]? = some a.enter := by
  have hEntered := congrArg (fun l => l[k]?)
    (Forest.activations_condense hr.grown).entered
  simp only [List.getElem?_map, Array.getElem?_toList, ha,
    Option.map_some] at hEntered
  rcases Option.map_eq_some_iff.mp hEntered.symm with ⟨i, hi, hNode⟩
  exact ⟨i, hi, hNode⟩

/- Activations are told apart by the events that start them. -/
theorem activation_unique
    {a b : Activation}
    (hr : r.Sound g)
    (ha : a ∈ r.forest.activations.nodes)
    (hb : b ∈ r.forest.activations.nodes)
    (hSame : a.enter = b.enter) : a = b := by
  rcases Array.mem_iff_getElem?.mp ha with ⟨k, hk⟩
  rcases Array.mem_iff_getElem?.mp hb with ⟨k', hk'⟩
  rcases hr.entry_of_activation hk with ⟨i, hi, hNode⟩
  rcases hr.entry_of_activation hk' with ⟨i', hi', hNode'⟩
  have hNumber := hr.numbered i _ hNode
  rw [hSame, hr.numbered i' _ hNode'] at hNumber
  obtain rfl : i' = i := Nat.succ.inj hNumber
  have hBound := (List.getElem?_eq_some_iff.mp hi).1
  obtain rfl : k = k' := (List.getElem?_inj hBound
    hr.shows.nodup_entries).mp (hi.trans hi'.symm)
  rw [hk] at hk'
  exact Option.some.inj hk'

end Recorder.Sound

/-
  An activation that was started directly answers its call: the
  call has its name and arguments that it takes, and no other
  activation that was started directly has that call.
-/
def Activation.Answers
    (p : Program)
    (nodes : Array Activation)
    (a : Activation) : Prop :=
  ∀ callee c, a.enter.action? = some (.enter callee []) →
    a.call = some c →
      (∃ called receiver,
        c.action? = some (.call called receiver a.args) ∧
          called.method = a.method ∧
          p.Takes callee a.args.length) ∧
      ∀ b ∈ nodes, b.enter.Direct → b.call = some c → b = a

/- In a trace that is kept, activations answer their calls. -/
theorem Recorder.Keeps.answers
    {p : Program}
    {strict : Bool}
    {r : Recorder}
    {tiers : List Tier}
    {a : Activation}
    (h : r.Keeps p strict tiers)
    (ha : a ∈ r.forest.activations.nodes) :
    a.Answers p r.forest.activations.nodes := by
  rcases h.sound with ⟨g, hSound⟩
  have hCondenses := Forest.activations_condense hSound.grown
  have hNode : ∀ {i : Nat} {e : Event},
      r.forest.nodes[i]? = some e → e ∈ r.forest.nodes.toList :=
    fun hi => Array.mem_toList_iff.mpr (Array.mem_of_getElem? hi)
  -- The call of an activation is the parent of its first event.
  have hCalled : ∀ b ∈ r.forest.activations.nodes, ∀ c,
      b.call = some c → b.enter ∈ r.forest.nodes.toList ∧
        c ∈ r.forest.nodes.toList ∧ b.enter.parent = some c.id ∧
        c.opens = some .call := by
    intro b hb c hc
    rcases Array.mem_iff_getElem?.mp hb with ⟨k, hk⟩
    rcases hSound.entry_of_activation hk with ⟨i, hi, hEnter⟩
    rcases (hCondenses.call k b i hk hi c).mp hc with
      ⟨j, hChild, hCall, hOpens⟩
    exact ⟨hNode hEnter, hNode hCall,
      hSound.parent_of_child hCall hEnter hChild, hOpens⟩
  intro callee c hEnter hCall
  rcases hCalled a ha c hCall with ⟨hIn, hcIn, hParent, hOpens⟩
  have hAnswered := h.kept.answered hIn hEnter
  cases hAction : c.action? with
  | none => simp [Event.opens, hAction] at hOpens
  | some action =>
    cases action with
    | call called receiver args =>
      rcases hAnswered c hcIn hParent called receiver args hAction with
        ⟨hName, hTakes, hOnly⟩
      have hArgs : a.args = args := by
        simp [Activation.args, hCall, hAction]
      have hMethod : a.method = callee.method := by
        simp [Activation.method, hEnter]
      rw [hArgs, hMethod]
      refine ⟨⟨called, receiver, rfl, hName, hTakes⟩, ?_⟩
      intro b hb hDirect hSame
      rcases hCalled b hb c hSame with ⟨hbIn, _, hbParent, _⟩
      exact hSound.activation_unique hb ha
        (hOnly b.enter hbIn hDirect (hbParent.trans hParent.symm))
    | _ => simp [Event.opens, hAction, Action.opens] at hOpens

section Attribution

variable {o : Instrument.Options}
variable {p q : Program}
variable {m : Machine}

/-
  Call events are attributed to the activations they invoked, if
  these name no frames without probes. On every machine to which
  a recorder was attached from the start and whose calls have
  settled, faults included, an activation of the trace that was
  started directly and has a call is the only one that its call
  started directly: it has the name that is called, and takes as
  many arguments as are passed. The runs are followed up to the
  first stop by the guard.
-/
theorem direct_activations_answer
    (hSource : p.passes Test.source = true)
    (hInstrument : instrument o p = .ok q)
    (maxDepth : Nat)
    (echo : Bool)
    (time : Timestamp)
    (hReaches : Machine.Reaches .guarding q Settles
      (.recorded maxDepth echo time) m) :
    ∃ t, m.recorder = some t ∧
      ∀ a ∈ t.forest.activations.nodes,
        a.Answers p t.forest.activations.nodes := by
  rcases Instrument.exclusions_of_ok hInstrument with
    ⟨exclusions, hExclusions⟩
  rcases between_of_settles (.guarded o exclusions) hSource hExclusions
    hInstrument (Machine.between_recorded p false maxDepth echo time)
    hReaches with ⟨tiers, hBetween⟩
  rcases hBetween.tape with ⟨t, ht, _, hKeeps⟩
  exact ⟨t, ht, fun a ha => hKeeps.answers ha⟩

end Attribution

/- A program that makes an object whose class has one above it. -/
def derivedProgram : Program :=
  ⟨[{ name := "Base"
      methods := [.ofConstructor [] (some [])] },
    { name := "Derived"
      superclass := some "Base"
      methods := [.ofConstructor [⟨"n", .int⟩] (some [])] },
    { name := "Main"
      methods := [
        { name := "main"
          kind := .static
          ret := .int
          body := some [
            .expr (.new "Derived" [.int 7]),
            .ofForm (.return (some (.int 1)))] }] }]⟩

/- The activations below one call, by the frames that they name. -/
def Forest.enclosingBelow
    (f : Forest)
    (call : EventId) : List (List OuterFrame) :=
  f.activations.nodes.toList.filterMap fun a =>
    match a.call, a.enter.action? with
    | some c, some (.enter _ enclosing) =>
      if c.id = call then some enclosing else none
    | _, _ => none

/-
  The program is instrumented and run. Its fourth event is the call
  of a constructor.
-/
theorem derived_runs :
    ∃ q, instrument {} derivedProgram = .ok q ∧
      Settles (Machine.request .guarding q 32 "Main" "main" []
        (.recorded 64 false .epoch)).1 ∧
      (Machine.request .silent q 32 "Main" "main" []
        (.recorded 64 false .epoch)).2.recorder.map
          (fun t => t.forest.enclosingBelow ⟨4⟩)
        = some [[⟨"Derived", "<init>", none, none⟩], []] := by
  have hInstrument : ∃ q, instrument {} derivedProgram = .ok q :=
    ⟨_, rfl⟩
  rcases hInstrument with ⟨q, hq⟩
  have hRuns : (instrument {} derivedProgram).toOption.all (fun q =>
      decide (Settles (Machine.request .guarding q 32 "Main" "main" []
        (.recorded 64 false .epoch)).1) &&
      decide ((Machine.request .silent q 32 "Main" "main" []
        (.recorded 64 false .epoch)).2.recorder.map
          (fun t => t.forest.enclosingBelow ⟨4⟩)
        = some [[⟨"Derived", "<init>", none, none⟩], []])) = true := by
    decide +kernel
  rw [hq] at hRuns
  simp only [Except.toOption, Option.all_some, Bool.and_eq_true,
    decide_eq_true_eq] at hRuns
  exact ⟨q, hq, hRuns⟩

/-
  The fourth event is the call of a constructor. Two activations
  are below it: of the constructor above, which is started from
  the frame of the other one, and of the one that is called.
-/
theorem direct_activations_answer_derived :
    ∃ q m, instrument {} derivedProgram = .ok q ∧
      Machine.Reaches .guarding q Settles (.recorded 64 false .epoch)
        m ∧
      ∃ t, m.recorder = some t ∧
        ∀ a ∈ t.forest.activations.nodes,
          a.Answers derivedProgram t.forest.activations.nodes := by
  rcases derived_runs with ⟨q, hq, hSettles, _⟩
  have hReaches : Machine.Reaches .guarding q Settles
      (.recorded 64 false .epoch) (Machine.request .guarding q 32
        "Main" "main" [] (.recorded 64 false .epoch)).2 :=
    .call 32 ⟨"Main", "main", []⟩ (.refl _) rfl hSettles
  exact ⟨q, _, hq, hReaches, direct_activations_answer
    (p := derivedProgram) (by decide) hq 64 false .epoch hReaches⟩

/-
  Not every activation below a call was started by it directly,
  and one call is the call of two activations.
-/
theorem direct_activations_answer_above :
    ∃ q t, instrument {} derivedProgram = .ok q ∧
      (Machine.request .silent q 32 "Main" "main" []
        (.recorded 64 false .epoch)).2.recorder = some t ∧
      t.forest.enclosingBelow ⟨4⟩
        = [[⟨"Derived", "<init>", none, none⟩], []] := by
  rcases derived_runs with ⟨q, hq, _, hStarted⟩
  rcases Option.map_eq_some_iff.mp hStarted with ⟨t, ht, hSame⟩
  exact ⟨q, t, hq, ht, hSame⟩

end ExecTrace
