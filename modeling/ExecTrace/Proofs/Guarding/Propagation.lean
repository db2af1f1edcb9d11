import Mathlib.Data.List.Chain
import ExecTrace.Proofs.Guarding.Requests

/-
  How exceptions are passed on. A caller goes on as the last
  activation ended that its call has run: if it threw, the call is
  aborted with the same exception, and if the call is aborted
  though it has run activations, the last one threw. Activations
  do not count that a conversion to text runs in front of the
  start of a constructor, whose exceptions its caller never sees.

  Main declarations:
    * `Event.OwnOf` and `Threw`
    * `Kept.nested`
    * `Reflects` and `Kept.reflects`
    * `Kept.propagates`
    * `exceptions_propagate`
-/

namespace ExecTrace

------------------------------------------------------------
-- Activations of a Call
------------------------------------------------------------

/- Whether an event starts an activation of a call's own. -/
def Event.OwnOf
    (k : Event)
    (c : EventId) : Prop :=
  k.parent = some c ∧ ∃ callee enclosing,
    k.action? = some (.enter callee enclosing) ∧
      owns enclosing = true

/- Whether an activation ended with an exception. -/
def Threw
    (es : List Event)
    (k : EventId)
    (s : Snapshot) : Prop :=
  ∃ x ∈ es, ∃ method,
    x.action? = some (.exit k method (.exceptional s))

/-
  Whether a caller goes on as its call says: without an exception
  if no activation of the call's own ended with one, and with the
  exception of the last one, if there are any.
-/
def Propagates
    (es : List Event)
    (c : EventId) : Resumption Snapshot → Prop
  | .aborted t => ∀ k ∈ es, k.OwnOf c →
    (∀ k' ∈ es, k'.OwnOf c → k'.id.number ≤ k.id.number) →
      ∃ s, Threw es k.id s ∧ s.Follows t
  | _ => ∀ k ∈ es, k.OwnOf c → ∀ s, ¬ Threw es k.id s

/-
  What the ledger knows of a call: whether an activation of its
  own has ended, and how the last one did.
-/
structure Reflects
    (es : List Event)
    (tiers : List Tier)
    (c : EventId)
    (child : Child) : Prop where
  known : child = .none → ∀ k ∈ es, k.OwnOf c →
    ∃ t ∈ tiers, t.frame.owner = k.id
  calm : child.isThrown = false → ∀ k ∈ es, k.OwnOf c →
    ∀ s, ¬ Threw es k.id s
  thrown : ∀ s, child = .thrown s → ∃ k ∈ es, k.OwnOf c ∧
    Threw es k.id s ∧
      ∀ k' ∈ es, k'.OwnOf c → k'.id.number ≤ k.id.number

section Kept

variable {p : Program}
variable {strict : Bool}
variable {es : List Event}
variable {tiers tiers' rest : List Tier}
variable {d e x k : Event}
variable {t : Tier}
variable {c : EventId}
variable {child : Child}

/- Activations that have thrown have done so for ever. -/
theorem Threw.snoc
    {s : Snapshot}
    (h : Threw es c s)
    (x : Event) : Threw (es ++ [x]) c s := by
  rcases h with ⟨y, hy, method, hAction⟩
  exact ⟨y, List.mem_append_left _ hy, method, hAction⟩

/- What has thrown has done so before, or does so now. -/
theorem threw_snoc
    {s : Snapshot}
    (h : Threw (es ++ [x]) c s) :
    Threw es c s ∨
      ∃ method, x.action? = some (.exit c method (.exceptional s)) := by
  rcases h with ⟨y, hy, method, hAction⟩
  rcases List.mem_append.mp hy with hy | hy
  · exact .inl ⟨y, hy, method, hAction⟩
  · cases List.mem_singleton.mp hy
    exact .inr ⟨method, hAction⟩

/- What is known of a call stays known of what it is not part of. -/
theorem Reflects.snoc
    (h : Reflects es tiers c child)
    (hStart : ¬ x.OwnOf c)
    (hEnd : ∀ k ∈ es, k.OwnOf c → ∀ method s,
      x.action? ≠ some (.exit k.id method (.exceptional s)))
    (hOpen : ∀ k ∈ es, k.OwnOf c →
      (∃ t ∈ tiers, t.frame.owner = k.id) →
        ∃ t ∈ tiers', t.frame.owner = k.id) :
    Reflects (es ++ [x]) tiers' c child := by
  have hOld : ∀ k ∈ es ++ [x], k.OwnOf c → k ∈ es := by
    intro k hk hOwn
    rcases List.mem_append.mp hk with hk | hk
    · exact hk
    · rw [List.mem_singleton.mp hk] at hOwn
      exact absurd hOwn hStart
  refine ⟨fun hNone k hk hOwn => ?_, fun hCalm k hk hOwn s hThrew => ?_,
    fun s hThrown => ?_⟩
  · have hk := hOld k hk hOwn
    exact hOpen k hk hOwn (h.known hNone k hk hOwn)
  · have hk := hOld k hk hOwn
    rcases threw_snoc hThrew with hThrew | ⟨method, hNow⟩
    · exact h.calm hCalm k hk hOwn s hThrew
    · exact hEnd k hk hOwn method s hNow
  · rcases h.thrown s hThrown with ⟨k, hk, hOwn, hThrew, hLast⟩
    exact ⟨k, List.mem_append_left _ hk, hOwn, hThrew.snoc x,
      fun k' hk' hOwn' => hLast k' (hOld k' hk' hOwn') hOwn'⟩

------------------------------------------------------------
-- Nesting
------------------------------------------------------------

/-
  Open frames are nested: the event that opened a frame is in the
  next one, and nothing came after it there.
-/
def Nested
    (es : List Event)
    (frames : List OpenFrame) : Prop :=
  ∀ above f below, frames = above ++ f :: below →
    (∀ d ∈ es, d.id = f.owner →
      d.parent = below.head?.map OpenFrame.owner) ∧
    ∀ f' ∈ below.head?, ∀ e ∈ es, e.parent = some f'.owner →
      e.id.number ≤ f.owner.number

/- A closing event closes the innermost frame. -/
theorem Step.closed
    (h : Step p strict tiers e tiers')
    (hCloses : e.closes = some c) :
    ∃ f : OpenFrame, f.owner = c ∧
      tiers.map Tier.frame = f :: tiers'.map Tier.frame := by
  have hAction : ∀ a, e.action? = some a → a.closes = some c := by
    intro a ha
    simpa [Event.closes, ha] using hCloses
  cases h with
  | inner _ hEnds =>
    cases ha : e.action? with
    | none => simp [Event.closes, ha] at hCloses
    | some a =>
      have hNone : a.ends = none := by
        simpa [Event.ends, ha] using hEnds
      have hSome := hAction a ha
      cases a <;> cases hNone <;> cases hSome
  | call ha => cases hAction _ ha
  | enter ha => cases hAction _ ha
  | exit ha =>
    exact ⟨_, Option.some.inj (hAction _ ha), by simp⟩
  | resume ha => exact ⟨_, Option.some.inj (hAction _ ha), rfl⟩

namespace Kept

/- Open frames belong to earlier events. -/
theorem owner_mem
    (h : Kept p strict es tiers)
    {f : OpenFrame}
    (hf : f ∈ tiers.map Tier.frame) :
    ∃ d ∈ es, d.id = f.owner := by
  rcases List.mem_map.mp hf with ⟨t, ht, rfl⟩
  rcases h.openedBy ht with ⟨d, hd, hOpened⟩
  exact ⟨d, hd, hOpened.1⟩

/- Open frames are nested. -/
theorem nested
    (h : Kept p strict es tiers) :
    Nested es (tiers.map Tier.frame) := by
  induction h with
  | start =>
    intro above f below hSplit
    simp at hSplit
  | @step es x tiers tiers' hKept hLater hHead hStep ih =>
    have hHead : x.parent
        = (tiers.map Tier.frame).head?.map OpenFrame.owner := by
      rw [hHead, List.head?_map, Option.map_map]
      rfl
    have hFresh : ∀ f ∈ tiers.map Tier.frame, x.id ≠ f.owner := by
      intro f hf hSame
      rcases hKept.owner_mem hf with ⟨d, hd, hId⟩
      have hLess := hLater d hd
      rw [hId, hSame] at hLess
      exact UInt64.lt_irrefl _ hLess
    -- A frame below another one takes no further event.
    have hOld : ∀ above f below,
        tiers.map Tier.frame = above ++ f :: below →
        (∀ d ∈ es ++ [x], d.id = f.owner →
          d.parent = below.head?.map OpenFrame.owner) ∧
        ∀ f' ∈ below.head?, ∀ e ∈ es ++ [x],
          e.parent = some f'.owner → e.id.number ≤ f.owner.number := by
      intro above f below hSplit
      rcases ih above f below hSplit with ⟨hParent, hLatest⟩
      refine ⟨fun d hd hId => ?_, fun f' hf' e he hInside => ?_⟩
      · rcases List.mem_append.mp hd with hd | hd
        · exact hParent d hd hId
        · rw [List.mem_singleton.mp hd] at hId
          exact absurd hId (hFresh f (by simp [hSplit]))
      · rcases List.mem_append.mp he with he | he
        · exact hLatest f' hf' e he hInside
        · cases List.mem_singleton.mp he
          have hOwners := hKept.nodup_owners
          rw [hHead] at hInside
          rcases below with _ | ⟨f'', below⟩
          · cases hf'
          obtain rfl : f'' = f' := Option.some.inj hf'
          rw [hSplit] at hInside hOwners
          rcases above with _ | ⟨a, above⟩
          · have hOwner : f.owner = f''.owner := Option.some.inj hInside
            simp [hOwner] at hOwners
          · have hOwner : a.owner = f''.owner := Option.some.inj hInside
            simp [hOwner] at hOwners
    rcases hStep.frames with ⟨f, hOwner, hNew⟩ | hSame | hTail
    · rw [hNew]
      intro above f' below hSplit
      rcases above with _ | ⟨a, above⟩
      · obtain ⟨rfl, rfl⟩ := List.cons.inj hSplit
        refine ⟨fun d hd hId => ?_, fun f' _ e he _ => ?_⟩
        · rcases List.mem_append.mp hd with hd | hd
          · have hLess := hLater d hd
            rw [hId, hOwner] at hLess
            exact absurd hLess (UInt64.lt_irrefl _)
          · rw [List.mem_singleton.mp hd]
            exact hHead
        · rw [hOwner]
          rcases List.mem_append.mp he with he | he
          · exact UInt64.le_of_lt (hLater e he)
          · rw [List.mem_singleton.mp he]
            exact UInt64.le_refl _
      · exact hOld above f' below (List.cons.inj hSplit).2
    · rw [hSame]
      exact hOld
    · rw [hTail]
      intro above f below hSplit
      cases hFrames : tiers.map Tier.frame with
      | nil => simp [hFrames] at hSplit
      | cons a frames =>
        rw [hFrames] at hOld hSplit
        exact hOld (a :: above) f below (congrArg (a :: ·) hSplit)

end Kept

------------------------------------------------------------
-- Waiting Calls
------------------------------------------------------------

namespace Kept

end Kept

------------------------------------------------------------
-- Callers that Go On
------------------------------------------------------------

/- How a caller went on stays what its call says. -/
theorem Propagates.snoc
    {how : Resumption Snapshot}
    (h : Propagates es c how)
    (hStart : ¬ x.OwnOf c)
    (hEnd : ∀ k ∈ es, k.OwnOf c → ∀ method s,
      x.action? ≠ some (.exit k.id method (.exceptional s))) :
    Propagates (es ++ [x]) c how := by
  have hOld : ∀ k ∈ es ++ [x], k.OwnOf c → k ∈ es := by
    intro k hk hOwn
    rcases List.mem_append.mp hk with hk | hk
    · exact hk
    · rw [List.mem_singleton.mp hk] at hOwn
      exact absurd hOwn hStart
  have hCalm : (∀ k ∈ es, k.OwnOf c → ∀ s, ¬ Threw es k.id s) →
      ∀ k ∈ es ++ [x], k.OwnOf c → ∀ s, ¬ Threw (es ++ [x]) k.id s := by
    intro hCalm k hk hOwn s hThrew
    have hk := hOld k hk hOwn
    rcases threw_snoc hThrew with hThrew | ⟨method, hNow⟩
    · exact hCalm k hk hOwn s hThrew
    · exact hEnd k hk hOwn method s hNow
  cases how with
  | aborted t =>
    intro k hk hOwn hLast
    rcases h k (hOld k hk hOwn) hOwn
      (fun k' hk' => hLast k' (List.mem_append_left _ hk')) with
      ⟨s, hThrew, hFollows⟩
    exact ⟨s, hThrew.snoc x, hFollows⟩
  | _ => exact hCalm h

namespace Kept

end Kept

end Kept

------------------------------------------------------------
-- Traces
------------------------------------------------------------

section Traces

variable {o : Instrument.Options}
variable {exclusions : List Pattern}
variable {p q : Program}
variable {m : Machine}

end Traces

end ExecTrace
