import ExecTrace.Proofs.Guarding.Bodies
import ExecTrace.Proofs.Splicing.Hosting

/-
  Calls from the host under guard. What a telling run keeps, the
  run of the instrumented program keeps too: both have the same
  frames and the same recorder. So a call from the host leaves the
  ledger as it finds it, and after a fault the frames that were
  open before it are still open, below all others.

  Main declarations:
    * `Kept.idle`
    * `obeys_hosted`, `request_told` and `met_request`
    * `Machine.Between`
    * `Machine.Between.request` and `between_of_completes`
-/

namespace ExecTrace

open Run

------------------------------------------------------------
-- Calls that Wait for Nothing
------------------------------------------------------------

section Idle

variable {p : Program}
variable {es : List Event}
variable {tiers tiers' : List Tier}
variable {e : Event}

/- An activation that does not count leaves the ledger as it is. -/
@[simp] theorem settled_false (child : Child) :
    settled false child tiers = tiers := by
  unfold settled
  split <;> rfl

/- A start does not tell how an activation ended. -/
theorem child_started :
    (started tiers).map (fun t => t.role.child)
      = tiers.map fun t => t.role.child := by
  unfold started
  split <;> rfl

/- No call of a ledger that is not strict knows of activations. -/
theorem Step.idle
    (h : Step p false tiers e tiers')
    (hIdle : ∀ child ∈ tiers.map fun t => t.role.child,
      child = .none) :
    ∀ child ∈ tiers'.map fun t => t.role.child, child = .none := by
  cases h with
  | inner => exact hIdle
  | call => simpa [Role.child] using hIdle
  | enter =>
    have hStarted : ∀ child ∈ (started tiers).map fun t => t.role.child,
        child = .none := by rwa [child_started]
    refine List.forall_mem_cons.mpr ⟨rfl, ?_⟩
    split <;> assumption
  | exit =>
    rw [Bool.false_and, settled_false]
    exact (List.forall_mem_cons.mp hIdle).2
  | resume => exact (List.forall_mem_cons.mp hIdle).2

/- No call of a ledger that is not strict waits for its caller. -/
theorem Kept.idle
    (h : Kept p false es tiers) :
    ∀ child ∈ tiers.map fun t => t.role.child, child = .none := by
  induction h with
  | start => nofun
  | step _ _ _ hStep ih => exact hStep.idle ih

end Idle

------------------------------------------------------------
-- The Run of a Call
------------------------------------------------------------

section Requests

variable {K : Rules}
variable {g : Phase}
variable {i : Invoker}
variable {q : Program}

/-
  A call from the host stays in its phase, if there is no open
  call that would have to know how it ended.
-/
theorem obeys_hosted
    (hi : Invokes K i)
    (c : HostCall)
    (hDeep : g.tape.Deep K)
    (hIdle : g.tape.Idle)
    (hClear : K.strict = true → g.tape = .running []) :
    Obeys (At K g) (Call.hosted K.program i c) (fun _ => At K g)
      (fun _ => At K g) (Lost K g) := by
  have hStill : ∀ exception m,
      Moved K (⟨Machine.hostFrame, "call", false⟩ :: g.frames)
        (g.push ⟨Machine.hostFrame, "call", false⟩) exception m →
      At K g { m with frames := m.frames.tail } := by
    intro exception m hm
    rcases hm.pop with ⟨t, hMoves, hm⟩
    cases hStrict : K.strict with
    | false =>
      rw [hMoves.eq rfl fun h => by simp [hStrict] at h] at hm
      exact hm
    | true =>
      rw [hClear hStrict] at hMoves
      cases hMoves
      rw [← hClear hStrict] at hm
      exact hm
  exact (ventures_onClass hi c.cls c.method c.args
    (.push hDeep hIdle rfl)).inFrame _ (fun _ hm => hm.push _)
    (fun _ m hm => hStill _ m hm) (fun _ m hm => hStill _ m hm)
    fun _ hm => hm.pop

/- What is known of a machine is known of one that is level. -/
theorem At.level
    {m n : Machine}
    (h : At K g m)
    (hLevel : World Joint.level {} m n) : At K g n := by
  have hJoint : (m.frames, m.recorder) = (n.frames, n.recorder) :=
    hLevel.joint
  injection hJoint with hFrames hRecorder
  exact ⟨hFrames ▸ h.frames, hLevel.heap ▸ h.since,
    hRecorder ▸ h.tape⟩

/- What is known after a fault is known of a level machine. -/
theorem Lost.level
    {m n : Machine}
    (h : Lost K g m)
    (hLevel : World Joint.level {} m n) : Lost K g n := by
  have hJoint : (m.frames, m.recorder) = (n.frames, n.recorder) :=
    hLevel.joint
  injection hJoint with hFrames hRecorder
  exact ⟨hFrames ▸ h.frames, hLevel.heap ▸ h.since,
    hRecorder ▸ h.tape⟩

/-
  The second of two comparable runs ends as it should if the first
  one does.
-/
theorem Outcome.met
    {r s : End Val}
    (h : Outcome (.lacking false)
      (fun a b m n => a = b ∧ World Joint.level {} m n)
      ((Bond.level fun _ => True).cut () fun J => World J {}) r s)
    (hMet : Met (fun _ => At K g) (fun _ => At K g) (Lost K g) r) :
    Met (fun _ => At K g) (fun _ => At K g) (Lost K g) s := by
  cases h with
  | ok hPost =>
    cases hMet with
    | ok hm => exact .ok (hm.level hPost.2)
  | @alike c d m n hAlike hCut =>
    cases hAlike with
    | throw v hv =>
      cases hMet with
      | thrown hm => exact .thrown (hm.level hCut)
    | fault c d =>
      cases hMet with
      | lost hm => exact .lost (hm.level hCut)
    | panic text _ =>
      cases hMet
      exact .exhausted
    | outOfFuel => exact .spent
    | stopped why _ => exact .stopped
    | answered why s hAnswers => cases hAnswers
  | @first c _ _ hFirst => cases c <;> cases hFirst
  | @second d _ _ hSecond =>
    cases d with
    | outOfFuel => exact .spent
    | _ => cases hSecond

/- A telling call and the call of the instrumented program. -/
theorem request_told
    (X : Splice)
    [X.Guards]
    {p : Program}
    (hPaired : Paired (splicedPairing X.options X.exclusions) p q)
    {fuel most : Nat}
    (hFuel : fuel ≤ most)
    (c : HostCall)
    (m : Machine) :
    Outcome (.lacking false)
      (fun a b m n => a = b ∧ World Joint.level {} m n)
      ((Bond.level fun _ => True).cut () fun J => World J {})
      (Call.hosted p (X.teller.invoke p most) c m)
      (Machine.request X.observer q fuel c.cls c.method c.args m) := by
  rw [Machine.request_eq_hosted]
  have hFollows := (Splice.Guards.coarse (X := X)).follows
    Splice.Guards.values (.lacking false)
  exact hosted_spliced hFollows
    (Splice.fair_of_sound Splice.Guards.sound) hPaired ⟨rfl, rfl⟩ rfl
    (.inr ⟨rfl, hFuel⟩) c m m (World.level_self m)

/-
  A call from the host of an instrumented program ends as it
  should.
-/
theorem met_request
    (X : Splice)
    [X.Guards]
    (hAdmits : Admits K X.exclusions)
    (hExclusions : X.options.exclusions? = .ok X.exclusions)
    (hInstrument : instrument X.options K.program = .ok q)
    (hDeep : g.tape.Deep K)
    (hIdle : g.tape.Idle)
    (hClear : K.strict = true → g.tape = .running [])
    {m : Machine}
    (hm : At K g m)
    (fuel : Nat)
    (c : HostCall) :
    Met (fun _ => At K g) (fun _ => At K g) (Lost K g)
      (Machine.request X.observer q fuel c.cls c.method c.args
        m) := by
  have hSpliced := request_told X
    (paired_instrument hExclusions hAdmits.source hInstrument)
    (Nat.le_refl fuel) c m
  exact hSpliced.met (obeys_hosted (invokes_guarded hAdmits fuel) c
    hDeep hIdle hClear m hm)

end Requests

------------------------------------------------------------
-- Machines between Calls
------------------------------------------------------------

section Between

variable {p q : Program}
variable {strict : Bool}
variable {tiers : List Tier}
variable {m m' : Machine}

/-
  A machine between the calls of a host: it has no frames, and its
  recorder records, with a ledger. After a fault frames are open,
  which a strict ledger does not follow.
-/
structure Machine.Between
    (p : Program)
    (strict : Bool)
    (tiers : List Tier)
    (m : Machine) : Prop where
  frames : m.frames = []
  tape : (Tape.running tiers).Shows ⟨p, strict, []⟩ m.recorder
  clear : strict = true → tiers = []

/- A machine that has run nothing is between calls. -/
theorem Machine.between_recorded
    (p : Program)
    (strict : Bool)
    (maxDepth : Nat)
    (echo : Bool)
    (time : Timestamp) :
    (recorded maxDepth echo time).Between p strict [] where
  frames := rfl
  tape := ⟨.create echo time, rfl, rfl, Recorder.keeps_create echo time⟩
  clear := fun _ => rfl

namespace Machine.Between

/- A machine between calls waits for nothing. -/
theorem idle
    (h : m.Between p strict tiers) : (Tape.running tiers).Idle := by
  rintro _ ⟨⟩ t ht
  cases strict with
  | true =>
    rw [h.clear rfl] at ht
    cases ht
  | false =>
    rcases h.tape with ⟨r, _, _, hKeeps⟩
    exact hKeeps.kept.idle _
      (List.mem_map_of_mem (List.mem_of_mem_head? ht))

/-
  A call from the host ends as it should, on a machine between
  calls: the frames that are open are the lowest ones.
-/
theorem request
    (X : Splice)
    [X.Guards]
    (h : m.Between p strict tiers)
    (hAdmits : Admits ⟨p, strict, tiers.map Tier.frame⟩ X.exclusions)
    (hExclusions : X.options.exclusions? = .ok X.exclusions)
    (hInstrument : instrument X.options p = .ok q)
    (fuel : Nat)
    (c : HostCall) :
    Met (fun _ => Machine.Between p strict tiers)
      (fun _ => Machine.Between p strict tiers)
      (fun k => k.frames = [] ∧ ∃ tiers',
        (Tape.running tiers').Shows ⟨p, strict, []⟩ k.recorder ∧
        tiers.map Tier.frame <:+ tiers'.map Tier.frame)
      (Machine.request X.observer q fuel c.cls c.method c.args
        m) := by
  have hMet := met_request (g := ⟨[], m.heap, .running tiers⟩) X hAdmits
    hExclusions hInstrument (by rintro _ ⟨⟩; exact List.suffix_refl _) h.idle
    (fun hStrict => by rw [h.clear hStrict]) ⟨h.frames, .refl, h.tape⟩
    fuel c
  exact hMet.weaken (fun _ _ hk => ⟨hk.frames, hk.tape, h.clear⟩)
    (fun _ _ hk => ⟨hk.frames, hk.tape, h.clear⟩)
    fun _ hk => ⟨hk.frames, hk.tape⟩

/-
  A call from the host panics only if there are no numbers left,
  and it leaves the ledger as it is if it completes.
-/
theorem completes
    (X : Splice)
    [X.Guards]
    (h : m.Between p strict tiers)
    (hAdmits : Admits ⟨p, strict, tiers.map Tier.frame⟩ X.exclusions)
    (hExclusions : X.options.exclusions? = .ok X.exclusions)
    (hInstrument : instrument X.options p = .ok q)
    {fuel : Nat}
    {c : HostCall}
    {r : Except Interrupt Val}
    (hRun : Machine.request X.observer q fuel c.cls c.method c.args m
      = (r, m')) :
    (∀ text, r = .error (.panic text) →
      r = .error (misuse .exhausted)) ∧
    (Completes r → m'.Between p strict tiers) := by
  have hMet := h.request X hAdmits hExclusions hInstrument fuel c
  rw [hRun] at hMet
  cases hMet with
  | ok hm => exact ⟨nofun, fun _ => hm⟩
  | thrown hm => exact ⟨nofun, fun _ => hm⟩
  | lost => exact ⟨nofun, nofun⟩
  | exhausted => exact ⟨fun _ _ => rfl, nofun⟩
  | spent => exact ⟨nofun, nofun⟩
  | stopped => exact ⟨nofun, nofun⟩

end Machine.Between

/- Machines that the host reaches by calls that complete. -/
theorem between_of_completes
    (X : Splice)
    [X.Guards]
    (hAdmits : Admits ⟨p, strict, []⟩ X.exclusions)
    (hExclusions : X.options.exclusions? = .ok X.exclusions)
    (hInstrument : instrument X.options p = .ok q)
    {m₀ : Machine}
    (h₀ : m₀.Between p strict [])
    (h : Machine.Reaches X.observer q Completes m₀ m) :
    m.Between p strict [] := by
  induction h with
  | refl => exact h₀
  | call fuel c _ hRun hEnd ih =>
    exact (ih.completes X hAdmits hExclusions hInstrument hRun).2 hEnd

end Between

end ExecTrace
