import ExecTrace.Machine.Eval
import ExecTrace.Proofs.FlowAgreement
import ExecTrace.Proofs.Traversal

/-
  Captured values. The snapshot of a value is the same on linked
  machines if the conversions to text agree, and so is every
  action whose values are captured one after the other. While
  values are captured a fault of the program is forgotten, so a
  bond has to hold again after one.

  Main declarations:
    * `Bond.Settled` and `Bond.within`
    * `agrees_snapshot` and `agrees_captureValue`
    * `agrees_mapAction`
-/

namespace ExecTrace

open Run

------------------------------------------------------------
-- Settled Bonds
------------------------------------------------------------

/- Nothing is lost after a fault. -/
def Bond.Settled (B : Bond) : Prop :=
  ∀ g a b, B.lost g a b → B.holds g a b

/- A bond whose ghosts have a property that frames preserve. -/
def Bond.within
    (B : Bond)
    (P : B.Ghost → Prop)
    (hPush : ∀ f g, P g → P (B.push f g)) : Bond where
  Ghost := { g : B.Ghost // P g }
  rets := B.rets
  holds := fun g => B.holds g.1
  ended := fun method g => B.ended method g.1
  done := fun g => B.done g.1
  lost := fun g => B.lost g.1
  push := fun f g => ⟨B.push f g.1, hPush f g.1 g.2⟩
  doneOfHolds := fun g => B.doneOfHolds g.1
  lostOfHolds := fun g => B.lostOfHolds g.1
  lostOfEnded := fun method g => B.lostOfEnded method g.1
  pushed := fun cls method g => B.pushed cls method g.1
  popped := fun f g => B.popped f g.1
  poppedLost := fun f g => B.poppedLost f g.1
  length := fun g => B.length g.1

section Capturing

variable {S : Slack}
variable {B : Bond}
variable {M : Pairing}
variable {p q : Program}
variable {i j : Invoker}
variable {w w' : Observer}

/- What agrees for all ghosts agrees for some of them. -/
theorem Yields.within
    {α : Type}
    {Q : α → Prop}
    {x y : Run α}
    {P : B.Ghost → Prop}
    {hPush : ∀ f g, P g → P (B.push f g)}
    (h : Yields S B Q x y) :
    Yields S (B.within P hPush) Q x y :=
  fun g => h g.1

------------------------------------------------------------
-- Snapshots
------------------------------------------------------------

/- A text is the same one, or is missing on both sides. -/
theorem agrees_textUnlessThrown
    (hSettled : B.Settled)
    (hSharp : S.Sharp)
    {x y : Run String}
    (h : Agrees S B x y) :
    Agrees S B (textUnlessThrown x) (textUnlessThrown y) := by
  intro g s hs m n hm
  have hText := h g s hs m n hm
  unfold textUnlessThrown
  generalize x m = r at hText
  generalize y n = t at hText
  cases hText with
  | ok hPost =>
    rcases hPost with ⟨rfl, _, hPost⟩
    exact .ok ⟨rfl, trivial, hPost⟩
  | alike hAlike hCut =>
    cases hAlike with
    | throw v hv => exact .ok ⟨rfl, trivial, hCut⟩
    | fault c d =>
      exact .ok ⟨rfl, trivial, Linked.weaken hCut (hSettled g)⟩
    | panic text hText => exact .alike (.panic text hText) trivial
    | outOfFuel => exact .alike .outOfFuel trivial
    | stopped why hWhy => exact .alike (.stopped why hWhy) trivial
    | answered why text hWhy =>
      exact .alike (.answered why text hWhy) trivial
  | @first c m' _ hFirst =>
    cases c with
    | throw v => cases hFirst
    | fault c => exact absurd hFirst (by simp [Slack.first, hSharp.lapses])
    | _ => exact .first hFirst
  | @second d n' _ hSecond =>
    cases d with
    | throw v => cases hSecond
    | fault c => cases hSecond
    | _ => exact .second hSecond

/- The snapshot of an object, an array or a string. -/
theorem agrees_referenceSnapshot
    (hSettled : B.Settled)
    (hSharp : S.Sharp)
    (hp : Paired M p q)
    (hi : Invokers S B M i j)
    (v : Val) :
    Agrees S B (referenceSnapshot p i v)
      (referenceSnapshot q j v) := by
  refine Yields.look fun _ _ m n hm => ?_
  rw [hm.world.heap]
  exact (agrees_textUnlessThrown hSettled hSharp
    (agrees_textOf hp hi "toString" v)).bind fun _ _ =>
      Yields.pure trivial

/- A value of the wrong kind is a defect on both sides. -/
theorem agrees_wrongKind
    (hSharp : S.Sharp)
    (kind : Kind)
    (v : Val) :
    Agrees S B (wrongKind kind v) (wrongKind kind v) := by
  refine Yields.look fun _ _ m n hm => ?_
  rw [hm.world.heap]
  exact fun _ _ _ => Sim.throw (.panic _ hSharp.panics)
    fun _ _ _ => trivial

/- The snapshot of a value is the same on both sides. -/
theorem agrees_snapshot
    (hSettled : B.Settled)
    (hSharp : S.Sharp)
    (hp : Paired M p q)
    (hi : Invokers S B M i j)
    (hw : ∀ kind v g, Watches S (B.holds g) w w'
      (.captured kind v) (.captured kind v))
    {d d' : Nat}
    (hFuel : Paced S d d')
    (kind : Kind)
    (v : Val) :
    Agrees S B (snapshot w p i d kind v)
      (snapshot w' q j d' kind v) := by
  have hReference := agrees_referenceSnapshot hSettled hSharp hp hi
  induction d generalizing d' kind v with
  | zero =>
    cases d' with
    | zero =>
      exact fun _ _ _ _ _ _ => .alike .outOfFuel trivial
    | succ d' =>
      have hShort : S.short = true := by
        rcases hFuel with h | h | h
        · omega
        · exact h.1
        · omega
      exact fun _ _ _ _ _ _ => .first hShort
  | succ d ih =>
    cases d' with
    | zero =>
      have hBehind : S.behind = true := by
        rcases hFuel with h | h | h
        · omega
        · omega
        · exact h.1
      exact fun _ _ _ => Sim.behind hBehind
    | succ d' =>
      have hLess : Paced S d d' := by
        rcases hFuel with h | h | h
        · exact .inl (by omega)
        · exact .inr (.inl ⟨h.1, by omega⟩)
        · exact .inr (.inr ⟨h.1, by omega⟩)
      unfold snapshot
      refine (agrees_watch (hw kind v)).bind fun _ _ => ?_
      cases kind.scalarTy? with
      | some ty =>
        cases v with
        | scalar s => exact Yields.pure trivial
        | _ => exact agrees_wrongKind hSharp _ _
      | none =>
        cases v with
        | null => exact Yields.pure trivial
        | arr a =>
          simp only
          split
          · refine Yields.look fun _ _ m n hm => ?_
            rw [hm.world.heap]
            exact (Yields.mapM (P := fun _ => True) _
              fun u _ => ih hLess _ u).bind fun _ _ =>
                Yields.pure trivial
          · exact hReference _
        | str s => exact hReference _
        | obj a => exact hReference _
        | void =>
          simp only
          split
          · refine agrees_freshId.bind fun _ _ => ?_
            refine Yields.look fun _ _ m n hm => ?_
            rw [hm.world.heap]
            exact Yields.pure trivial
          · exact agrees_wrongKind hSharp _ _
        | scalar c =>
          simp only
          split
          · refine agrees_freshId.bind fun _ _ => ?_
            refine Yields.look fun _ _ m n hm => ?_
            rw [hm.world.heap]
            exact Yields.pure trivial
          · exact agrees_wrongKind hSharp _ _

/- A value is captured in one way on both sides. -/
theorem agrees_captureValue
    (hSettled : B.Settled)
    (hSharp : S.Sharp)
    (hp : Paired M p q)
    (hi : Invokers S B M i j)
    (hw : ∀ kind v g, Watches S (B.holds g) w w'
      (.captured kind v) (.captured kind v))
    {n k : Nat}
    (hFuel : Paced S n k)
    (kind : Kind)
    (v : Val) :
    Agrees S B (captureValue w p i n kind v)
      (captureValue w' q j k kind v) := by
  refine Yields.look fun _ _ m m' hm => ?_
  rw [hm.world.heap]
  refine agrees_snapshot hSettled hSharp hp hi hw ?_ kind v
  unfold captureDepth
  rcases hFuel with h | h | h
  · exact .inl (by omega)
  · exact .inr (.inl ⟨h.1, by omega⟩)
  · exact .inr (.inr ⟨h.1, by omega⟩)

end Capturing

------------------------------------------------------------
-- Values of Actions
------------------------------------------------------------

section Actions

variable {S : Slack}
variable {B : Bond}
variable {α β κ : Type}
variable {f g : α → Run β}

/- What agrees agrees in sequences. -/
theorem carries_agrees :
    Carries Run Run (fun _ => Agrees S B) where
  pure := fun _ => Yields.pure trivial
  bind := fun hx hf => Yields.bind hx fun a _ => hf a

/- The values of an action are mapped on both sides. -/
theorem agrees_mapAction
    (h : ∀ a, Agrees S B (f a) (g a))
    (a : Action κ α) : Agrees S B (a.mapM f) (a.mapM g) :=
  carries_agrees.mapAction a h

end Actions

end ExecTrace
