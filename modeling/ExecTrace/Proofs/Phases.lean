import ExecTrace.Proofs.Ledger
import ExecTrace.Proofs.Telling

/-
  A logic for single runs that record. A run starts in a phase: it
  has some frames, and a recorder that either records, with the
  ledger of its open frames, or is suspended. The logic says in
  which phase a run ends, with a value, an exception or a fault.
  The recorder never misses a frame: it only may run out of
  numbers. Nothing is said of runs that are stopped or lack fuel.

  Main declarations:
    * `Met` and `Obeys`
    * `Heap.Depicts` and `Child.Fits`
    * `Rules`, `Tape`, `Phase`, `At` and `Lost`
    * `Stays` and `congruence_stays`
    * `Stays.inScope`, `Stays.inFrame`, `Stays.catching`
-/

namespace ExecTrace

open Run

------------------------------------------------------------
-- Ends of Single Runs
------------------------------------------------------------

/-
  A run ended as it should: what is known of the machine depends
  on whether there is a value, an exception or a fault. The only
  defect of a recorder is that it has no numbers left.
-/
inductive Met
    {α : Type}
    (ok : α → Machine → Prop)
    (thrown : Val → Machine → Prop)
    (lost : Machine → Prop) : End α → Prop where
  | ok
      {a : α} {m : Machine}
      (h : ok a m) : Met ok thrown lost (.ok a, m)
  | thrown
      {v : Val} {m : Machine}
      (h : thrown v m) : Met ok thrown lost (.error (.throw v), m)
  | lost
      {c : Fault} {m : Machine}
      (h : lost m) : Met ok thrown lost (.error (.fault c), m)
  | exhausted
      {m : Machine} : Met ok thrown lost (.error (misuse .exhausted), m)
  | spent
      {m : Machine} : Met ok thrown lost (.error .outOfFuel, m)
  | stopped
      {why : String} {m : Machine} :
      Met ok thrown lost (.error (.stopped why), m)

/- What is known of a machine whatever its variables are. -/
def Blind (P : Machine → Prop) : Prop :=
  ∀ (m : Machine) (l : Locals), P m → P { m with locals := l }

/- Machines of some kind are taken to ends as they should be. -/
def Obeys
    {α : Type}
    (pre : Machine → Prop)
    (x : Run α)
    (ok : α → Machine → Prop)
    (thrown : Val → Machine → Prop)
    (lost : Machine → Prop) : Prop :=
  ∀ m, pre m → Met ok thrown lost (x m)

section Rules

variable {α β : Type}
variable {pre pre' : Machine → Prop}
variable {ok ok' : α → Machine → Prop}
variable {done : β → Machine → Prop}
variable {thrown thrown' : Val → Machine → Prop}
variable {lost lost' : Machine → Prop}
variable {x : Run α}

/- An end is as it should be if less is asked of it. -/
theorem Met.weaken
    {r : End α}
    (h : Met ok thrown lost r)
    (hOk : ∀ a m, ok a m → ok' a m)
    (hThrown : ∀ v m, thrown v m → thrown' v m)
    (hLost : ∀ m, lost m → lost' m) :
    Met ok' thrown' lost' r := by
  cases h with
  | ok h => exact .ok (hOk _ _ h)
  | thrown h => exact .thrown (hThrown _ _ h)
  | lost h => exact .lost (hLost _ h)
  | exhausted => exact .exhausted
  | spent => exact .spent
  | stopped => exact .stopped

namespace Obeys

/- The rule of consequence. -/
theorem weaken
    (h : Obeys pre x ok thrown lost)
    (hPre : ∀ m, pre' m → pre m)
    (hOk : ∀ a m, ok a m → ok' a m)
    (hThrown : ∀ v m, thrown v m → thrown' v m)
    (hLost : ∀ m, lost m → lost' m) :
    Obeys pre' x ok' thrown' lost' :=
  fun m hm => (h m (hPre m hm)).weaken hOk hThrown hLost

/- A value is returned. -/
theorem pure
    {a : α}
    (h : ∀ m, pre m → ok a m) :
    Obeys pre (Pure.pure a) ok thrown lost :=
  fun m hm => .ok (h m hm)

/- An exception is thrown. -/
theorem throw
    {v : Val}
    (h : ∀ m, pre m → thrown v m) :
    Obeys pre (MonadExcept.throw (.throw v)) ok thrown lost :=
  fun m hm => .thrown (h m hm)

/- A look at the machine. -/
theorem look
    {f : Machine → Run α}
    (h : ∀ m, pre m → Met ok thrown lost (f m m)) :
    Obeys pre ((get : Run Machine) >>= f) ok thrown lost :=
  h

/- What holds of the machine may be used. -/
theorem assuming
    {P : Prop}
    (hP : ∀ m, pre m → P)
    (h : P → Obeys pre x ok thrown lost) :
    Obeys pre x ok thrown lost :=
  fun m hm => h (hP m hm) m hm

/- Sequences are followed part by part. -/
theorem bind
    {f : α → Run β}
    (h : Obeys pre x ok thrown lost)
    (hf : ∀ a, Obeys (ok a) (f a) done thrown lost) :
    Obeys pre (x >>= f) done thrown lost := by
  intro m hm
  have hFirst := h m hm
  rw [bind_apply]
  generalize x m = r at hFirst ⊢
  cases hFirst with
  | ok h => exact hf _ _ h
  | thrown h => exact .thrown h
  | lost h => exact .lost h
  | exhausted => exact .exhausted
  | spent => exact .spent
  | stopped => exact .stopped

/- A sequence with something known between its parts. -/
theorem via
    (mid : α → Machine → Prop)
    {f : α → Run β}
    (h : Obeys pre x mid thrown lost)
    (hf : ∀ a, Obeys (mid a) (f a) done thrown lost) :
    Obeys pre (x >>= f) done thrown lost :=
  h.bind hf

/- An observer may stop a run, and else knows that it does not. -/
theorem watch
    {w : Observer}
    {moment : Moment}
    {done : Unit → Machine → Prop}
    (h : ∀ m, pre m → w moment m = none → done () m) :
    Obeys pre (ExecTrace.watch w moment) done thrown lost := by
  intro m hm
  unfold ExecTrace.watch
  cases hWatch : w moment m with
  | none => exact .ok (h m hm hWatch)
  | some why => exact .stopped

/- Something is done if an exception is thrown. -/
theorem onThrow
    {act : Val → Run Unit}
    {caught : Val → Machine → Prop}
    (h : Obeys pre x ok caught lost)
    (hAct : ∀ v, Obeys (caught v) (act v) (fun _ m => thrown v m)
      (fun _ _ => False) lost) :
    Obeys pre (Teller.onThrow x act) ok thrown lost := by
  intro m hm
  have hFirst := h m hm
  unfold Teller.onThrow
  generalize x m = r at hFirst ⊢
  cases hFirst with
  | ok h => exact .ok h
  | @thrown v k h =>
    have hSecond := hAct v k h
    dsimp only
    rw [bind_apply]
    generalize act v k = s at hSecond ⊢
    cases hSecond with
    | ok h => exact .thrown h
    | thrown h => exact h.elim
    | lost h => exact .lost h
    | exhausted => exact .exhausted
    | spent => exact .spent
    | stopped => exact .stopped
  | lost h => exact .lost h
  | exhausted => exact .exhausted
  | spent => exact .spent
  | stopped => exact .stopped

/- A handler is run if an exception is thrown. -/
theorem catching
    {body : Run Flow}
    {handle : Val → Run Flow}
    {ok : Flow → Machine → Prop}
    {caught : Val → Machine → Prop}
    (h : Obeys pre body ok caught lost)
    (hHandle : ∀ v, Obeys (caught v) (handle v) ok thrown lost) :
    Obeys pre (ExecTrace.catching body handle) ok thrown lost := by
  intro m hm
  have hFirst := h m hm
  unfold ExecTrace.catching
  generalize body m = r at hFirst ⊢
  cases hFirst with
  | ok h => exact .ok h
  | @thrown v k h => exact hHandle v k h
  | lost h => exact .lost h
  | exhausted => exact .exhausted
  | spent => exact .spent
  | stopped => exact .stopped

------------------------------------------------------------
-- Brackets
------------------------------------------------------------

/- A run has variables of its own. -/
theorem withLocals
    (h : Obeys pre x ok thrown lost)
    (locals : Locals)
    (hPre : Blind pre)
    (hOk : ∀ a, Blind (ok a))
    (hThrown : ∀ v, Blind (thrown v))
    (hLost : Blind lost) :
    Obeys pre (ExecTrace.withLocals locals x) ok thrown lost := by
  intro m hm
  have hBody := h { m with locals := locals } (hPre m locals hm)
  unfold ExecTrace.withLocals
  generalize x { m with locals := locals } = r at hBody ⊢
  cases hBody with
  | ok h => exact .ok (hOk _ _ _ h)
  | thrown h => exact .thrown (hThrown _ _ _ h)
  | lost h => exact .lost (hLost _ _ h)
  | exhausted => exact .exhausted
  | spent => exact .spent
  | stopped => exact .stopped

/- A run has a scope of its own. -/
theorem inScope
    (h : Obeys pre x ok thrown lost)
    (hPre : Blind pre)
    (hOk : ∀ a, Blind (ok a))
    (hThrown : ∀ v, Blind (thrown v))
    (hLost : Blind lost) :
    Obeys pre (ExecTrace.inScope x) ok thrown lost := by
  intro m hm
  have hBody := h
    { m with
      locals := { m.locals with scopes := [] :: m.locals.scopes } }
    (hPre m _ hm)
  unfold ExecTrace.inScope
  dsimp only
  generalize x _ = r at hBody ⊢
  cases hBody with
  | ok h => exact .ok (hOk _ _ _ h)
  | thrown h => exact .thrown (hThrown _ _ _ h)
  | lost h => exact .lost (hLost _ _ h)
  | exhausted => exact .exhausted
  | spent => exact .spent
  | stopped => exact .stopped

/- A run has a frame of its own. -/
theorem inFrame
    (h : Obeys pre x ok thrown lost)
    (frame : Frame)
    (hPre : ∀ m, pre' m →
      pre { m with frames := frame :: m.frames })
    (hOk : ∀ a m, ok a m →
      ok' a { m with frames := m.frames.tail })
    (hThrown : ∀ v m, thrown v m →
      thrown' v { m with frames := m.frames.tail })
    (hLost : ∀ m, lost m →
      lost' { m with frames := m.frames.tail }) :
    Obeys pre' (ExecTrace.inFrame frame x) ok' thrown' lost' := by
  intro m hm
  have hBody := h { m with frames := frame :: m.frames } (hPre m hm)
  unfold ExecTrace.inFrame
  generalize x { m with frames := frame :: m.frames } = r
    at hBody ⊢
  cases hBody with
  | ok h => exact .ok (hOk _ _ h)
  | thrown h => exact .thrown (hThrown _ _ h)
  | lost h => exact .lost (hLost _ h)
  | exhausted => exact .exhausted
  | spent => exact .spent
  | stopped => exact .stopped

end Obeys

end Rules

------------------------------------------------------------
-- Snapshots of One Value
------------------------------------------------------------

/- A snapshot of a value as a reference, taken of a heap. -/
def Heap.Depicts
    (h : Heap)
    (v : Val)
    (s : Snapshot) : Prop :=
  ∃ id type text, s = .ref id type text ∧
    (v.boxedClass? = some type ∨
      id = h.identity v ∧ type = h.className v)

/- Classes that wrap a primitive are named as such. -/
theorem mem_boxNames
    {v : Val}
    {type : String}
    (h : v.boxedClass? = some type) : type ∈ boxNames := by
  unfold Val.boxedClass? at h
  split at h <;> cases h <;> decide

/- A later snapshot of the same value follows an earlier one. -/
theorem Heap.Depicts.follows
    {h h' : Heap}
    {v : Val}
    {s t : Snapshot}
    (hs : h.Depicts v s)
    (hGrown : h.Extends h')
    (ht : h'.Depicts v t) : s.Follows t := by
  rcases hs with ⟨id, type, text, rfl, hs⟩
  rcases ht with ⟨id', type', text', rfl, ht⟩
  rcases hs with hBoxed | ⟨rfl, rfl⟩
  · exact .inr (.inl (mem_boxNames hBoxed))
  by_cases hNone : h.identity v = 0
  · exact .inl hNone
  rcases ht with hBoxed | ⟨rfl, rfl⟩
  · refine absurd ?_ hNone
    cases v <;> first | rfl | cases hBoxed
  · exact .inr (.inr (hGrown.identity hNone))

/-
  How an activation ended fits the outcome of a run: it returned,
  or there is a snapshot of the exception.
-/
def Child.Fits
    (h : Heap)
    (exception : Option Val) : Child → Prop
  | .none => False
  | .returned => exception = Option.none
  | .thrown s => ∃ (v : Val) (h' : Heap), exception = some v ∧
    h'.Extends h ∧ h'.Depicts v s

/- An ending fits when the heap has grown. -/
theorem Child.Fits.grown
    {h h' : Heap}
    {exception : Option Val}
    {child : Child}
    (hFits : child.Fits h exception)
    (hGrown : h.Extends h') : child.Fits h' exception := by
  cases child with
  | none => exact hFits
  | returned => exact hFits
  | thrown s =>
    rcases hFits with ⟨v, k, hv, hk, hs⟩
    exact ⟨v, k, hv, hk.trans hGrown, hs⟩

------------------------------------------------------------
-- Phases
------------------------------------------------------------

/-
  The rules that runs are to keep: the program, whether the
  ledger is strict, and the open frames that stay open whatever
  happens.
-/
structure Rules where
  program : Program
  strict : Bool
  floor : List OpenFrame

/-
  The recorder of a run: it records, with a ledger, or it is
  suspended.
-/
inductive Tape where
  | running (tiers : List Tier)
  | held (r : Recorder)

/-
  The phase of a run: its frames, a heap that its heap extends,
  and its recorder.
-/
structure Phase where
  frames : List Frame
  since : Heap
  tape : Tape

variable {K : Rules}

namespace Tape

/- The recorder of a machine is as a phase says. -/
def Shows
    (K : Rules)
    (o : Option Recorder) : Tape → Prop
  | .running tiers => ∃ r, o = some r ∧ r.suspended = false ∧
    r.Keeps K.program K.strict tiers
  | .held r => o = some r ∧ r.suspended = true

/-
  The recorder of a machine after a fault: more frames than the
  lowest ones may be open.
-/
def Spilt
    (K : Rules)
    (o : Option Recorder) : Tape → Prop
  | .running _ => ∃ tiers, (Tape.running tiers).Shows K o ∧
    K.floor <:+ tiers.map Tier.frame
  | .held r => (Tape.held r).Shows K o

/- The lowest frames are open. -/
def Deep
    (K : Rules)
    (t : Tape) : Prop :=
  ∀ tiers, t = .running tiers → K.floor <:+ tiers.map Tier.frame

/- Nothing is lost as long as there is no fault. -/
theorem Shows.spilt
    {o : Option Recorder}
    {t : Tape}
    (h : t.Shows K o)
    (hDeep : t.Deep K) : t.Spilt K o := by
  cases t with
  | running tiers => exact ⟨tiers, h, hDeep tiers rfl⟩
  | held r => exact h

end Tape

namespace Phase

/- A phase with a frame more. -/
def push
    (f : Frame)
    (g : Phase) : Phase :=
  { g with frames := f :: g.frames }

/- A phase with another recorder. -/
def on
    (g : Phase)
    (t : Tape) : Phase :=
  { g with tape := t }

end Phase

/- A machine is in a phase. -/
structure At
    (K : Rules)
    (g : Phase)
    (m : Machine) : Prop where
  frames : m.frames = g.frames
  since : g.since.Extends m.heap
  tape : g.tape.Shows K m.recorder

/- A machine after a fault in a phase. -/
structure Lost
    (K : Rules)
    (g : Phase)
    (m : Machine) : Prop where
  frames : m.frames = g.frames
  since : g.since.Extends m.heap
  tape : g.tape.Spilt K m.recorder

section Phases

variable {g : Phase}
variable {f : Frame}
variable {m : Machine}

namespace At

/- Variables play no role. -/
theorem blind : Blind (At K g) :=
  fun _ _ h => ⟨h.frames, h.since, h.tape⟩

/- A phase knows what a phase of an earlier heap knows. -/
theorem later
    (h : At K g m)
    {since : Heap}
    (hSince : since.Extends g.since) :
    At K { g with since := since } m :=
  ⟨h.frames, hSince.trans h.since, h.tape⟩

/- A phase may be said to start now. -/
theorem now (h : At K g m) : At K { g with since := m.heap } m :=
  ⟨h.frames, .refl, h.tape⟩

/- A fault loses nothing of a deep phase. -/
theorem lost
    (h : At K g m)
    (hDeep : g.tape.Deep K) : Lost K g m :=
  ⟨h.frames, h.since, h.tape.spilt hDeep⟩

/- A frame is entered. -/
theorem push
    (h : At K g m)
    (f : Frame) :
    At K (g.push f) { m with frames := f :: m.frames } :=
  ⟨congrArg _ h.frames, h.since, h.tape⟩

/- A frame is left. -/
theorem pop
    (h : At K (g.push f) m) :
    At K g { m with frames := m.frames.tail } :=
  ⟨congrArg List.tail h.frames, h.since, h.tape⟩

/- A mild step leads nowhere else. -/
theorem mild
    {β : Type}
    {step : Machine → β × Machine}
    (h : At K g m)
    (hStep : Machine.Mild step) : At K g (step m).2 where
  frames := (hStep.frames m).trans h.frames
  since := h.since.trans (hStep.heap m)
  tape := (hStep.recorder m).symm ▸ h.tape

end At

namespace Lost

/- Variables play no role. -/
theorem blind : Blind (Lost K g) :=
  fun _ _ h => ⟨h.frames, h.since, h.tape⟩

/- A frame is left. -/
theorem pop
    (h : Lost K (g.push f) m) :
    Lost K g { m with frames := m.frames.tail } :=
  ⟨congrArg List.tail h.frames, h.since, h.tape⟩

end Lost

end Phases

------------------------------------------------------------
-- Runs that Stay in their Phase
------------------------------------------------------------

/-
  A run that stays in its phase, for every phase of some kind. As
  a relation between two runs it says nothing of the second one.
-/
def Stays
    (K : Rules)
    (G : Phase → Prop)
    (β : Type)
    (x _y : Run β) : Prop :=
  ∀ g, G g → Obeys (At K g) x (fun _ => At K g) (fun _ => At K g)
    (Lost K g)

section Stays

variable {α β : Type}
variable {G H : Phase → Prop}
variable {x y : Run α}

namespace Stays

/- A run stays in fewer phases. -/
theorem weaken
    (h : Stays K G α x y)
    (hH : ∀ g, H g → G g) : Stays K H α x y :=
  fun g hg => h g (hH g hg)

/- A sequence stays where its parts stay. -/
theorem bind
    {f f' : α → Run β}
    (hx : Stays K G α x y)
    (hf : ∀ a, Stays K G β (f a) (f' a)) :
    Stays K G β (x >>= f) (y >>= f') :=
  fun g hg => (hx g hg).bind fun a => hf a g hg

/- Another look at the machine. -/
theorem look
    {f f' : Machine → Run α}
    (h : ∀ m, Stays K G α (f m) (f' m)) :
    Stays K G α ((get : Run Machine) >>= f)
      ((get : Run Machine) >>= f') :=
  fun g hg m hm => h m g hg m hm

/- A mild step stays where it is. -/
theorem mild
    {β : Type}
    {step : Machine → β × Machine}
    (hStep : Machine.Mild step) :
    Stays K G β (fun m => (.ok (step m).1, (step m).2))
      (fun m => (.ok (step m).1, (step m).2)) :=
  fun _ _ _ hm => .ok (hm.mild hStep)

/- A change of the variables stays where it is. -/
theorem relocate
    (f : Machine → Locals) :
    Stays K G Unit (modify fun m => { m with locals := f m })
      (modify fun m => { m with locals := f m }) :=
  fun _ _ m hm => .ok (At.blind m (f m) hm)

/- A run has a scope of its own. -/
theorem inScope
    (h : Stays K G α x y) :
    Stays K G α (ExecTrace.inScope x) (ExecTrace.inScope y) :=
  fun g hg => (h g hg).inScope At.blind (fun _ => At.blind)
    (fun _ => At.blind) Lost.blind

/- A run has variables of its own. -/
theorem withLocals
    (h : Stays K G α x y)
    (locals : Locals) :
    Stays K G α (ExecTrace.withLocals locals x)
      (ExecTrace.withLocals locals y) :=
  fun g hg => (h g hg).withLocals locals At.blind (fun _ => At.blind)
    (fun _ => At.blind) Lost.blind

/- A handler is run if an exception is thrown. -/
theorem catching
    {body body' : Run Flow}
    {handle handle' : Val → Run Flow}
    (h : Stays K G Flow body body')
    (hHandle : ∀ v, Stays K G Flow (handle v) (handle' v)) :
    Stays K G Flow (ExecTrace.catching body handle)
      (ExecTrace.catching body' handle') :=
  fun g hg => (h g hg).catching fun v => hHandle v g hg

end Stays

/-
  Runs that stay in phases of some kind are a congruence, if no
  such phase is too shallow, and another frame makes no
  difference.
-/
theorem congruence_stays
    (hDeep : ∀ g, G g → g.tape.Deep K)
    (hPush : ∀ g, G g → ∀ f : Frame, f.instrumented = false →
      G (g.push f)) :
    Congruence (Stays K G) where
  pure _ := fun _ _ => .pure fun _ hm => hm
  bind hx hf := hx.bind hf
  look hf := Stays.look hf
  cut c hc := fun g hg m hm => by
    cases c with
    | throw v => exact .thrown hm
    | fault cause => exact .lost (hm.lost (hDeep g hg))
    | panic text => cases hc
    | outOfFuel => exact .spent
    | stopped why => cases hc
  alter f hf := Stays.mild hf
  inFrame frame hFrame h := fun g hg =>
    (h (g.push frame) (hPush g hg frame hFrame)).inFrame frame
      (fun _ hm => hm.push frame) (fun _ _ hm => hm.pop)
      (fun _ _ hm => hm.pop) fun _ hm => hm.pop

end Stays

end ExecTrace
