import ExecTrace.Machine.Observer

/-
  A logic for comparing two runs. Related machines are taken to
  related ends: both runs give results, or both are cut short in
  the same way, where one fault is as good as another. Some ends
  excuse a comparison: a stop of the first run by its observer,
  and the lack of fuel on a side that may run short of it. How
  the machines are related after a cut depends on the cut.

  Main declarations:
    * `Slack` and `Alike`
    * `Outcome` and `Sim`
    * `Sim.bind` and `Sim.weaken`
    * `Enough` and `Paced`
-/

namespace ExecTrace

------------------------------------------------------------
-- Computations
------------------------------------------------------------

namespace Run

variable {α β : Type}

/- A sequence runs its second part on what the first leaves. -/
theorem bind_apply
    (x : Run α)
    (f : α → Run β)
    (m : Machine) :
    (x >>= f) m =
      match x m with
      | (.ok a, m') => f a m'
      | (.error c, m') => (.error c, m') := by
  change
    (ExceptT.bindCont f (x m).1 : StateM Machine _) (x m).2 = _
  rcases x m with ⟨_ | _, _⟩ <;> rfl

/- A sequence whose first part returns. -/
theorem bind_ok
    {x : Run α}
    {f : α → Run β}
    {m m' : Machine}
    {a : α}
    (hx : x m = (.ok a, m')) :
    (x >>= f) m = f a m' := by
  rw [bind_apply, hx]

/- A sequence whose first part is cut short. -/
theorem bind_error
    {x : Run α}
    {f : α → Run β}
    {m m' : Machine}
    {c : Interrupt}
    (hx : x m = (.error c, m')) :
    (x >>= f) m = (.error c, m') := by
  rw [bind_apply, hx]

/- A sequence that returned. -/
theorem bind_returned
    {x : Run α}
    {f : α → Run β}
    {m k : Machine}
    {b : β}
    (h : (x >>= f) m = (.ok b, k)) :
    ∃ a m', x m = (.ok a, m') ∧ f a m' = (.ok b, k) := by
  rw [bind_apply] at h
  generalize x m = r at h
  rcases r with ⟨e | a, m'⟩
  · cases h
  · exact ⟨a, m', rfl, h⟩

/- What follows a look at the machine. -/
theorem get_bind_apply
    (f : Machine → Run α)
    (m : Machine) :
    ((get : Run Machine) >>= f) m = f m m :=
  rfl

/- The machine can be changed. -/
theorem modify_apply
    (f : Machine → Machine)
    (m : Machine) :
    (modify f : Run Unit) m = (.ok (), f m) :=
  rfl

end Run

------------------------------------------------------------
-- Comparable Ends
------------------------------------------------------------

/-
  What excuses a comparison: some stops, some panics and perhaps
  the faults of the first run, some stops and perhaps the panics
  of the second run, and the lack of fuel in the first or in the
  second run. It also tells which defects are comparable: whether
  both runs may panic or be stopped, and which stops of the first
  run go with a panic of the second.
-/
structure Slack where
  stops : String → Bool := fun _ => false
  breaks : String → Bool := fun _ => false
  misses : String → Bool := fun _ => false
  lapses : Bool := false
  slips : Bool := false
  short : Bool := false
  behind : Bool := false
  panics : Bool := true
  halts : Bool := true
  answers : String → Bool := fun _ => false

/- Defects are comparable, and no fault is an excuse. -/
structure Slack.Sharp (S : Slack) : Prop where
  panics : S.panics = true
  lapses : S.lapses = false

/- Whether an end of the first run excuses the comparison. -/
def Slack.first (S : Slack) : Interrupt → Bool
  | .stopped why => S.stops why
  | .panic text => S.breaks text
  | .fault _ => S.lapses
  | .outOfFuel => S.short
  | _ => false

/- Whether an end of the second run excuses the comparison. -/
def Slack.second (S : Slack) : Interrupt → Bool
  | .stopped why => S.misses why
  | .panic _ => S.slips
  | .outOfFuel => S.behind
  | _ => false

/-
  Two runs are cut short alike in the same way, except that
  faults may differ. Nothing that is thrown is null.
-/
inductive Alike (S : Slack) : Interrupt → Interrupt → Prop where
  | throw (v : Val) (hv : v ≠ .null) : Alike S (.throw v) (.throw v)
  | fault (c d : Fault) : Alike S (.fault c) (.fault d)
  | panic (s : String) (h : S.panics = true) :
    Alike S (.panic s) (.panic s)
  | outOfFuel : Alike S .outOfFuel .outOfFuel
  | stopped (why : String) (h : S.halts = true) :
    Alike S (.stopped why) (.stopped why)
  | answered (why s : String) (h : S.answers why = true) :
    Alike S (.stopped why) (.panic s)

/- The ends of a computation. -/
abbrev End (α : Type) := Except Interrupt α × Machine

/- How machines are related after a cut of the first run. -/
abbrev Cut := Interrupt → Machine → Machine → Prop

/-
  Comparable ends: results related by `post`, similar cuts on
  machines related by `cut`, or an end with an excuse.
-/
inductive Outcome
    {α β : Type}
    (S : Slack)
    (post : α → β → Machine → Machine → Prop)
    (cut : Cut) :
    End α → End β → Prop where
  | ok
      {a : α} {b : β} {m n : Machine}
      (h : post a b m n) :
      Outcome S post cut (.ok a, m) (.ok b, n)
  | alike
      {c d : Interrupt} {m n : Machine}
      (h : Alike S c d) (hCut : cut c m n) :
      Outcome S post cut (.error c, m) (.error d, n)
  | first
      {c : Interrupt} {m : Machine} {s : End β}
      (h : S.first c = true) :
      Outcome S post cut (.error c, m) s
  | second
      {d : Interrupt} {n : Machine} {r : End α}
      (h : S.second d = true) :
      Outcome S post cut r (.error d, n)

/- Related machines are taken to comparable ends. -/
def Sim
    {α β : Type}
    (S : Slack)
    (pre : Machine → Machine → Prop)
    (post : α → β → Machine → Machine → Prop)
    (cut : Cut)
    (x : Run α)
    (y : Run β) : Prop :=
  ∀ m n, pre m n → Outcome S post cut (x m) (y n)

------------------------------------------------------------
-- Rules
------------------------------------------------------------

section Rules

variable {S : Slack}
variable {α β γ δ : Type}
variable {pre pre' : Machine → Machine → Prop}
variable {cut cut' : Cut}
variable {post post' : α → β → Machine → Machine → Prop}

/- Ends stay comparable under weaker relations. -/
theorem Outcome.weaken
    {r : End α}
    {s : End β}
    (h : Outcome S post cut r s)
    (hPost : ∀ a b m n, post a b m n → post' a b m n)
    (hCut : ∀ c m n, cut c m n → cut' c m n) :
    Outcome S post' cut' r s := by
  cases h with
  | ok h => exact .ok (hPost _ _ _ _ h)
  | alike h hc => exact .alike h (hCut _ _ _ hc)
  | first h => exact .first h
  | second h => exact .second h

namespace Sim

/- The rule of consequence. -/
theorem weaken
    {x : Run α}
    {y : Run β}
    (h : Sim S pre post cut x y)
    (hPre : ∀ m n, pre' m n → pre m n)
    (hPost : ∀ a b m n, post a b m n → post' a b m n)
    (hCut : ∀ c m n, cut c m n → cut' c m n) :
    Sim S pre' post' cut' x y :=
  fun m n hm => (h m n (hPre m n hm)).weaken hPost hCut

/- Equal runs are compared alike. -/
theorem ofEq
    {x x' : Run α}
    {y : Run β}
    (hx : x = x')
    (h : Sim S pre post cut x' y) : Sim S pre post cut x y :=
  hx ▸ h

/- Values are related as they are. -/
theorem pure
    {a : α}
    {b : β}
    (h : ∀ m n, pre m n → post a b m n) :
    Sim S pre post cut (Pure.pure a) (Pure.pure b) :=
  fun m n hm => .ok (h m n hm)

/- Interrupts are related as they are. -/
theorem throw
    {c d : Interrupt}
    (h : Alike S c d)
    (hCut : ∀ m n, pre m n → cut c m n) :
    Sim S pre post cut (throw c) (throw d) :=
  fun m n hm => .alike h (hCut m n hm)

/- Sequences are compared part by part. -/
theorem bind
    {mid : γ → δ → Machine → Machine → Prop}
    {x : Run γ}
    {y : Run δ}
    {f : γ → Run α}
    {g : δ → Run β}
    (h : Sim S pre mid cut x y)
    (hf : ∀ a b, Sim S (mid a b) post cut (f a) (g b)) :
    Sim S pre post cut (x >>= f) (y >>= g) := by
  intro m n hm
  have hxy := h m n hm
  rw [Run.bind_apply, Run.bind_apply]
  generalize x m = r at hxy ⊢
  generalize y n = s at hxy ⊢
  cases hxy with
  | ok h => exact hf _ _ _ _ h
  | alike h hc => exact .alike h hc
  | first h => exact .first h
  | second h => exact .second h

/- How the first run came to its result is known afterwards. -/
theorem tracking
    {x : Run α}
    {y : Run β}
    (h : Sim S pre post cut x y) :
    Sim S pre
      (fun a b m n => post a b m n ∧
        ∃ m₀ n₀, pre m₀ n₀ ∧ x m₀ = (.ok a, m))
      cut x y := by
  intro m n hm
  have hxy := h m n hm
  generalize hx : x m = r at hxy ⊢
  generalize y n = t at hxy ⊢
  cases hxy with
  | ok h => exact .ok ⟨h, m, n, hm, hx⟩
  | alike h hc => exact .alike h hc
  | first h => exact .first h
  | second h => exact .second h

/- How the second run came to its result is known afterwards. -/
theorem trackingRight
    {x : Run α}
    {y : Run β}
    (h : Sim S pre post cut x y) :
    Sim S pre
      (fun a b m n => post a b m n ∧
        ∃ m₀ n₀, pre m₀ n₀ ∧ y n₀ = (.ok b, n))
      cut x y := by
  intro m n hm
  have hxy := h m n hm
  generalize x m = r at hxy ⊢
  generalize hy : y n = t at hxy ⊢
  cases hxy with
  | ok h => exact .ok ⟨h, m, n, hm, hy⟩
  | alike h hc => exact .alike h hc
  | first h => exact .first h
  | second h => exact .second h

/- What holds of the machines may be used in the comparison. -/
theorem assuming
    {x : Run α}
    {y : Run β}
    {P : Prop}
    (hP : ∀ m n, pre m n → P)
    (h : P → Sim S pre post cut x y) :
    Sim S pre post cut x y :=
  fun m n hm => h (hP m n hm) m n hm

/- A look at both machines. -/
theorem look
    {f : Machine → Run α}
    {g : Machine → Run β}
    (h : ∀ m n, pre m n →
      Sim S (fun m' n' => m' = m ∧ n' = n) post cut (f m) (g n)) :
    Sim S pre post cut
      ((get : Run Machine) >>= f) ((get : Run Machine) >>= g) :=
  fun m n hm => h m n hm m n ⟨rfl, rfl⟩

/- Each instance of a precondition may be taken on its own. -/
theorem ofExists
    {ι : Type}
    {family : ι → Machine → Machine → Prop}
    {x : Run α}
    {y : Run β}
    (h : ∀ i, Sim S (family i) post cut x y) :
    Sim S (fun m n => ∃ i, family i m n) post cut x y :=
  fun m n ⟨i, hm⟩ => h i m n hm

/- A second run without fuel, if it may be behind. -/
theorem behind
    {x : Run α}
    (h : S.behind = true) :
    Sim S pre post cut x
      (MonadExcept.throw Interrupt.outOfFuel : Run β) :=
  fun _ n _ => .second (d := .outOfFuel) (n := n) h

end Sim

end Rules

------------------------------------------------------------
-- Fuel
------------------------------------------------------------

/-
  Supplies of fuel for two runs that need it differently: the
  second run takes at most eight steps inwards for each one of
  the first, and never fewer.
-/
def Enough
    (S : Slack)
    (n k : Nat) : Prop :=
  S.short = true ∧ 8 * n ≤ k ∨ S.behind = true ∧ k ≤ n

/- Supplies of fuel for loops with the same rounds. -/
def Paced
    (S : Slack)
    (n k : Nat) : Prop :=
  n = k ∨ S.short = true ∧ n ≤ k ∨ S.behind = true ∧ k ≤ n

/- Without an excuse the supplies are the same. -/
theorem Paced.same
    {S : Slack}
    {n k : Nat}
    (h : Paced S n k)
    (hShort : S.short = false)
    (hBehind : S.behind = false) : n = k := by
  simpa [Paced, hShort, hBehind] using h

/- Some steps of the second run for one of the first. -/
theorem Enough.step
    {S : Slack}
    {n k : Nat}
    (h : Enough S (n + 1) k)
    (j : Nat)
    (hPos : 0 < j)
    (hMost : j ≤ 8) :
    Enough S n (k - j) := by
  rcases h with ⟨hs, hk⟩ | ⟨hb, hk⟩
  · exact .inl ⟨hs, by omega⟩
  · exact .inr ⟨hb, by omega⟩

/- The second run can take steps, unless it may be behind. -/
theorem Enough.fueled
    {S : Slack}
    {n k : Nat}
    (h : Enough S (n + 1) k)
    (j : Nat)
    (hMost : j < 8) :
    S.behind = true ∨ 0 < k - j := by
  rcases h with ⟨_, hk⟩ | ⟨hb, _⟩
  · exact .inr (by omega)
  · exact .inl hb

/- Enough fuel is enough for the rounds of a loop. -/
theorem Enough.paced
    {S : Slack}
    {n k : Nat}
    (h : Enough S n k) :
    Paced S n k := by
  rcases h with ⟨hs, hk⟩ | ⟨hb, hk⟩
  · exact .inr (.inl ⟨hs, by omega⟩)
  · exact .inr (.inr ⟨hb, hk⟩)

end ExecTrace
