import ExecTrace.Machine.Eval
import ExecTrace.Proofs.CallAgreement

/-
  Control flow agrees on linked machines: loops, switches,
  handlers and activations take parts that agree to wholes that
  agree. A loop that has fewer rounds on one side agrees as far
  as a lack of fuel is an excuse. Only a return tells the end of
  a method, if anything is told.

  Main declarations:
    * `Flow.told`
    * `steers_iterate`
    * `keeps_runAll`
    * `steers_loopRound` and the other rounds
    * `steers_switchOn`, `agrees_switchValue`
    * `steers_catching`, `steers_runHandler`
    * `agrees_activate`
-/

namespace ExecTrace

open Run

/- The end that is told before a statement ends in some way. -/
def Flow.told
    (method : Option String) : Flow → Option String
  | .return _ => method
  | _ => none

/- The end that is told before a round of a loop ends. -/
def roundTold
    (method : Option String)
    (flow : Option Flow) : Option String :=
  flow.bind (Flow.told method)

section Flow

variable {S : Slack}
variable {B : Bond}
variable {M : Pairing}
variable {p q : Program}
variable {i j : Invoker}
variable {e : Option String}

------------------------------------------------------------
-- Conditions
------------------------------------------------------------

/- A value is one truth value, or none, for two conditions. -/
theorem agrees_truthOf
    (e e' : Expr)
    (v : Val) :
    Agrees S B (truthOf e v) (truthOf e' v) := by
  unfold truthOf
  cases v.asBool? with
  | some b => exact Yields.pure trivial
  | none => exact yields_faultShowing _ _ _ _

/- Conditions agree if their expressions do. -/
theorem agrees_truth
    {ev ev' : Expr → Run Val}
    {e e' : Expr}
    {P : Val → Prop}
    (h : Yields S B P (ev e) (ev' e')) :
    Agrees S B (truth ev e) (truth ev' e') :=
  h.bind fun v _ => agrees_truthOf e e' v

/- A condition may be missing on both sides. -/
theorem agrees_goesOn
    {test test' : Expr → Run Bool}
    {c c' : Option Expr}
    (h : Option.Rel
      (fun e e' => Agrees S B (test e) (test' e')) c c') :
    Agrees S B (goesOn test c) (goesOn test' c') := by
  cases h with
  | none => exact Yields.pure trivial
  | some h => exact h

/- Expressions agree one after the other. -/
theorem agrees_mapForall₂
    {ev ev' : Expr → Run Val}
    {P : Val → Prop}
    {es es' : List Expr}
    (h : List.Forall₂
      (fun e e' => Yields S B P (ev e) (ev' e')) es es') :
    Agrees S B (es.mapM ev) (es'.mapM ev') := by
  induction h with
  | nil => exact Yields.pure trivial
  | cons h _ ih =>
    rw [List.mapM_cons, List.mapM_cons]
    exact h.bind fun _ _ => ih.bind fun _ _ =>
      Yields.pure trivial

/- Expressions may be evaluated for their effects. -/
theorem agrees_performAll
    {ev ev' : Expr → Run Val}
    {P : Val → Prop}
    {es es' : List Expr}
    (h : List.Forall₂
      (fun e e' => Yields S B P (ev e) (ev' e')) es es') :
    Agrees S B (performAll ev es) (performAll ev' es') :=
  (agrees_mapForall₂ h).bind fun _ _ => Yields.pure trivial

------------------------------------------------------------
-- Loops
------------------------------------------------------------

/- Loops agree if their rounds do. -/
theorem steers_iterate
    {round round' : Nat → Run (Option Flow)}
    {n k : Nat}
    (hFuel : Paced S n k)
    (h : ∀ i, Steers S B none (roundTold e) (round i) (round' i))
    (i : Nat) :
    Steers S B none (Flow.told e) (iterate round n i)
      (iterate round' k i) := by
  induction n generalizing k i with
  | zero =>
    cases k with
    | zero => exact fun g s _ m n _ => .alike .outOfFuel trivial
    | succ k =>
      have hShort : S.short = true := by
        rcases hFuel with h | h | h
        · omega
        · exact h.1
        · omega
      exact fun g s _ m n _ => .first hShort
  | succ n ih =>
    cases k with
    | zero =>
      have hBehind : S.behind = true := by
        rcases hFuel with h | h | h
        · omega
        · omega
        · exact h.1
      exact fun g s _ => Sim.behind hBehind
    | succ k =>
      have hLess : Paced S n k := by
        rcases hFuel with h | h | h
        · exact .inl (by omega)
        · exact .inr (.inl ⟨h.1, by omega⟩)
        · exact .inr (.inr ⟨h.1, by omega⟩)
      refine (h i).bind fun flow => ?_
      cases flow with
      | some flow => exact Steers.pure rfl
      | none => exact ih hLess (i + 1)

/- Statements come behind others that end normally. -/
theorem Keeps.followed
    {t t' x y : Run Flow}
    (ht : Keeps S B none (Flow.told e) t t')
    (h : Keeps S B none (Flow.told e) x y) :
    Keeps S B none (Flow.told e)
      (do
        match ← t with
        | .normal => x
        | flow => Pure.pure flow)
      (do
        match ← t' with
        | .normal => y
        | flow => Pure.pure flow) := by
  refine ht.bind fun flow => ?_
  cases flow with
  | normal => exact h
  | _ => exact Keeps.pure rfl

/- Statements agree one after the other. -/
theorem keeps_runAll
    {ex ex' : Stmt → Run Flow}
    {ss : List Stmt}
    (h : ∀ s ∈ ss,
      Keeps S B none (Flow.told e) (ex s) (ex' s)) :
    Keeps S B none (Flow.told e) (runAll ex ss)
      (runAll ex' ss) := by
  induction ss with
  | nil => exact Keeps.pure rfl
  | cons s rest ih =>
    exact (h s (by simp)).followed
      (ih fun s hs => h s (by simp [hs]))

/- The body of a loop is run once on both sides. -/
theorem steers_loopRound
    {ex ex' : Stmt → Run Flow}
    {body body' : Stmt}
    (h : Steers S B none (Flow.told e) (inScope (ex body))
      (inScope (ex' body')))
    (label : Option String) :
    Steers S B none (roundTold e) (loopRound ex label body)
      (loopRound ex' label body') := by
  refine h.bind fun flow => ?_
  cases flow with
  | normal => exact Steers.pure rfl
  | «continue» jump =>
    simp only
    split <;> exact Steers.pure rfl
  | «break» jump =>
    simp only
    split <;> exact Steers.pure rfl
  | «return» v => exact Steers.pure rfl
  | yield v => exact Steers.pure rfl

/- A round under a condition. -/
theorem steers_roundWhile
    {c c' : Run Bool}
    {r r' : Run (Option Flow)}
    (hc : Agrees S B c c')
    (hr : Steers S B none (roundTold e) r r') :
    Steers S B none (roundTold e) (roundWhile c r)
      (roundWhile c' r') := by
  refine Steers.after hc fun b _ => ?_
  cases b with
  | true => exact hr
  | false => exact Steers.pure rfl

/- A round followed by a condition. -/
theorem steers_roundUntil
    {c c' : Run Bool}
    {r r' : Run (Option Flow)}
    (hr : Steers S B none (roundTold e) r r')
    (hc : Agrees S B c c') :
    Steers S B none (roundTold e) (roundUntil r c)
      (roundUntil r' c') := by
  refine hr.bind fun flow => ?_
  cases flow with
  | some flow => exact Steers.pure rfl
  | none =>
    refine Steers.after hc fun b _ => ?_
    cases b <;> exact Steers.pure rfl

/- A round with an item of an array. -/
theorem steers_roundOver
    {r r' : Run (Option Flow)}
    (address : Nat)
    (x : String)
    (ty : Ty)
    (hr : ∀ v, Keeps S B none (roundTold e)
      (do
        declareLocal x v
        r)
      (do
        declareLocal x v
        r'))
    (i : Nat) :
    Steers S B none (roundTold e) (roundOver address x ty r i)
      (roundOver address x ty r' i) := by
  refine Steers.look fun _ _ m n hm => ?_
  rw [hm.world.heap]
  cases (m.heap.itemsOf address)[i]? with
  | none => exact Steers.pure rfl
  | some item => exact (hr _).inScope

/- A loop goes over one array. -/
theorem agrees_iterated
    (hp : Paired M p q)
    (v : Val) :
    Agrees S B (iterated p v) (iterated q v) := by
  cases v with
  | arr a => exact Yields.pure trivial
  | null => exact yields_raiseNull hp _
  | _ => exact yields_faultNaming _ _ _ _

/- Statements in front of a loop. -/
theorem steers_initialized
    {ex ex' : Stmt → Run Flow}
    {init init' : List Stmt}
    {loop loop' : Run Flow}
    (h : Keeps S B none (Flow.told e) (runAll ex init)
      (runAll ex' init'))
    (hLoop : Steers S B none (Flow.told e) loop loop') :
    Steers S B none (Flow.told e) (initialized ex init loop)
      (initialized ex' init' loop') := by
  refine Keeps.inScope (h.bind fun flow => ?_)
  cases flow with
  | normal => exact Keeps.ofSteers hLoop
  | _ => exact Keeps.fault _ _

------------------------------------------------------------
-- Switches
------------------------------------------------------------

/- Arms with the same labels whose bodies keep the link. -/
def ArmsKeep
    (S : Slack)
    (B : Bond)
    (e : Option String)
    (ex ex' : List Stmt → Run Flow)
    (a a' : Arm) : Prop :=
  a'.labels = a.labels ∧
    Keeps S B none (Flow.told e) (ex a.body) (ex' a'.body)

/- The arms from the one that a value selects. -/
theorem rel_dropWhile
    {α β : Type}
    {R : α → β → Prop}
    {as : List α}
    {bs : List β}
    {f : α → Bool}
    {g : β → Bool}
    (h : List.Forall₂ R as bs)
    (hfg : ∀ a b, R a b → g b = f a) :
    List.Forall₂ R (as.dropWhile f) (bs.dropWhile g) := by
  induction h with
  | nil => exact .nil
  | @cons a b as bs hab hRest ih =>
    rw [List.dropWhile_cons, List.dropWhile_cons, hfg a b hab]
    split
    · exact ih
    · exact .cons hab hRest

/- A switch selects the same arms on both sides. -/
theorem sim_selectArm
    {ex ex' : List Stmt → Run Flow}
    (hp : Paired M p q)
    (v : Val)
    {arms arms' : List Arm}
    (h : List.Forall₂ (ArmsKeep S B e ex ex') arms arms')
    (g : B.Ghost)
    (s : Shape)
    (hs : B.rets s.ret) :
    Sim S (Linked (B.holds g) s)
      (fun a b m n =>
        List.Forall₂ (ArmsKeep S B e ex ex') a b ∧
          Linked (B.holds g) s m n)
      (B.cut g fun J => Linked J s) (selectArm p v arms)
      (selectArm q v arms') := by
  have hMatching := rel_dropWhile (f := fun arm : Arm =>
      !arm.labels.any v.matchesLabel)
    (g := fun arm : Arm => !arm.labels.any v.matchesLabel)
    h fun a b hab => by rw [hab.1]
  have hDefault := rel_dropWhile (f := fun arm : Arm =>
      !arm.isDefault)
    (g := fun arm : Arm => !arm.isDefault)
    h fun a b hab => by rw [Arm.isDefault, hab.1, Arm.isDefault]
  unfold selectArm
  split
  · exact (yields_raiseNull (P := fun _ => False) hp _ g s hs).weaken
      (fun _ _ hm => hm) (fun _ _ _ _ hFalse => hFalse.2.1.elim)
      (fun _ _ _ hm => hm)
  · have hEmpty := hMatching.length_eq
    simp only [List.isEmpty_iff_length_eq_zero, hEmpty]
    split
    · exact Sim.pure fun _ _ hm => ⟨hDefault, hm⟩
    · exact Sim.pure fun _ _ hm => ⟨hMatching, hm⟩

/- Arms of a switch statement keep the link. -/
theorem keeps_runArms
    {ex ex' : List Stmt → Run Flow}
    {arms arms' : List Arm}
    (h : List.Forall₂ (ArmsKeep S B e ex ex') arms arms') :
    Keeps S B none (Flow.told e) (runArms ex arms)
      (runArms ex' arms') := by
  induction h with
  | nil => exact Keeps.pure rfl
  | cons hab _ ih =>
    refine hab.2.bind fun flow => ?_
    cases flow with
    | normal => exact ih
    | «break» label =>
      cases label <;> exact Keeps.pure rfl
    | _ => exact Keeps.pure rfl

/- Arms of a switch expression keep the link. -/
theorem keeps_yieldFromArms
    {ex ex' : List Stmt → Run Flow}
    {arms arms' : List Arm}
    (h : List.Forall₂ (ArmsKeep S B e ex ex') arms arms') :
    Keeps S B none (fun _ => none) (yieldFromArms ex arms)
      (yieldFromArms ex' arms') := by
  induction h with
  | nil => exact Keeps.fault _ _
  | cons hab _ ih =>
    refine hab.2.bind fun flow => ?_
    cases flow with
    | normal => exact ih
    | yield v => exact Keeps.pure rfl
    | _ => exact Keeps.look fun _ _ _ _ _ => Keeps.fault _ _

/- A switch statement agrees if its arms keep the link. -/
theorem steers_switchOn
    {ex ex' : Stmt → Run Flow}
    (hp : Paired M p q)
    (v : Val)
    {arms arms' : List Arm}
    (h : List.Forall₂ (ArmsKeep S B e (runAll ex) (runAll ex'))
      arms arms') :
    Steers S B none (Flow.told e) (switchOn p ex v arms)
      (switchOn q ex' v arms') := by
  intro g s hs
  refine (sim_selectArm hp v h g s hs).bind ?_
  intro as bs m n ⟨has, hm⟩
  have hEmpty := has.length_eq
  simp only [List.isEmpty_iff_length_eq_zero, hEmpty]
  split
  · exact .ok ⟨rfl, hm⟩
  · exact (keeps_runArms has).inScope g s hs m n hm

/- A switch expression agrees if its arms keep the link. -/
theorem agrees_switchValue
    {ex ex' : Stmt → Run Flow}
    (hp : Paired M p q)
    (v : Val)
    {arms arms' : List Arm}
    (h : List.Forall₂ (ArmsKeep S B e (runAll ex) (runAll ex'))
      arms arms') :
    Agrees S B (switchValue p ex v arms)
      (switchValue q ex' v arms') := by
  have hRaise : Agrees (α := Val) S B
      (do
        raise p "MatchException"
          ("no arm for " ++ (← get).heap.text v))
      (do
        raise q "MatchException"
          ("no arm for " ++ (← get).heap.text v)) := by
    refine Yields.look fun _ _ m n hm => ?_
    rw [hm.world.heap]
    exact yields_raise hp _ _
  intro g s hs
  refine (sim_selectArm hp v h g s hs).bind ?_
  intro as bs m n ⟨has, hm⟩
  have hEmpty := has.length_eq
  simp only [List.isEmpty_iff_length_eq_zero, hEmpty]
  split
  · exact hRaise g s hs m n hm
  · exact (keeps_yieldFromArms has).inScope.agrees g s hs m n hm

------------------------------------------------------------
-- Handlers
------------------------------------------------------------

/- A handler is run on both sides, or on neither. -/
theorem steers_catching
    {x y : Run Flow}
    {f g : Val → Run Flow}
    (h : Steers S B none (Flow.told e) x y)
    (hf : ∀ v, v ≠ .null →
      Steers S B none (Flow.told e) (f v) (g v)) :
    Steers S B none (Flow.told e) (catching x f)
      (catching y g) := by
  intro gh s hs m n hm
  have hBody := h gh s hs m n hm
  unfold catching
  generalize x m = r at hBody
  generalize y n = t at hBody
  cases hBody with
  | ok hPost => exact .ok hPost
  | alike hAlike hCut =>
    cases hAlike with
    | throw v hv => exact hf v hv gh s hs _ _ hCut
    | fault c d => exact .alike (.fault c d) hCut
    | panic text hText => exact .alike (.panic text hText) trivial
    | outOfFuel => exact .alike .outOfFuel trivial
    | stopped why hWhy => exact .alike (.stopped why hWhy) trivial
    | answered why text hWhy =>
      exact .alike (.answered why text hWhy) trivial
  | @first c m' _ hFirst =>
    cases c with
    | throw v => cases hFirst
    | _ => exact .first hFirst
  | @second d n' _ hSecond =>
    cases d with
    | throw v => cases hSecond
    | _ => exact .second hSecond

/- Handlers for the same exceptions that keep the link. -/
structure CatchesKeep
    (S : Slack)
    (B : Bond)
    (e : Option String)
    (ex ex' : Catch → Run Flow)
    (c c' : Catch) : Prop where
  ty : c'.ty = c.ty
  body : ∀ v, Keeps S B none (Flow.told e)
    (do
      declareLocal c.param v
      ex c)
    (do
      declareLocal c'.param v
      ex' c')

/- The first handler for an exception is run on both sides. -/
theorem steers_runHandler
    {ex ex' : Catch → Run Flow}
    (hp : Paired M p q)
    {cs cs' : List Catch}
    (h : List.Forall₂ (CatchesKeep S B e ex ex') cs cs')
    (v : Val)
    (hv : v ≠ .null) :
    Steers S B none (Flow.told e) (runHandler p ex cs v)
      (runHandler q ex' cs' v) := by
  refine Steers.look fun _ _ m n hm => ?_
  rw [hm.world.heap]
  have hFind := rel_find?
    (f := fun c : Catch => Call.catches p m.heap v c.ty)
    (g := fun c : Catch => Call.catches q m.heap v c.ty)
    h fun c c' hc => by rw [hp.catches, hc.ty]
  simp only
  generalize cs.find? _ = c at hFind
  generalize cs'.find? _ = c' at hFind
  cases hFind with
  | none =>
    exact Steers.ofYields (Yields.throw (P := fun _ => False) v hv)
      fun _ hFalse => hFalse.elim
  | some hc => exact (hc.body v).inScope

/- A value is thrown on both sides. -/
theorem yields_throwValue
    (hp : Paired M p q)
    (v : Val) :
    Yields S B (fun _ => False) (throwValue p v)
      (throwValue q v) := by
  cases v with
  | null => exact yields_raiseNull hp _
  | _ =>
    refine Yields.throw _ ?_
    intro hNull
    cases hNull

------------------------------------------------------------
-- Operators and Arrays
------------------------------------------------------------

/- What an operator makes of two values, unless it is a text. -/
def Val.Combined
    (op : BinaryOp)
    (l r v : Val) : Prop :=
  Val.binary op l r = .ok v ∨ ∃ text, v = .str text

/- A binary operator has one result. -/
theorem yields_applyBinary
    (hp : Paired M p q)
    (hi : Invokers S B M i j)
    (op : BinaryOp)
    (l r : Val)
    (ty : Ty) :
    Yields S B (Val.Combined op l r) (applyBinary p i op l r ty)
      (applyBinary q j op l r ty) := by
  unfold applyBinary
  split
  · refine (agrees_textOf hp hi _ _).bind fun _ _ => ?_
    refine (agrees_textOf hp hi _ _).bind fun _ _ => ?_
    exact Yields.pure (.inr ⟨_, rfl⟩)
  · exact (yields_ofOperator hp _).weaken fun _ hv => .inl hv

/- An operator gives one result. -/
theorem agrees_applyBinary
    (hp : Paired M p q)
    (hi : Invokers S B M i j)
    (op : BinaryOp)
    (l r : Val)
    (ty : Ty) :
    Agrees S B (applyBinary p i op l r ty)
      (applyBinary q j op l r ty) :=
  (yields_applyBinary hp hi op l r ty).agrees

/- Two conditions hold together on both sides. -/
theorem agrees_conjunction
    {l l' r r' : Run Bool}
    (hl : Agrees S B l l')
    (hr : Agrees S B r r') :
    Agrees S B (conjunction l r) (conjunction l' r') := by
  refine hl.bind fun b _ => ?_
  cases b with
  | true => exact hr.bind fun _ _ => Yields.pure trivial
  | false => exact Yields.pure trivial

/- One of two conditions holds on both sides. -/
theorem agrees_disjunction
    {l l' r r' : Run Bool}
    (hl : Agrees S B l l')
    (hr : Agrees S B r r') :
    Agrees S B (disjunction l r) (disjunction l' r') := by
  refine hl.bind fun b _ => ?_
  cases b with
  | true => exact Yields.pure trivial
  | false => exact hr.bind fun _ _ => Yields.pure trivial

/- A step moves to one value. -/
theorem yields_stepped
    (hp : Paired M p q)
    (hi : Invokers S B M i j)
    (op : StepOp)
    (ty : Ty)
    (old : Val) :
    Yields S B
      (Val.Combined (if op.isIncrement then .add else .sub) old
        (.int 1))
      (stepped p i op ty old) (stepped q j op ty old) :=
  yields_applyBinary hp hi _ _ _ _

/- An array has one length. -/
theorem agrees_lengthOf
    (hp : Paired M p q)
    (v : Val) :
    Agrees S B (lengthOf p v) (lengthOf q v) := by
  cases v with
  | arr a =>
    refine Yields.look fun _ _ m n hm => ?_
    rw [hm.world.heap]
    exact Yields.pure trivial
  | null => exact yields_raiseNull hp _
  | _ => exact yields_faultNaming _ _ _ _

/- An array with a length is made on both sides. -/
theorem agrees_arrayOfLength
    (hp : Paired M p q)
    (element : Ty)
    (v : Val) :
    Agrees S B (arrayOfLength p element v)
      (arrayOfLength q element v) := by
  unfold arrayOfLength
  cases v.asInt? with
  | none => exact yields_faultShowing _ _ _ _
  | some n =>
    simp only
    split
    · exact yields_raise hp _ _
    · exact agrees_newArray _ _

------------------------------------------------------------
-- Activations
------------------------------------------------------------

/- Two observers that judge some moments alike. -/
def Watches
    (S : Slack)
    (J : Joint)
    (w w' : Observer)
    (x x' : Moment) : Prop :=
  ∀ since m n, World J since m n →
    (w x m = none ∧ w' x' n = none) ∨
    (∃ why, w x m = some why ∧ w' x' n = some why ∧
      S.halts = true) ∨
    ∃ why, w x m = some why ∧ S.stops why = true

/- A moment is watched on both sides. -/
theorem sim_watch
    {J : Joint}
    {cut : Cut}
    {w w' : Observer}
    {x x' : Moment}
    (h : Watches S J w w' x x')
    (hCut : ∀ why m n, cut (.stopped why) m n)
    (s : Shape) :
    Sim S (Linked J s) (fun _ _ m n => Linked J s m n) cut
      (watch w x) (watch w' x') := by
  intro m n hm
  unfold watch
  rcases h s.since m n hm.world with
    ⟨hw, hw'⟩ | ⟨why, hw, hw', hHalts⟩ | ⟨why, hw, hStop⟩
  · rw [hw, hw']
    exact .ok hm
  · rw [hw, hw']
    exact .alike (.stopped why hHalts) (hCut why _ _)
  · rw [hw]
    exact .first hStop

/- A moment is watched on both sides. -/
theorem agrees_watch
    {w w' : Observer}
    {x x' : Moment}
    (h : ∀ g, Watches S (B.holds g) w w' x x') :
    Agrees S B (watch w x) (watch w' x') :=
  fun g s _ => (sim_watch (h g) (fun _ _ _ => trivial) s).weaken
    (fun _ _ hm => hm) (fun _ _ _ _ hm => ⟨rfl, trivial, hm⟩)
    (fun _ _ _ hm => hm)

/- Whether a body ends as a body may. -/
def Flow.isEnd : Flow → Bool
  | .normal => true
  | .return _ => true
  | _ => false

/- What a call returns is one value. -/
theorem sim_resultOf
    (c d : ClassDef)
    (m m' : MethodDef)
    (flow : Flow)
    (g : B.Ghost)
    (s : Shape) :
    Sim S (Linked (B.behind g flow.isEnd) s)
      (fun a b k n => a = b ∧ True ∧ Linked (B.holds g) s k n)
      (B.cut g fun J => Linked J s)
      (resultOf c m flow) (resultOf d m' flow) := by
  cases flow with
  | «return» v => exact Sim.pure fun _ _ hm => ⟨rfl, trivial, hm⟩
  | normal => exact Sim.pure fun _ _ hm => ⟨rfl, trivial, hm⟩
  | _ =>
    exact Sim.look fun k n hm => Sim.throw (.fault _ _)
      fun _ _ ⟨hk, hn⟩ => by rw [hk, hn]; exact hm

/- The constructors above a class are run on both sides. -/
theorem agrees_constructAbove
    (hp : Paired M p q)
    (hi : Invokers S B M i j)
    {c d : ClassDef}
    {m m' : MethodDef}
    (hFound : Found M (c, m) (d, m'))
    {body body' : List Stmt}
    (hSuper : m.isConstructor = true →
      startsWithSuper body' = startsWithSuper body)
    (self : Option Val) :
    Agrees S B (constructAbove p i c m body self)
      (constructAbove q j d m' body' self) := by
  have hKind : m'.isConstructor = m.isConstructor :=
    hFound.isConstructor
  have hSame :
      (m'.isConstructor && !startsWithSuper body')
        = (m.isConstructor && !startsWithSuper body) := by
    rw [hKind]
    cases hConstructor : m.isConstructor with
    | true => rw [hSuper hConstructor]
    | false => rfl
  unfold constructAbove
  rw [hSame]
  split
  · exact agrees_implicitSuper hp hi hFound.1 _
  · exact Yields.pure trivial

/- Parameters are declared in one scope without hidden names. -/
theorem startLocals_scopes
    (c : ClassDef)
    (m : MethodDef)
    (self : Option Val)
    (args : List Val)
    (hParams : ∀ x ∈ m.params, hidden x.name = false) :
    (startLocals c m self args).self = self ∧
      (startLocals c m self args).cls = c.name ∧
      (startLocals c m self args).ret = m.ret ∧
      ∃ b, (startLocals c m self args).scopes = [b] ∧
        hiddenPart b = [] := by
  have hFold : ∀ (pairs : List (Param × Val)) (l : Locals),
      (∀ x ∈ pairs, hidden x.1.name = false) →
      (∃ b, l.scopes = [b] ∧ hiddenPart b = []) →
      ∃ l', pairs.foldl
          (fun l (x : Param × Val) =>
            l.declare x.1.name (x.2.convert x.1.ty)) l = l' ∧
        l'.self = l.self ∧ l'.cls = l.cls ∧ l'.ret = l.ret ∧
        ∃ b, l'.scopes = [b] ∧ hiddenPart b = [] := by
    intro pairs
    induction pairs with
    | nil =>
      intro l _ hl
      exact ⟨l, rfl, rfl, rfl, rfl, hl⟩
    | cons x rest ih =>
      intro l hNames hl
      rcases hl with ⟨b, hScopes, hPart⟩
      have hx := hNames x (by simp)
      have hDeclared :
          l.declare x.1.name (x.2.convert x.1.ty) =
            { l with
              scopes := [b.put x.1.name (x.2.convert x.1.ty)] } := by
        unfold Locals.declare
        rw [hScopes]
      rcases ih _ (fun y hy => hNames y (by simp [hy]))
          ⟨_, congrArg Locals.scopes hDeclared,
            (hiddenPart_put_visible b _ _ hx).trans hPart⟩ with
        ⟨l', hl', hSelf, hCls, hRet, hEnd⟩
      rw [hDeclared] at hSelf hCls hRet
      exact ⟨l', hl', hSelf, hCls, hRet, hEnd⟩
  have hNames : ∀ x ∈ m.params.zip args,
      hidden x.1.name = false :=
    fun x hx => hParams x.1 (List.of_mem_zip hx).1
  rcases hFold _
      { self := self, cls := c.name, ret := m.ret } hNames
      ⟨[], rfl, rfl⟩ with
    ⟨l', hl', hSelf, hCls, hRet, hEnd⟩
  have hStart : startLocals c m self args = l' := hl'
  rw [hStart]
  exact ⟨hSelf, hCls, hRet, hEnd⟩

/- What is known at the start of a method. -/
def startShape
    (ret : Ty)
    (since : Heap) : Shape :=
  { since := since, ret := ret }

/- The variables at the start of a call correspond. -/
theorem matched_startLocals
    {c d : ClassDef}
    {m m' : MethodDef}
    (hFound : Found M (c, m) (d, m'))
    (hParams : ∀ x ∈ m.params, hidden x.name = false)
    (self : Option Val)
    (args : List Val)
    (since : Heap) :
    Matched (startShape m.ret since)
      (startLocals c m self args)
      (startLocals d m' self args) := by
  have hHeader : SameHeader m m' := M.header _ _ _ hFound.2
  have hName : d.name = c.name := hFound.1.name
  have hParams' : m'.params = m.params := hHeader.params
  have hRet' : m'.ret = m.ret := hHeader.ret
  have hSame : startLocals d m' self args =
      startLocals c m self args := by
    unfold startLocals
    rw [hName, hParams', hRet']
  rcases startLocals_scopes c m self args hParams with
    ⟨_, _, hRet, b, hScopes, hPart⟩
  rw [hSame]
  refine ⟨rfl, rfl, hRet, hRet, ?_⟩
  rw [hScopes]
  exact .last (.single hPart)

/- What both sides do with the body of a method in its frame. -/
def BodiesAgree
    (S : Slack)
    (B : Bond)
    (cls : String)
    (m : MethodDef)
    (x y : Run Flow) : Prop :=
  ∀ g since, Sim S
    (Linked (B.holds (B.push ⟨cls, m.name, false⟩ g))
      (startShape m.ret since))
    (fun a b k n => a = b ∧ World
      (B.inside (B.push ⟨cls, m.name, false⟩ g) a.isEnd)
      since k n)
    (B.bodyCut (B.push ⟨cls, m.name, false⟩ g)
      fun J => World J since) x y

/- Activations agree if the bodies do. -/
theorem agrees_activate
    {w w' : Observer}
    {run run' : List Stmt → Run Flow}
    (hp : Paired M p q)
    {c d : ClassDef}
    {m m' : MethodDef}
    (hFound : Found M (c, m) (d, m'))
    (hParams : ∀ x ∈ m.params, hidden x.name = false)
    (self : Option Val)
    (args : List Val)
    (hBody : Option.Rel
      (fun body body' => BodiesAgree S B c.name m
        (do
          constructAbove p i c m body self
          let flow ← run body
          watchEnd w m flow
          pure flow)
        (do
          constructAbove q j d m' body' self
          let flow ← run' body'
          watchEnd w' m' flow
          pure flow))
      m.body m'.body) :
    Agrees S B (activate w p i run c m self args)
      (activate w' q j run' d m' self args) := by
  have hHeader : SameHeader m m' := M.header _ _ _ hFound.2
  have hArity : m'.arity = m.arity := by
    simp only [MethodDef.arity, hHeader.params]
  have hName : d.name = c.name := hFound.1.name
  have hMethod : m'.name = m.name := hHeader.name
  unfold activate
  generalize m.body = body at hBody
  generalize m'.body = body' at hBody
  cases hBody with
  | none => exact Yields.fault _ _
  | @some body body' hBody =>
    intro g s hs
    refine Sim.look fun k n hm => ?_
    have hLength := B.length _ _ _ hm.world.joint
    simp only at hLength
    rw [hArity, hm.world.maxDepth, ← hLength]
    -- What follows holds of all linked machines.
    suffices h : Sim S (Linked (B.holds g) s)
        (fun a b k n => a = b ∧ True ∧ Linked (B.holds g) s k n)
        (B.cut g fun J => Linked J s) _ _ from
      h.weaken (fun _ _ hBoth => by rw [hBoth.1, hBoth.2]; exact hm)
        (fun _ _ _ _ h => h) (fun _ _ _ h => h)
    split
    · exact Yields.fault _ _ g s hs
    · split
      · exact yields_raise hp _ _ g s hs
      · rw [hName, hMethod]
        have hRun := Sim.inFrame Flow.isEnd
          (Sim.withLocals (s := s) (startShape m.ret s.since) rfl
            (matched_startLocals hFound hParams self args s.since)
            (hBody g s.since))
        refine hRun.bind ?_
        rintro a b k n ⟨hab, hkn⟩
        subst hab
        exact sim_resultOf _ _ _ _ a g s k n hkn

end Flow

end ExecTrace
