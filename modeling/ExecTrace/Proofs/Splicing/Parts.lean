import ExecTrace.Proofs.Retelling.Runs
import ExecTrace.Proofs.Splicing.Reports

/-
  The parts of an instrumented program. With the fuel of its
  parts, a telling run of a program agrees with a plain run of
  the instrumented program; this is what the forms of the
  language are compared under. A tale of the first run stands
  for a probe of the second one.

  Main declarations:
    * `splicedPairing`
    * `Attuned` and `Spliced`
    * `Attuned.tell` and `Attuned.say`
-/

namespace ExecTrace

open Run
open Teller (runner)
open Instrument (Site Options excludes fresh reporting probeAt)

------------------------------------------------------------
-- Instrumented Programs
------------------------------------------------------------

/- A method of a class and the method that it becomes. -/
def Instrument.Becomes
    (o : Options)
    (exclusions : List Pattern)
    (cls : String)
    (m m' : MethodDef) : Prop :=
  if excludes exclusions cls then m' = m
  else ∃ n n', Instrument.method o cls m n = .ok (m', n')

/- A method keeps its header. -/
theorem Instrument.Becomes.header
    {o : Options}
    {exclusions : List Pattern}
    {cls : String}
    {m m' : MethodDef}
    (h : Instrument.Becomes o exclusions cls m m') :
    SameHeader m m' := by
  unfold Instrument.Becomes at h
  split at h
  · rw [h]
    exact ⟨rfl, rfl, rfl, rfl⟩
  · rcases h with ⟨n, n', h⟩
    rcases m with ⟨name, kind, params, ret, body, span⟩
    cases body with
    | none =>
      rcases Instrument.pure_ok.mp h with ⟨rfl, _⟩
      exact ⟨rfl, rfl, rfl, rfl⟩
    | some body =>
      rcases Instrument.bind_ok.mp h with ⟨body', k, _, hPure⟩
      rcases Instrument.pure_ok.mp hPure with ⟨rfl, _⟩
      exact ⟨rfl, rfl, rfl, rfl⟩

/- Source methods and what they become. -/
def splicedPairing
    (o : Options)
    (exclusions : List Pattern) : Pairing where
  rel := fun cls m m' =>
    Instrument.Becomes o exclusions cls m m' ∧
      m.passes Test.source = true
  header := fun _ _ _ h => h.1.header

/- Lists that a pass maps one by one. -/
theorem Instrument.forall₂_of_mapM
    {α β : Type}
    {f : α → Instrument.Pass β}
    {R : α → β → Prop}
    {as : List α}
    {bs : List β}
    {n n' : Nat}
    (hf : ∀ a ∈ as, ∀ n b n', f a n = .ok (b, n') → R a b)
    (h : as.mapM f n = .ok (bs, n')) : List.Forall₂ R as bs := by
  induction as generalizing n n' bs with
  | nil =>
    rw [List.mapM_nil] at h
    rcases Instrument.pure_ok.mp h with ⟨rfl, _⟩
    exact .nil
  | cons a rest ih =>
    rw [List.mapM_cons] at h
    rcases Instrument.bind_ok.mp h with ⟨b, k, hFirst, hMore⟩
    rcases Instrument.bind_ok.mp hMore with
      ⟨bs', k', hRest, hPure⟩
    rcases Instrument.pure_ok.mp hPure with ⟨rfl, _⟩
    exact .cons (hf a (by simp) _ _ _ hFirst)
      (ih (fun a ha => hf a (by simp [ha])) hRest)

/- A program is instrumented with valid exclusions only. -/
theorem Instrument.exclusions_of_ok
    {o : Options}
    {p q : Program}
    (h : instrument o p = .ok q) :
    ∃ exclusions, o.exclusions? = .ok exclusions := by
  unfold instrument at h
  cases hExclusions : o.exclusions? with
  | error problem =>
    rw [hExclusions] at h
    cases h
  | ok exclusions => exact ⟨exclusions, rfl⟩

/- A source program is paired with the instrumented program. -/
theorem paired_instrument
    {o : Options}
    {exclusions : List Pattern}
    {p q : Program}
    (hExclusions : o.exclusions? = .ok exclusions)
    (hSource : p.passes Test.source = true)
    (h : instrument o p = .ok q) :
    Paired (splicedPairing o exclusions) p q := by
  simp only [Program.passes, List.all_eq_true] at hSource
  unfold instrument at h
  rw [hExclusions] at h
  simp only at h
  cases hRun : (p.classes.mapM
      (Instrument.classDef o exclusions)).run 0 with
  | error f =>
    rw [hRun] at h
    cases h
  | ok r =>
    rcases r with ⟨classes, k⟩
    rw [hRun] at h
    cases h
    refine Instrument.forall₂_of_mapM ?_ hRun
    intro c hc n d n' hClass
    unfold Instrument.classDef at hClass
    split at hClass
    · rename_i hOut
      rcases Instrument.pure_ok.mp hClass with ⟨rfl, _⟩
      refine ⟨rfl, rfl, rfl, List.forall₂_same.mpr ?_⟩
      intro m hm
      refine ⟨?_, hSource c hc m hm⟩
      unfold Instrument.Becomes
      rw [if_pos hOut]
    · rename_i hIn
      rcases Instrument.bind_ok.mp hClass with
        ⟨methods, k', hMethods, hPure⟩
      rcases Instrument.pure_ok.mp hPure with ⟨rfl, _⟩
      refine ⟨rfl, rfl, rfl, ?_⟩
      refine Instrument.forall₂_of_mapM ?_ hMethods
      intro m hm n m' n' hMethod
      refine ⟨?_, hSource c hc m hm⟩
      unfold Instrument.Becomes
      rw [if_neg hIn]
      exact ⟨n, n', hMethod⟩

------------------------------------------------------------
-- What is Known of the Parts
------------------------------------------------------------

/- Whether an action tells the result of an operator. -/
def Action.ofOperator
    {κ α : Type} : Action κ α → Bool
  | .operation (.compoundAssign _ _ _ _ _) => true
  | .operation (.incDec _ _ _ _ _) => true
  | .operation (.unary _ _ _) => true
  | .binary _ _ _ _ => true
  | _ => false

/-
  What an operator that is no short circuit makes of two values
  for a target of a type, before it is converted.
-/
def Assembled
    (op : BinaryOp)
    (ty : Ty)
    (old rhs new : Val) : Prop :=
  op.isShortCircuit = false → ∃ v : Val,
    Val.Combined op old rhs v ∧
      (ty.isPrimitive = true → new.convert ty = v.convert ty)

/- What a step makes of a value of a type. -/
def Stepped
    (op : StepOp)
    (ty : Ty)
    (old new : Val) : Prop :=
  ∃ v : Val, new = v.convert ty ∧
    Val.Combined (if op.isIncrement then .add else .sub) old
      (.int 1) v

/-
  An action is sound if it tells no result of an operator, or
  what the operator makes of the operands. What is known of the
  values is that the observer of the second run admits them.
-/
structure Splice.Fair
    (X : Splice)
    (w : Observer) : Prop where
  plain : ∀ a, a.ofOperator = false → X.sound a = true
  unary : ∀ op ty a v (e : Expr),
    a.HeldAs ty → a.unary op = .ok v → w.Admits e v →
    X.sound
      (.operation
        (.unary op.symbol (shown ty a)
          (shown e.ty (v.convert e.ty)))) = true
  strict : ∀ op ty ty' l r v (e : Expr),
    op.isShortCircuit = false → l.HeldAs ty → r.HeldAs ty' →
    Val.Combined op l r v → w.Admits e v →
    X.sound
      (.binary op.symbol (shown ty l) (some (shown ty' r))
        (shown e.ty (v.convert e.ty))) = true
  shortCircuit : ∀ op ty b v (e : Expr),
    op.isShortCircuit = true →
    (Teller.decided op (.bool b) = true → v = .bool b) →
    w.Admits e v →
    X.sound
      (.binary op.symbol (shown ty (.bool b))
        (if Teller.decided op (.bool b) then none
          else some (shown e.ty (v.convert e.ty)))
        (shown e.ty (v.convert e.ty))) = true
  compound : ∀ op place ty (old r new : Val) (e : Expr),
    r.HeldAs ty → Assembled op e.ty (old.convert e.ty) r new →
    w.Admits e old →
    X.sound
      (.operation
        (.compoundAssign place (op.symbol ++ "=")
          (shown e.ty (old.convert e.ty)) (shown ty r)
          (shown e.ty (new.convert e.ty)))) = true
  step : ∀ (op : StepOp) place (old new u : Val) (e e' : Expr),
    Stepped op e.ty old new → w.Admits e old →
    new.Settled u → w.Admits e u →
    w.Admits e' (if op.isPrefix then new else old) →
    X.sound
      (.operation
        (.incDec place op.describe
          (shown e.ty (old.convert e.ty))
          (shown e.ty (u.convert e.ty))
          (shown e'.ty
            ((if op.isPrefix then new else old).convert
              e'.ty)))) = true

/-
  Two runs whose ways to run methods agree: the first run tells
  what it does, the second one runs the instrumented program.
-/
structure Attuned
    (S : Slack)
    (X : Splice)
    (w : Observer)
    (p q : Program)
    (n : Nat) : Prop where
  follows : X.observer.Follows S w
  sharp : S.Sharp
  halts : S.halts = true
  fair : X.Fair w
  paired : Paired (splicedPairing X.options X.exclusions) p q
  invoke : ∀ k, Enough S n k →
    Invokers S (Bond.level fun _ => True)
      (splicedPairing X.options X.exclusions)
      (X.teller.invoke p n) (invoke w q k)

/-
  A computation that does what another one does, except that it
  may declare a variable at its end.
-/
def DeclaresLast
    {α : Type}
    (x y : Run α) : Prop :=
  ∀ m, x m = y m ∨ ∃ a k name v, y m = (.ok a, k) ∧
    x m = (.ok a, { k with locals := k.locals.declare name v })

/-
  Statements that end alike in a scope of their own: machines
  stay linked, but for a variable that the first run may declare
  at the end.
-/
inductive Boxes
    (S : Slack)
    (B : Bond) : Run Flow → Run Flow → Prop where
  | keeps
      {x y : Run Flow}
      (h : Keeps S B none (Flow.told none) x y) : Boxes S B x y
  | declares
      {x y z : Run Flow}
      (hx : DeclaresLast x z)
      (h : Keeps S B none (Flow.told none) z y) : Boxes S B x y

/- The parts of a program agree with what they become. -/
structure Spliced
    (S : Slack)
    (X : Splice)
    (w : Observer)
    (p q : Program)
    (n : Nat) : Prop extends Attuned S X w p q n where
  eval : ∀ k, Enough S n k → ∀ (site : Site) (e : Expr),
    e.passes Test.source = true →
    ∀ c e' c', Instrument.expr X.options site e c = .ok (e', c') →
      Agrees S (Bond.level (· = site.ret))
        (X.teller.eval p n (some site) e)
        (ExecTrace.eval w q k e')
  callVoid : ∀ k, Spare S n 8 k →
    ∀ (site : Site) callee receiver args span pos,
    passOption Test.source receiver = true →
    passExprs Test.source args = true →
    ∀ c s c', Instrument.discarded X.options site span
        ⟨.call callee receiver args, .void, pos⟩ c
          = .ok (s, c') →
      Agrees S (Bond.level (· = site.ret))
        (do
          let _ ←
            X.teller.eval p n (some site)
              ⟨.call callee receiver args, .void, pos⟩
          pure Flow.normal)
        (ExecTrace.exec w q k s)
  exec : ∀ k, Enough S n k → ∀ (site : Site) (s : Stmt),
    s.passes Test.source = true →
    ∀ c ss c', Instrument.stmt X.options site s c = .ok (ss, c') →
      Keeps S (Bond.level (· = site.ret)) none (Flow.told none)
        (X.teller.exec p n (some site) s)
        (runAll (ExecTrace.exec w q k) ss)
  boxed : ∀ k, Spare S n 1 k → ∀ (site : Site) (s : Stmt),
    s.passes Test.source = true →
    ∀ c s' c', Instrument.single X.options site s c = .ok (s', c') →
      Boxes S (Bond.level (· = site.ret))
        (X.teller.exec p n (some site) s)
        (ExecTrace.exec w q k s')
  untoldEval : ∀ k, Enough S n k → ∀ e : Expr,
    e.passes Test.source = true →
    Agrees S (Bond.level fun _ => True)
      (X.teller.eval p n none e)
      (ExecTrace.eval w q k e)
  untoldExec : ∀ k, Enough S n k → ∀ s : Stmt,
    s.passes Test.source = true →
    Keeps S (Bond.level fun _ => True) none (Flow.told none)
      (X.teller.exec p n none s)
      (ExecTrace.exec w q k s)

/- What agrees in all methods agrees in some of them. -/
theorem Yields.inMethods
    {S : Slack}
    {R : Ty → Prop}
    {α : Type}
    {P : α → Prop}
    {x y : Run α}
    (h : Yields S (Bond.level fun _ => True) P x y) :
    Yields S (Bond.level R) P x y :=
  fun g s _ => h g s trivial

------------------------------------------------------------
-- Tales and Probes
------------------------------------------------------------

/- Whether a probe neither starts nor ends an activation. -/
def Probe.isPlain
    {ω : Type} : Probe ω → Bool
  | .enter _ => false
  | .exit _ _ => false
  | _ => true

namespace Shape

/-
  Whether an operand is a hidden variable with a value, or the
  negation of one with a truth value.
-/
def shows
    (s : Shape)
    (o : Operand) : Bool :=
  match o.expr.form with
  | .localVar x => hidden x && (s.find? x).isSome
  | .unary .not ⟨.localVar x, _, _⟩ =>
    hidden x && ((s.find? x).bind Val.asBool?).isSome
  | _ => false

/- An operand with its value. -/
def live
    (s : Shape)
    (o : Operand) : Live :=
  match o.expr.form with
  | .localVar x => ⟨o, (s.find? x).getD .void⟩
  | .unary .not ⟨.localVar x, _, _⟩ =>
    ⟨o, .bool !(((s.find? x).bind Val.asBool?).getD false)⟩
  | _ => ⟨o, .void⟩

variable {s : Shape}
variable {hint hint' : String}
variable {n k : Nat}
variable {v : Val}

/- A variable is found behind one with another hint. -/
theorem find?_hide_fresh
    (h : (decide (hint ≠ hint') && Instrument.isWord hint
      && Instrument.isWord hint') = true) :
    (s.hide (fresh hint n) v).find? (fresh hint' k)
      = s.find? (fresh hint' k) := by
  simp only [Bool.and_eq_true, decide_eq_true_eq] at h
  exact find?_hide_of_ne
    (Instrument.fresh_ne n k h.1.2 h.2 h.1.1)

end Shape

/- A plain probe is no end of a method. -/
theorem watchBefore_plain
    (w : Observer)
    {P : Probe Operand}
    (h : P.isPlain = true) : watchBefore w P = pure () := by
  cases P with
  | exit method how => cases h
  | _ => rfl

/- A plain probe is no start of a method. -/
theorem watchBehind_plain
    (w : Observer)
    {P : Probe Operand}
    (h : P.isPlain = true) : watchBehind w P = pure () := by
  cases P with
  | enter method => cases h
  | _ => rfl

/- A plain probe is no start of a method. -/
theorem isEnter_plain
    {ω : Type}
    {P : Probe ω}
    (h : P.isPlain = true) : P.isEnter = false := by
  cases P with
  | enter method => cases h
  | _ => rfl

section Tales

variable {S : Slack}
variable {u w : Observer}
variable {X : Splice}
variable {p q : Program}
variable {n j k : Nat}
variable {s : Shape}
variable {α β : Type}
variable {pre : Machine → Machine → Prop}
variable {post : α → β → Machine → Machine → Prop}
variable {f : Unit → Run α}
variable {ss : List Stmt}
variable {next : Run β}
variable {other : Flow → Run β}

/- An operand is read. -/
theorem gives_live
    {m m' : Machine}
    (hw : u.Follows S w)
    (hk : Spare S n (j + 2) k)
    (hm : Linked Joint.level s m m')
    {op : Operand}
    (hShown : s.shows op = true) :
    Gives S m' (readLive (eval w q k) op) (s.live op) := by
  rcases op with ⟨⟨form, ty, span⟩, kind⟩
  unfold Shape.shows at hShown
  unfold Shape.live readLive
  split at hShown
  · rename_i x hForm
    simp only at hForm
    subst hForm
    simp only [Bool.and_eq_true] at hShown
    rcases Option.isSome_iff_exists.mp hShown.2 with ⟨v, hv⟩
    have hGet := hm.get_hidden hShown.1 hv
    simp only [hv, Option.getD_some]
    exact (gives_localVar hw hk hGet).bind (.pure _)
  · rename_i x ty' span' hForm
    simp only at hForm
    subst hForm
    simp only [Bool.and_eq_true] at hShown
    rcases Option.isSome_iff_exists.mp hShown.2 with ⟨b, hb⟩
    rcases Option.bind_eq_some_iff.mp hb with ⟨v, hv, hBool⟩
    have hGet := hm.get_hidden hShown.1 hv
    simp only [hb, Option.getD_some]
    refine Gives.bind (gives_eval hw hk fun k hk => ?_) (.pure _)
    refine (gives_localVar hw hk hGet).bind ?_
    simp only [Val.unary, hBool]
    exact .pure _
  · cases hShown

/-
  The second run binds a value to a hidden variable that the
  first run has no use for.
-/
theorem Mirrors.declareRight
    {x : Run α}
    {name : String}
    {ty : Ty}
    {e : Expr}
    {span : Span}
    {Q : Val → Prop}
    (v : Machine → Val)
    (hk : Spare S n (j + 1) k)
    (hName : hidden name = true)
    (hPre : ∀ m m', pre m m' → Linked Joint.level s m m')
    (hValue : ∀ m m', pre m m' → Q (v m))
    (hInit : ∀ k, Spare S n j k → ∀ m m', pre m m' →
      Gives S m' (eval w q k e) (v m))
    (h : ∀ u, Q u → w.Admits e u → Sim S
      (fun m m' =>
        Linked Joint.level (s.hide name (u.convert ty)) m m' ∧
          v m = u)
      post (levelCut (s.hide name (u.convert ty))) x
      (andThen (exec w q k) ss next other)) :
    Sim S pre post (levelCut s) x
      (andThen (exec w q k)
        (⟨.declare name ty (some e), span⟩ :: ss) next
        other) := by
  rw [andThen_cons]
  refine Sim.execRight_bind hk fun k' hk' => ?_
  change Sim S _ post _ x
    ((do
      let v ← eval w q k' e
      declareLocal name (v.convert ty)
      pure Flow.normal) >>= _)
  rw [bind_assoc]
  intro m m' hm
  rcases hInit k' hk' m m' hm with hGive | ⟨c, m'', hGive, hExcuse⟩
  · rw [bind_ok hGive]
    exact h (v m) (hValue m m' hm) (admits_of_eval hGive) m _
      ⟨(hPre m m' hm).hide hName, rfl⟩
  · rw [bind_error hGive]
    exact .second hExcuse

/- A tale stands for a probe in front of other code. -/
theorem Attuned.tell
    (h : Attuned S X w p q n)
    (hk : Spare S n (j + 1) k)
    (hj : j < 8)
    (hPre : ∀ m m', pre m m' → Linked Joint.level s m m')
    {P : Probe Operand}
    {act : Machine → Action Unit Shown}
    (hPlain : P.isPlain = true)
    (hSee : ∀ k, Spare S n j k → ∀ m m', pre m m' →
      X.sound (act m) = true ∧ ∃ live b,
        Gives S m' (P.mapM (readLive (eval w q k))) live ∧
          live.toAction m' = (.ok b, m') ∧ Tells (act m) b)
    (span : Span)
    (hRest : Mirrors S s post (f ())
      (andThen (exec w q k) ss next other)) :
    Sim S pre post (levelCut s)
      (X.teller.tell p (X.teller.invoke p n) n span act >>= f)
      (andThen (exec w q k) (probeAt P span :: ss) next
        other) := by
  rw [andThen_cons]
  refine Sim.execRight_bind hk fun k' hk' => ?_
  have hReport := sim_report h.follows h.sharp h.halts h.paired
    (h.invoke k' (hk'.enough hj)) (hk'.enough hj).paced trivial
    hPre (hSee k' hk') span
  change Sim S pre post _ _ ((do
    watchBefore w P
    report w q (ExecTrace.eval w q k') (ExecTrace.invoke w q k')
      k' P span
    watchBehind w P
    pure Flow.normal) >>= _)
  rw [watchBefore_plain w hPlain, watchBehind_plain w hPlain,
    report_plain (isEnter_plain hPlain)]
  simp only [pure_bind, bind_assoc]
  exact hReport.bind fun _ _ => hRest

end Tales

end ExecTrace
