import ExecTrace.Proofs.Conversion
import ExecTrace.Proofs.Splicing.Places

/-
  Spliced assignments. A telling run finds a place once, reads
  it and writes it; spliced code binds the parts of the target
  and finds the place for each access. Both report the same
  values and leave the same state.

  Main declarations:
    * `Attuned.sim_old` and `Attuned.storePlaced`
    * `Spliced.agrees_assign`
    * `Spliced.agrees_compoundAssign`
    * `Spliced.agrees_step`
-/

namespace ExecTrace

open Run
open Teller (runner)
open Instrument (Site Options BoundPlace fresh reporting probeAt
  holding hidden_fresh)

/- A bound place has the type of the target. -/
theorem Instrument.ty_of_place
    {o : Options}
    {site : Site}
    {target : Expr}
    {P : BoundPlace}
    {c c' : Nat}
    (hPass : Instrument.place o site target c = .ok (P, c')) :
    P.target.ty = target.ty := by
  rcases target with ⟨form, ty, span⟩
  cases form with
  | localVar name =>
    simp only [Instrument.place, Instrument.pure_ok] at hPass
    rw [← hPass.1]
  | staticField cls field =>
    simp only [Instrument.place, Instrument.pure_ok] at hPass
    rw [← hPass.1]
  | instanceField object cls field =>
    simp only [Instrument.place, Instrument.bind_ok,
      Instrument.pure_ok] at hPass
    rcases hPass with ⟨_, _, _, _, _, _, _, _, _, rfl, _⟩
    rfl
  | index array index =>
    simp only [Instrument.place, Instrument.bind_ok,
      Instrument.pure_ok] at hPass
    rcases hPass with ⟨_, _, _, _, _, _, _, _, _, _, _, _, _, _,
      _, _, _, _, rfl, _⟩
    rfl
  | _ => simp only [Instrument.place, Instrument.fail_ok] at hPass

/- What is combined for a place has the type of the place. -/
theorem Instrument.ty_combined
    (span : Span)
    (op : BinaryOp)
    (ty : Ty)
    (old rhs : Expr) :
    (Instrument.combined span op ty old rhs).ty = ty := by
  unfold Instrument.combined
  simp only
  split
  · rename_i hTy
    exact hTy
  · rfl

/- A coarse observer sees no values of targets. -/
theorem Observer.Coarse.watch_loaded
    {w : Observer}
    (hw : w.Coarse)
    (e : Expr)
    (v : Val) : watch w (.loaded e v) = pure () := by
  funext m
  simp only [watch, hw.loaded]
  rfl

section Accesses

variable {S : Slack}
variable {u w : Observer}
variable {X : Splice}
variable {p q : Program}
variable {n j k : Nat}
variable {s : Shape}
variable {P : BoundPlace}
variable {x : Pending × Place Shown}
variable {α β : Type}
variable {post : α → β → Machine → Machine → Prop}

------------------------------------------------------------
-- Accesses to Bound Places
------------------------------------------------------------

/- What is known of a place that was just read. -/
structure Located
    (p : Program)
    (pending : Pending)
    (found : Location × Val)
    (m : Machine) : Prop where
  leads : Leads m.heap pending found.1
  load : found.1.load p m = (.ok found.2, m)

/- The first run looks at an old value that is admitted. -/
theorem Attuned.lookBack_admitted
    (h : Attuned S X w p q n)
    {target e' : Expr}
    (hTy : e'.ty = target.ty)
    {old : Val}
    (hAdmits : w.Admits e' old) :
    X.teller.lookBack target old = pure () := by
  change (do
    watch X.observer (.loaded target old)
    watch X.observer (.value target old) : Run Unit) = pure ()
  rw [h.follows.coarse.watch_loaded,
    h.follows.watch_admitted hTy hAdmits, pure_bind]

/- A place is found and read by both runs. -/
theorem Attuned.sim_old
    (h : Attuned S X w p q n)
    (hPlaced : Placed s P x)
    (hk : Spare S n (j + 2) k) :
    Mirrors S s
      (fun a b m m' => b = a.2 ∧
        (w.Admits P.target a.2 ∧ Located p x.1 a m) ∧
        Linked Joint.level s m m')
      (do
        let place ← x.1.locate p
        let old ← place.load p
        pure (place, old))
      (ExecTrace.eval w q k P.target) := by
  suffices Mirrors S s
      (fun a b m m' =>
        (b = a.2 ∧ Located p x.1 a m ∧
          Linked Joint.level s m m') ∧ w.Admits P.target b) _ _ from
    this.weaken (fun _ _ hm => hm)
      (fun _ _ _ _ ⟨⟨hb, hFound, hm⟩, hAdmits⟩ =>
        ⟨hb, ⟨hb ▸ hAdmits, hFound⟩, hm⟩)
      (fun _ _ _ hm => hm)
  refine Sim.evalAdmitted h.follows hk fun k hk => ?_
  rw [hPlaced.evalForm_target]
  refine Sim.givesRight
    (fun m m' hm => hPlaced.gives_pending h.follows hk hm) ?_
  have hLocate := Mirrors.ofYields (S := S) (s := s)
    (R := fun _ => True)
    (yields_locate h.paired x.1 hPlaced.visible) trivial
  refine hLocate.tracking.bind fun place b => ?_
  -- Finding and reading a place leave the machine as it is.
  intro m m' ⟨⟨hSame, hVisible, hm⟩, m₀, _, _, hFound⟩
  subst hSame
  rcases leads_of_locate hFound with ⟨rfl, hLeads⟩
  have hLoad := Mirrors.ofYields (S := S) (s := s)
    (R := fun _ => True)
    (agrees_load h.paired place hVisible) trivial m m' hm
  generalize hx : place.load p m = r at hLoad
  generalize place.load q m' = t at hLoad
  rw [bind_apply, hx]
  cases hLoad with
  | @ok a _ m₁ _ hPost =>
    rcases hPost with ⟨rfl, _, hPost⟩
    rcases Location.kept_of_load hx with ⟨rfl, _⟩
    exact .ok ⟨rfl, ⟨hLeads, hx⟩, hPost⟩
  | alike hAlike hCut => exact .alike hAlike hCut
  | first hFirst => exact .first hFirst
  | second hSecond => exact .second hSecond

/- A place that was found before is found again. -/
theorem gives_locate
    {m m' : Machine}
    {pending : Pending}
    {place : Location}
    (hLeads : Leads s.since pending place)
    (hm : Linked Joint.level s m m') :
    Gives S m' (pending.locate q) place := by
  refine .inl (Leads.locate ?_)
  rw [hm.world.heap]
  exact hLeads.grows hm.world.grown

/- A place that was found before is written by both runs. -/
theorem Attuned.sim_writeAgain
    (h : Attuned S X w p q n)
    {pending : Pending}
    {place : Location}
    (hLeads : Leads s.since pending place)
    (hVisible : pending.isVisible = true)
    (v : Val) :
    Mirrors S s (fun _ _ m m' => Linked Joint.level s m m')
      (place.store p v) (pending.write q v) := by
  have hStore := Mirrors.ofYields (S := S) (s := s)
    (R := fun _ => True)
    (agrees_store h.paired place v (hLeads.visible hVisible))
    trivial
  refine Sim.givesRight
    (fun m m' hm => gives_locate hLeads hm) ?_
  exact hStore.weaken (fun _ _ hm => hm)
    (fun _ _ _ _ hm => hm.2.2) (fun _ _ _ hm => hm)

/- A place that was not found before is written by both runs. -/
theorem Attuned.sim_write
    (h : Attuned S X w p q n)
    {pending : Pending}
    (hVisible : pending.isVisible = true)
    (v : Val) :
    Mirrors S s (fun _ _ m m' => Linked Joint.level s m m')
      (pending.write p v) (pending.write q v) :=
  (Mirrors.ofYields (R := fun _ => True)
    (agrees_writePlace h.paired pending v hVisible)
    trivial).weaken (fun _ _ hm => hm)
    (fun _ _ _ _ hm => hm.2.2) (fun _ _ _ hm => hm)

/- The second run stores the value of a hidden variable. -/
theorem Attuned.storePlaced
    (h : Attuned S X w p q n)
    (hk : Spare S n (j + 3) k)
    (hPlaced : Placed s P x)
    {name : String}
    {v : Val}
    {ty : Ty}
    {span span' : Span}
    (hName : hidden name = true)
    (hValue : s.find? name = some (v.convert P.target.ty))
    {y : Run Unit}
    {f : Unit → Run α}
    {ss : List Stmt}
    {next : Run β}
    {other : Flow → Run β}
    (hStore : Mirrors S s
      (fun _ _ m m' => Linked Joint.level s m m') y
      (x.1.write q (v.convert P.target.ty)))
    (hRest : Mirrors S s post (f ())
      (andThen (ExecTrace.exec w q k) ss next other)) :
    Mirrors S s post (y >>= f)
      (andThen (ExecTrace.exec w q k)
        (Instrument.store P.target ⟨.localVar name, ty, span⟩ span'
          :: ss) next other) := by
  rw [andThen_cons]
  refine Sim.execRight_bind hk fun k hk => ?_
  have hAssign : Mirrors S s
      (fun _ _ m m' => Linked Joint.level s m m') y
      (ExecTrace.eval w q k
        ⟨.assign P.target ⟨.localVar name, ty, span⟩,
          P.target.ty, span'⟩) := by
    refine Sim.evalRight h.follows hk fun k hk => ?_
    refine Sim.givesRight (fun m m' hm =>
      hPlaced.gives_pending h.follows hk hm) ?_
    refine Mirrors.readFirst h.follows hk hName hValue ?_
    rw [Val.convert_convert, ← bind_pure y]
    exact hStore.bind fun _ _ => Sim.pure fun _ _ hm => hm
  change Mirrors S s post (y >>= f)
    ((do
      let _ ← ExecTrace.eval w q k
        ⟨.assign P.target ⟨.localVar name, ty, span⟩,
          P.target.ty, span'⟩
      pure Flow.normal) >>= _)
  rw [bind_assoc]
  refine hAssign.bind fun _ _ => ?_
  rw [pure_bind]
  exact hRest

/- Finding and reading a place come first. -/
theorem locate_bind
    (pending : Pending)
    (f : Location → Val → Run α) :
    (do
      let place ← pending.locate p
      let old ← place.load p
      f place old)
    = (do
      let place ← pending.locate p
      let old ← place.load p
      pure (place, old)) >>= fun a => f a.1 a.2 := by
  simp only [bind_assoc, pure_bind]

/- The heap grows from what it is. -/
def Shape.grownFrom
    (s : Shape)
    (heap : Heap) : Shape :=
  { s with since := heap }

/- A place stays bound when the heap has grown. -/
theorem Placed.grownFrom
    (h : Placed s P x)
    (heap : Heap) : Placed (s.grownFrom heap) P x := by
  cases h with
  | localVar hName => exact .localVar hName
  | staticField => exact .staticField
  | instanceField hObject => exact .instanceField hObject
  | element hArray hIndex => exact .element hArray hIndex

/-
  The second run binds the old value of a place to a hidden
  variable. What follows may find the place again.
-/
theorem Attuned.declareOld
    (h : Attuned S X w p q n)
    (hk : Spare S n (j + 3) k)
    (hPlaced : Placed s P x)
    {hint : String}
    {number : Nat}
    {f : Location → Val → Run α}
    {ss : List Stmt}
    {next : Run α}
    {other : Flow → Run α}
    (hRest : ∀ place old heap t,
      t = (s.grownFrom heap).hide (fresh hint number)
        (old.convert P.target.ty) →
      Leads heap x.1 place ∧ place.Kept heap →
      w.Admits P.target old →
      Sim S
        (fun m m' => Located p x.1 (place, old) m ∧
          Linked Joint.level t m m')
        (SameEnd t) (levelCut t) (f place old)
        (andThen (ExecTrace.exec w q k) ss next other)) :
    Mirrors S s (SameEnd s)
      (do
        let place ← x.1.locate p
        let old ← place.load p
        f place old)
      (andThen (ExecTrace.exec w q k)
        ((holding (fresh hint number) P.target.ty P.target).decl
          :: ss) next other) := by
  rw [locate_bind]
  refine Mirrors.declareAs Prod.snd hk (hidden_fresh _ _)
    (fun k hk => h.sim_old hPlaced hk) fun a => ?_
  refine Mirrors.remember fun heap => ?_
  refine Sim.assuming
    (P := w.Admits P.target a.2 ∧ Leads heap x.1 a.1 ∧
      a.1.Kept heap)
    (fun m m' ⟨⟨hAdmits, hFound⟩, hHeap, _⟩ => ?_)
    fun ⟨hAdmits, hPlace⟩ => ?_
  · rw [← hHeap]
    exact ⟨hAdmits, hFound.leads,
      (Location.kept_of_load hFound.load).2⟩
  exact (hRest a.1 a.2 heap _ rfl hPlace hAdmits).weaken
    (fun m m' ⟨⟨_, hFound⟩, _, hm⟩ => ⟨hFound, hm⟩)
    (fun _ _ _ _ hm => hm) (fun _ _ _ hm => hm)

/- A place is read by the second run as by the first one. -/
theorem Attuned.gives_load
    (h : Attuned S X w p q n)
    {m m' : Machine}
    {place : Location}
    {v : Val}
    (hVisible : place.isVisible = true)
    (hLoad : place.load p m = (.ok v, m))
    (hm : Linked Joint.level s m m') :
    Gives S m' (place.load q) v := by
  have hBoth := agrees_load (S := {})
    (B := Bond.level fun _ => True) h.paired place hVisible () s
    trivial m m' hm
  rw [hLoad] at hBoth
  generalize hy : place.load q m' = t at hBoth
  cases hBoth with
  | ok hPost =>
    rcases hPost with ⟨rfl, _, _⟩
    rcases Location.kept_of_load hy with ⟨rfl, _⟩
    exact .inl hy
  | @second d _ _ hSecond => cases d <;> cases hSecond

/- A place that can be read has the value that is read. -/
theorem Teller.peek_of_load
    {place : Location}
    {m : Machine}
    {v : Val}
    (h : place.load p m = (.ok v, m)) :
    Teller.peek p place m = v := by
  simp only [Teller.peek, h]

/- A place steps, and can be read afterwards. -/
theorem Attuned.sim_stepped
    (h : Attuned S X w p q n)
    (hk : Spare S n j k)
    (hj : j < 8)
    {place : Location}
    (hVisible : place.isVisible = true)
    (hKept : place.Kept s.since)
    (op : StepOp)
    (ty : Ty)
    (old : Val)
    (val : Val → Val) :
    Mirrors S s
      (fun a b m m' => b = val a ∧
        (Stepped op ty old a ∧
          ∃ u, place.load p m = (.ok u, m) ∧ a.Settled u) ∧
        Linked Joint.level s m m')
      (do
        let new ← stepped p (X.teller.invoke p n) op ty old
        place.store p (new.convert ty)
        pure (new.convert ty))
      (do
        let new ← stepped q (ExecTrace.invoke w q k) op ty old
        place.store q (new.convert ty)
        pure (val (new.convert ty))) := by
  have hStep := yields_stepped h.paired
    (h.invoke k (hk.enough hj)) op ty old
  refine Mirrors.agreed hStep trivial fun new hNew => ?_
  have hStore := Mirrors.ofYields (S := S) (s := s)
    (R := fun _ => True)
    (agrees_store h.paired place (new.convert ty) hVisible)
    trivial
  refine hStore.tracking.bind fun _ _ => ?_
  intro m m' ⟨⟨_, _, hm⟩, m₀, _, hStart, hRun⟩
  exact .ok ⟨rfl,
    ⟨⟨new, rfl, hNew⟩,
      Location.load_of_store (hKept.grows hStart.world.grown)
        hRun⟩,
    hm⟩

end Accesses

------------------------------------------------------------
-- Assignments
------------------------------------------------------------

namespace Spliced

variable {S : Slack}
variable {u w : Observer}
variable {X : Splice}
variable {p q : Program}
variable {n j k : Nat}
variable {site : Site}
variable {s : Shape}
variable {c c' : Nat}

/- An assignment. -/
theorem agrees_assign
    (h : Spliced S X w p q n)
    {target value e' : Expr}
    {ty : Ty}
    {span : Span}
    (hTarget : target.passes Test.source = true)
    (hValue : value.passes Test.source = true)
    (hPass : Instrument.exprForm X.options site
      ⟨.assign target value, ty, span⟩ (.assign target value) c
        = .ok (e', c')) :
    Mimics S X w p q n site
      ⟨.assign target value, ty, span⟩ e' := by
  intro k hk
  simp only [Instrument.exprForm, Instrument.recordAssign,
    Instrument.bind_ok, Instrument.bindAs_ok,
    Instrument.operand_ok, Instrument.pure_ok] at hPass
  rcases hPass with ⟨P, c₁, hPlace, value', c₂, hValue', _, _,
    ⟨rfl, rfl⟩, _, _, ⟨_, rfl, rfl⟩, rfl, rfl⟩
  have hTy := Instrument.ty_of_place hPlace
  refine agrees_letIn h.follows hk.spare fun k hk s hs => ?_
  refine h.placed hk (by decide) hs hTarget hPlace
    fun top x hx => ?_
  refine Mirrors.declare (P := fun _ => True) hk
    (hidden_fresh _ _) (fun k hk => ?_) fun v _ => ?_
  · exact Mirrors.ofYields
      (h.part hk (by decide) hValue hValue') hs
  · have hx := hx.hide "value" (by decide) c₂
      (v.convert P.target.ty)
    refine h.storePlaced (j := 4) (v := v) hk hx
      (hidden_fresh _ _) Shape.find?_hide ?_ ?_
    · rw [hTy]
      exact h.sim_write hx.visible _
    · rcases hx.tale with ⟨b, hb⟩
      refine h.say hk (by decide) rfl ?_ _ ?_
      · rw [← hTy]
        exact tale_assign hb
          (reads_localVar (hidden_fresh _ _) Shape.find?_hide)
      · rw [← hTy]
        exact h.readResult hk (hidden_fresh _ _)
          Shape.find?_hide

/- An operator on two hidden variables. -/
theorem sim_applied
    (h : Spliced S X w p q n)
    (hk : Spare S n (j + 2) k)
    (hj : j + 1 < 8)
    (op : BinaryOp)
    {l r : Val}
    {x y : String}
    (lhs rhs : Expr)
    (tyLeft tyRight : Ty)
    (spanLeft spanRight : Span)
    (hx : hidden x = true)
    (hy : hidden y = true)
    (hLeft : s.find? x = some l)
    (hRight : s.find? y = some r)
    (ty : Ty)
    (span : Span) :
    Mirrors S s
      (SameValue
        (fun v => op.isShortCircuit = false → Val.Combined op l r v)
        s)
      (Teller.applied p (X.teller.runner p n) op lhs rhs l r ty)
      (ExecTrace.eval w q k
        ⟨.binary op ⟨.localVar x, tyLeft, spanLeft⟩
          ⟨.localVar y, tyRight, spanRight⟩, ty, span⟩) := by
  have hTest : ∀ {k : Nat}, Spare S n (j + 1) k →
      Mirrors S s (SameValue (fun _ => True) s)
        (truthOf rhs r)
        (truth (ExecTrace.eval w q k)
          ⟨.localVar y, tyRight, spanRight⟩) := by
    intro k hk
    refine Mirrors.readFirst h.follows hk hy hRight ?_
    exact Mirrors.ofYields (R := fun _ => True)
      (agrees_truthOf rhs _ r) trivial
  refine Sim.evalRight h.follows hk fun k hk => ?_
  cases hOp : op.isShortCircuit with
  | false =>
    rw [Teller.evalForm_strict hOp]
    refine Mirrors.readFirst h.follows hk hx hLeft ?_
    refine Mirrors.readFirst h.follows hk hy hRight ?_
    have hApply := (yields_applyBinary h.paired
      (h.invoke k (hk.enough (by omega))) op l r ty).weaken
        fun v hv (_ : op.isShortCircuit = false) => hv
    cases op with
    | and => cases hOp
    | or => cases hOp
    | _ => exact Mirrors.ofYields hApply trivial
  | true =>
    rw [Teller.evalForm_shortCircuit hOp]
    refine Mirrors.readFirst h.follows hk hx hLeft ?_
    have hFirst := agrees_truthOf (S := S)
      (B := Bond.level fun _ => True) lhs
      ⟨.localVar x, tyLeft, spanLeft⟩ l
    cases op with
    | and =>
      refine Mirrors.agreed hFirst trivial fun b _ => ?_
      cases b with
      | true =>
        refine (hTest hk).bind fun b b' => ?_
        exact Sim.pure fun _ _ ⟨hb, _, hm⟩ =>
          ⟨by rw [hb], nofun, hm⟩
      | false => exact Sim.pure fun _ _ hm => ⟨rfl, nofun, hm⟩
    | or =>
      refine Mirrors.agreed hFirst trivial fun b _ => ?_
      cases b with
      | true => exact Sim.pure fun _ _ hm => ⟨rfl, nofun, hm⟩
      | false =>
        refine (hTest hk).bind fun b b' => ?_
        exact Sim.pure fun _ _ ⟨hb, _, hm⟩ =>
          ⟨by rw [hb], nofun, hm⟩
    | _ => cases hOp

/- Two values are combined for a target. -/
theorem sim_combine
    (h : Spliced S X w p q n)
    (hk : Spare S n (j + 3) k)
    (hj : j + 2 < 8)
    (op : BinaryOp)
    {old rhs : Val}
    {x y : String}
    {target value : Expr}
    {tyLeft tyRight : Ty}
    {spanLeft spanRight : Span}
    (hLeft : tyLeft = target.ty)
    (hRight : tyRight = value.ty)
    (hx : hidden x = true)
    (hy : hidden y = true)
    (hOld : s.find? x = some old)
    (hRhs : s.find? y = some rhs)
    (span : Span) :
    Mirrors S s (SameValue (Assembled op target.ty old rhs) s)
      (X.teller.combine p (X.teller.runner p n) op target value
        old rhs)
      (ExecTrace.eval w q k
        (Instrument.combined span op tyLeft
          ⟨.localVar x, tyLeft, spanLeft⟩
          ⟨.localVar y, tyRight, spanRight⟩)) := by
  subst hLeft hRight
  have hSpliced : X.teller.spliced = true :=
    rfl
  simp only [Teller.combine, hSpliced, if_true,
    Instrument.combined]
  split
  · rename_i hTy
    have hApplied := h.sim_applied hk hj op target value target.ty
      value.ty spanLeft spanRight hx hy hOld hRhs
      (op.resultTy target.ty value.ty) span
    rw [bind_pure]
    exact hApplied.weaken (fun _ _ hm => hm)
      (fun _ _ _ _ hPost =>
        ⟨hPost.1, fun hOp => ⟨_, hPost.2.1 hOp, fun _ => rfl⟩,
          hPost.2.2⟩)
      (fun _ _ _ hm => hm)
  · refine Sim.evalRight h.follows hk fun k hk => ?_
    have hApplied := h.sim_applied hk (by omega) op target value
      target.ty value.ty spanLeft spanRight hx hy hOld hRhs
      (op.resultTy target.ty value.ty) span
    refine hApplied.bind fun v v' => ?_
    rintro m m' ⟨hv, hCombined, hm⟩
    subst hv
    have hCast : Yields S (Bond.level fun _ => True)
        (Assembled op target.ty old rhs) (Call.cast p v target.ty)
        (Call.cast q v target.ty) :=
      (yields_cast h.paired v target.ty).weaken
        fun u hu hOp => ⟨v, hCombined hOp, fun hTy => by
          rw [hu hTy, Val.convert_convert]⟩
    exact Mirrors.ofYields hCast trivial m m' hm

/- A compound assignment. -/
theorem agrees_compoundAssign
    (h : Spliced S X w p q n)
    {op : BinaryOp}
    {target value e' : Expr}
    {ty : Ty}
    {span : Span}
    (hTarget : target.passes Test.source = true)
    (hValue : value.passes Test.source = true)
    (hPass : Instrument.exprForm X.options site
      ⟨.compoundAssign op target value, ty, span⟩
      (.compoundAssign op target value) c = .ok (e', c')) :
    Mimics S X w p q n site
      ⟨.compoundAssign op target value, ty, span⟩ e' := by
  intro k hk
  simp only [Instrument.exprForm, Instrument.recordCompound,
    Instrument.bind_ok, Instrument.bindTo_ok,
    Instrument.operand_ok, Instrument.pure_ok] at hPass
  rcases hPass with ⟨P, c₁, hPlace, _, _, ⟨rfl, rfl⟩, value', c₂,
    hValue', _, _, ⟨rfl, rfl⟩, _, _, ⟨rfl, rfl⟩, _, _,
    ⟨_, rfl, rfl⟩, _, _, ⟨_, rfl, rfl⟩, _, _, ⟨_, rfl, rfl⟩, rfl,
    rfl⟩
  have hTy := Instrument.ty_of_place hPlace
  have hTyValue := Instrument.ty_of_expr hValue'
  simp only [Teller.evalForm, Splice.teller_keep]
  refine agrees_letIn h.follows hk.spare fun k hk s hs => ?_
  refine h.placed hk (by decide) hs hTarget hPlace
    fun top x hx => ?_
  refine h.declareOld hk hx
    fun place old heap t ht hFound hAdmits => ?_
  rw [h.lookBack_admitted hTy hAdmits, pure_bind]
  have hx := (hx.grownFrom heap).hide "old" (by decide)
    c₁ (old.convert P.target.ty)
  rw [← ht] at hx
  have hRet : t.ret = site.ret := by
    rw [ht]
    exact hs
  have hOld : t.find? (fresh "old" c₁)
      = some (old.convert P.target.ty) := by
    rw [ht]
    exact Shape.find?_hide
  have hSince : t.since = heap := by
    rw [ht]
    rfl
  suffices Mirrors S t _ _ _ from
    this.weaken (fun m m' hm => hm.2) (fun _ _ _ _ hm => hm)
      (fun _ _ _ hm => hm)
  refine h.heldAs hk (by decide) hValue hValue' hRet _ _
    fun rhs hRhs => ?_
  rw [← hTyValue] at hRhs
  rw [← hTy, ← hTyValue]
  have hx := hx.hide "rhs" (by decide) c₂ rhs
  have hOld : (t.hide (fresh "rhs" c₂) rhs).find? (fresh "old" c₁)
      = some (old.convert P.target.ty) := by
    rw [Shape.find?_hide_fresh (by decide)]
    exact hOld
  refine Mirrors.declare
    (P := Assembled op target.ty (old.convert P.target.ty) rhs)
    hk (hidden_fresh _ _) (fun k hk => ?_) fun new hNew => ?_
  · exact h.sim_combine hk (by decide) op hTy hTyValue
      (hidden_fresh _ _) (hidden_fresh _ _) hOld
      Shape.find?_hide span
  · rw [Instrument.ty_combined]
    have hx := hx.hide "new" (by decide) (c₂ + 1)
      (new.convert P.target.ty)
    refine h.storePlaced (j := 4) (v := new) hk hx
      (hidden_fresh _ _) Shape.find?_hide ?_ ?_
    · exact h.sim_writeAgain (hSince ▸ hFound.1) hx.visible _
    · rcases hx.tale with ⟨b, hb⟩
      rw [← hTy] at hNew
      have hSound := h.fair.compound op x.2 value'.ty old rhs new
        P.target hRhs hNew hAdmits
      refine h.saySound hk (by decide) hSound ?_ _ ?_
      · refine tale_compoundAssign hb
          (reads_localVar (hidden_fresh _ _) ?_)
          (reads_localVar (hidden_fresh _ _) ?_)
          (reads_localVar (hidden_fresh _ _) Shape.find?_hide) _
        · rw [Shape.find?_hide_fresh (by decide)]
          exact hOld
        · rw [Shape.find?_hide_fresh (by decide)]
          exact Shape.find?_hide
      · exact h.readResult hk (hidden_fresh _ _)
          Shape.find?_hide

/- A step. -/
theorem agrees_step
    (h : Spliced S X w p q n)
    {op : StepOp}
    {target e' : Expr}
    {ty : Ty}
    {span : Span}
    (hTarget : target.passes Test.source = true)
    (hPass : Instrument.exprForm X.options site ⟨.step op target, ty, span⟩
      (.step op target) c = .ok (e', c')) :
    Mimics S X w p q n site
      ⟨.step op target, ty, span⟩ e' := by
  intro k hk
  simp only [Instrument.exprForm, Instrument.recordStep,
    Instrument.bind_ok, Instrument.bindTo_ok,
    Instrument.operand_ok, Instrument.pure_ok] at hPass
  rcases hPass with ⟨P, c₁, hPlace, _, _, ⟨rfl, rfl⟩, _, _,
    ⟨rfl, rfl⟩, _, _, ⟨rfl, rfl⟩, _, _, ⟨_, rfl, rfl⟩, _, _,
    ⟨_, rfl, rfl⟩, _, _, ⟨_, rfl, rfl⟩, rfl, rfl⟩
  have hTy := Instrument.ty_of_place hPlace
  simp only [Teller.evalForm, Splice.teller_keep]
  refine agrees_letIn h.follows hk.spare fun k hk s hs => ?_
  refine h.placed hk (by decide) hs hTarget hPlace
    fun top x hx => ?_
  refine h.declareOld hk hx
    fun place old heap t ht hFound hAdmits => ?_
  rw [h.lookBack_admitted hTy hAdmits, pure_bind]
  have hx := (hx.grownFrom heap).hide "old" (by decide)
    c₁ (old.convert P.target.ty)
  rw [← ht] at hx
  have hOld : t.find? (fresh "old" c₁)
      = some (old.convert P.target.ty) := by
    rw [ht]
    exact Shape.find?_hide
  have hSince : t.since = heap := by
    rw [ht]
    rfl
  rw [← hSince] at hFound
  have hVisible := hFound.1.visible hx.visible
  -- What the first run does is split where the probe begins.
  have hSplit : ∀ f : Val → Run Val,
      (do
        let new ← stepped p
          (X.teller.invoke p n) op target.ty
          old
        place.store p (new.convert target.ty)
        f (new.convert target.ty))
      = (do
        let new ← stepped p
          (X.teller.invoke p n) op target.ty
          old
        place.store p (new.convert target.ty)
        pure (new.convert target.ty)) >>= f := by
    intro f
    simp only [bind_assoc, pure_bind]
  have hLeft := hSplit fun new => do
    let result := (if op.isPrefix then new else old).convert ty
    X.teller.tell p
      (X.teller.invoke p n) n span fun m =>
        .operation
          (.incDec x.2 op.describe
            (shown target.ty (old.convert target.ty))
            (shown target.ty
              ((Teller.peek p place m).convert target.ty))
            (shown ty result))
    pure result
  refine Sim.ofEq hLeft ?_
  refine Mirrors.declareAs
    (I := fun new m => w.Admits (Instrument.rebuilt
        ⟨.step op target, ty, span⟩ (.step op P.target))
        (if op.isPrefix then new else old) ∧
      Stepped op target.ty old new ∧
        ∃ u, place.load p m = (.ok u, m) ∧ new.Settled u)
    (fun new => if op.isPrefix then new else old) hk
    (hidden_fresh _ _) (fun k hk => ?_) fun new => ?_
  · refine (Sim.evalAdmitted
      (Q := fun a b m m' =>
        b = (if op.isPrefix then a else old) ∧
          (Stepped op target.ty old a ∧
            ∃ u, place.load p m = (.ok u, m) ∧ a.Settled u) ∧
          Linked Joint.level t m m')
      h.follows hk fun k hk => ?_).weaken (fun _ _ hm => hm)
        (fun _ _ _ _ hPost =>
          ⟨hPost.1.1, ⟨hPost.1.1 ▸ hPost.2, hPost.1.2.1⟩,
            hPost.1.2.2⟩)
        (fun _ _ _ hm => hm)
    simp only [Runner.evalForm, Instrument.rebuilt, hTy]
    refine Sim.givesRight (fun m m' hm =>
      hx.gives_pending h.follows hk hm.2) ?_
    refine Sim.givesRight (fun m m' hm =>
      gives_locate hFound.1 hm.2) ?_
    refine Sim.givesRight (fun m m' hm =>
      h.gives_load hVisible hm.1.load hm.2) ?_
    refine Sim.watchRight h.follows rfl ?_
    exact (h.sim_stepped hk (by decide) hVisible hFound.2 op
      target.ty old fun new =>
        if op.isPrefix then new else old).weaken
      (fun _ _ hm => hm.2) (fun _ _ _ _ hm => hm)
      (fun _ _ _ hm => hm)
  · have hx := hx.hide "res" (by decide) (c₁ + 1)
      ((if op.isPrefix then new else old).convert ty)
    refine Mirrors.declareRight
      (Q := fun u => w.Admits (Instrument.rebuilt
          ⟨.step op target, ty, span⟩ (.step op P.target))
          (if op.isPrefix then new else old) ∧
        Stepped op target.ty old new ∧ new.Settled u)
      (Teller.peek p place) hk (hidden_fresh _ _)
      (fun _ _ hm => hm.2) (fun m m' hm => ?_)
      (fun k hk m m' hm => ?_) fun u hu hAgain => ?_
    · rcases hm with ⟨⟨hResult, hNew, u, hLoad, hSettled⟩, _⟩
      rw [Teller.peek_of_load hLoad]
      exact ⟨hResult, hNew, hSettled⟩
    · rcases hm with ⟨⟨_, _, u, hLoad, _⟩, hm⟩
      rw [Teller.peek_of_load hLoad]
      refine gives_eval h.follows hk fun k hk => ?_
      rw [hx.evalForm_target]
      refine (hx.gives_pending h.follows hk hm).bind ?_
      exact (gives_locate (by exact hFound.1) hm).bind
        (h.gives_load hVisible hLoad hm)
    · rcases hu with ⟨hResult, hNew, hSettled⟩
      have hx := hx.hide "new" (by decide) (c₁ + 1 + 1)
        (u.convert P.target.ty)
      rcases hx.tale with ⟨b, hb⟩
      rw [← hTy] at hNew
      have hSound := h.fair.step op x.2 old new u P.target _ hNew
        hAdmits hSettled hAgain hResult
      refine h.sayFrom hk (by decide) (fun _ _ hm => hm.1)
        (fun m m' hm => ?_) rfl span ?_
      · rw [← hTy, hm.2]
        refine ⟨hSound, ?_⟩
        refine tale_incDec hb
          (reads_localVar (hidden_fresh _ _) ?_)
          (reads_localVar (hidden_fresh _ _) Shape.find?_hide)
          (reads_localVar (hidden_fresh _ _) ?_) _
        · rw [Shape.find?_hide_fresh (by decide),
            Shape.find?_hide_fresh (by decide)]
          exact hOld
        · rw [Shape.find?_hide_fresh (by decide)]
          exact Shape.find?_hide
      · refine h.readResult hk (hidden_fresh _ _) ?_
        rw [Shape.find?_hide_fresh (by decide)]
        exact Shape.find?_hide

end Spliced

end ExecTrace
