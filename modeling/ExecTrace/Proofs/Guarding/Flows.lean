import ExecTrace.Proofs.Guarding.Reports

/-
  Flows under guard. Code that reports tells the end of its method
  when it returns, and else stays in its phase. What is run behind
  a flow passes a return on.

  Main declarations:
    * `Phase.left`
    * `Ends`, with `Ends.bind` and `Ends.after`
    * `Ends.runAll`, `Ends.iterate`, `Ends.loopRound`
    * `Ends.switchOn`, `Ends.switchValue`, `Ends.runHandler`
-/

namespace ExecTrace

open Run

variable {K : Rules}

/- Whether a statement returned from its method. -/
def Flow.isReturn : Flow → Bool
  | .return _ => true
  | _ => false

/- Whether a round of a loop returned from the method. -/
def Flow.returns (flow? : Option Flow) : Bool :=
  flow?.any Flow.isReturn

/-
  The phase behind a return: the end of the method was told if
  its start was.
-/
def Phase.left
    (K : Rules)
    (g : Phase) : Phase :=
  bif bare g.frames then g else g.on (g.tape.shut K .returned)

/-
  A run that stays in its phase, for every phase of some kind, and
  that tells the end of the method with some results.
-/
def Ends
    (K : Rules)
    (G : Phase → Prop)
    {α : Type}
    (returns : α → Bool)
    (x : Run α) : Prop :=
  ∀ g, G g → Obeys (At K g) x
    (fun a => At K (bif returns a then g.left K else g))
    (fun _ => At K g) (Lost K g)

/-
  Phases in which the end of a method can be told: a fault behind
  it loses no more than one in front of it.
-/
structure Departs
    (K : Rules)
    (G : Phase → Prop) : Prop where
  deep : ∀ g, G g → g.tape.Deep K
  left : ∀ g, G g → (g.left K).tape.Deep K
  spilt : ∀ g, G g → ∀ m, Lost K (g.left K) m → Lost K g m

section Ends

variable {α β : Type}
variable {G : Phase → Prop}
variable {returns : α → Bool}
variable {returns' : β → Bool}
variable {x y : Run α}
variable {f : α → Run β}
variable {p : Program}

namespace Ends

/- A run that stays in its phase returns nowhere. -/
theorem ofStays
    (h : Stays K G α x y) : Ends K G (fun _ => false) x :=
  h

/- A result that is no return. -/
theorem pure
    {a : α}
    (ha : returns a = false) : Ends K G returns (Pure.pure a) :=
  fun _ _ => .pure fun _ hm => by
    rw [ha]
    exact hm

/- Something is run behind a flow. -/
theorem bind
    (hx : Ends K G returns x)
    (hf : ∀ a, returns a = false → Ends K G returns' (f a))
    (hReturn : ∀ a, returns a = true → ∀ g, G g →
      Obeys (At K (g.left K)) (f a)
        (fun b => At K (bif returns' b then g.left K else g))
        (fun _ => At K g) (Lost K g)) :
    Ends K G returns' (x >>= f) := by
  intro g hg
  refine (hx g hg).bind fun a => ?_
  cases hReturns : returns a with
  | false => exact hf a hReturns g hg
  | true => exact hReturn a hReturns g hg

/- Something is run behind a flow, unless it is a return. -/
theorem next
    (hx : Ends K G returns x)
    (hf : ∀ a, returns a = false → Ends K G returns' (f a))
    (hReturn : ∀ a, returns a = true →
      ∃ b, f a = Pure.pure b ∧ returns' b = true) :
    Ends K G returns' (x >>= f) := by
  refine hx.bind hf fun a ha g hg => ?_
  rcases hReturn a ha with ⟨b, hb, hReturns⟩
  rw [hb]
  exact .pure fun _ hm => by
    rw [hReturns]
    exact hm

/- Something is run behind what stays in its phase. -/
theorem after
    (hx : Stays K G α x y)
    (hf : ∀ a, Ends K G returns' (f a)) :
    Ends K G returns' (x >>= f) :=
  bind (ofStays hx) (fun a _ => hf a) nofun

/- A look at the machine. -/
theorem look
    {f : Machine → Run α}
    (h : ∀ m, Ends K G returns (f m)) :
    Ends K G returns ((get : Run Machine) >>= f) :=
  fun g hg m hm => h m g hg m hm

/- A run has a scope of its own. -/
theorem inScope
    (h : Ends K G returns x) :
    Ends K G returns (ExecTrace.inScope x) :=
  fun g hg => (h g hg).inScope At.blind (fun _ => At.blind)
    (fun _ => At.blind) Lost.blind

/- A variable is declared in front of a run. -/
theorem declareLocal
    (name : String)
    (v : Val)
    (h : Ends K G returns x) :
    Ends K G returns (Run.declareLocal name v >>= fun _ => x) :=
  after (Stays.relocate fun m => m.locals.declare name v) fun _ => h

/- A handler is run if an exception is thrown. -/
theorem catching
    {body : Run Flow}
    {handle : Val → Run Flow}
    (h : Ends K G Flow.isReturn body)
    (hHandle : ∀ v, Ends K G Flow.isReturn (handle v)) :
    Ends K G Flow.isReturn (ExecTrace.catching body handle) :=
  fun g hg => (h g hg).catching fun v => hHandle v g hg

------------------------------------------------------------
-- Statements
------------------------------------------------------------

/- A flow is passed on unless it is the normal one. -/
theorem andThen
    {x y : Run Flow}
    (hx : Ends K G Flow.isReturn x)
    (hy : Ends K G Flow.isReturn y) :
    Ends K G Flow.isReturn (do
      match ← x with
      | .normal => y
      | flow => Pure.pure flow) := by
  refine hx.next (fun flow hFlow => ?_) fun flow hFlow => ?_
  · cases flow with
    | normal => exact hy
    | _ => exact pure hFlow
  · cases flow with
    | «return» v => exact ⟨_, rfl, rfl⟩
    | _ => cases hFlow

/- Statements are run one after the other. -/
theorem runAll
    {ex : Stmt → Run Flow}
    (ss : List Stmt)
    (h : ∀ s ∈ ss, Ends K G Flow.isReturn (ex s)) :
    Ends K G Flow.isReturn (ExecTrace.runAll ex ss) := by
  induction ss with
  | nil => exact pure rfl
  | cons s rest ih =>
    exact (h s List.mem_cons_self).andThen
      (ih fun s hs => h s (List.mem_cons_of_mem _ hs))

/- Rounds of a loop are run until one of them ends it. -/
theorem iterate
    {round : Nat → Run (Option Flow)}
    (hRound : ∀ i, Ends K G Flow.returns (round i))
    (rounds i : Nat) :
    Ends K G Flow.isReturn (ExecTrace.iterate round rounds i) := by
  induction rounds generalizing i with
  | zero => exact fun _ _ _ _ => .spent
  | succ rounds ih =>
    refine (hRound i).next (fun flow? hFlow => ?_)
      fun flow? hFlow => ?_
    · cases flow? with
      | none => exact ih (i + 1)
      | some flow => exact pure hFlow
    · cases flow? with
      | none => cases hFlow
      | some flow => exact ⟨flow, rfl, hFlow⟩

/- The body of a loop is run once. -/
theorem loopRound
    {ex : Stmt → Run Flow}
    {body : Stmt}
    (h : Ends K G Flow.isReturn (ex body))
    (label : Option String) :
    Ends K G Flow.returns (ExecTrace.loopRound ex label body) := by
  refine h.inScope.next (fun flow hFlow => ?_) fun flow hFlow => ?_
  · cases flow with
    | «return» v => cases hFlow
    | «break» jump =>
      dsimp only
      split <;> exact pure rfl
    | «continue» jump =>
      dsimp only
      split <;> exact pure rfl
    | _ => exact pure rfl
  · cases flow with
    | «return» v => exact ⟨_, rfl, rfl⟩
    | _ => cases hFlow

/- A round is run while a condition holds. -/
theorem roundWhile
    {cond : Run Bool}
    {round : Run (Option Flow)}
    (hCond : Stays K G Bool cond cond)
    (hRound : Ends K G Flow.returns round) :
    Ends K G Flow.returns (ExecTrace.roundWhile cond round) := by
  refine after hCond fun b => ?_
  cases b with
  | true => exact hRound
  | false => exact pure rfl

/- A round is followed by a condition. -/
theorem roundUntil
    {cond : Run Bool}
    {round : Run (Option Flow)}
    (hRound : Ends K G Flow.returns round)
    (hCond : Stays K G Bool cond cond) :
    Ends K G Flow.returns (ExecTrace.roundUntil round cond) := by
  refine hRound.next (fun flow? hFlow => ?_) fun flow? hFlow => ?_
  · cases flow? with
    | some flow => exact pure hFlow
    | none =>
      refine after hCond fun b => ?_
      cases b <;> exact pure rfl
  · cases flow? with
    | none => cases hFlow
    | some flow => exact ⟨_, rfl, hFlow⟩

/- A round with an item of an array in a variable. -/
theorem roundOver
    {round : Run (Option Flow)}
    (hRound : Ends K G Flow.returns round)
    (address : Nat)
    (var : String)
    (ty : Ty)
    (i : Nat) :
    Ends K G Flow.returns
      (ExecTrace.roundOver address var ty round i) := by
  refine look fun m => ?_
  split
  · exact pure rfl
  · exact (declareLocal var _ hRound).inScope

/- Statements in front of a loop do not end it. -/
theorem initialized
    {ex : Stmt → Run Flow}
    {init : List Stmt}
    {loop : Run Flow}
    (hDeparts : Departs K G)
    (hInit : ∀ s ∈ init, Ends K G Flow.isReturn (ex s))
    (hLoop : Ends K G Flow.isReturn loop) :
    Ends K G Flow.isReturn
      (ExecTrace.initialized ex init loop) := by
  refine inScope ((runAll init hInit).bind (fun flow hFlow => ?_)
    fun flow hFlow g hg => ?_)
  · cases flow with
    | normal => exact hLoop
    | _ => exact fun g hg m hm => .lost (hm.lost (hDeparts.deep g hg))
  · cases flow with
    | «return» v =>
      exact fun m hm => .lost (hDeparts.spilt g hg m
        (hm.lost (hDeparts.left g hg)))
    | _ => cases hFlow

------------------------------------------------------------
-- Switches and Handlers
------------------------------------------------------------

/- Arms of a switch statement are run. -/
theorem runArms
    {run : List Stmt → Run Flow}
    (arms : List Arm)
    (h : ∀ arm ∈ arms, Ends K G Flow.isReturn (run arm.body)) :
    Ends K G Flow.isReturn (ExecTrace.runArms run arms) := by
  induction arms with
  | nil => exact pure rfl
  | cons arm rest ih =>
    refine (h arm List.mem_cons_self).next (fun flow hFlow => ?_)
      fun flow hFlow => ?_
    · cases flow with
      | normal =>
        exact ih fun a ha => h a (List.mem_cons_of_mem _ ha)
      | «break» label => cases label <;> exact pure rfl
      | _ => exact pure hFlow
    · cases flow with
      | «return» v => exact ⟨_, rfl, rfl⟩
      | _ => cases hFlow

/- Arms of a switch expression yield a value. -/
theorem yieldFromArms
    {run : List Stmt → Run Flow}
    (hDeparts : Departs K G)
    (arms : List Arm)
    (h : ∀ arm ∈ arms, Ends K G Flow.isReturn (run arm.body)) :
    Ends K G (fun _ => false) (ExecTrace.yieldFromArms run arms) := by
  induction arms with
  | nil => exact fun g hg m hm => .lost (hm.lost (hDeparts.deep g hg))
  | cons arm rest ih =>
    refine (h arm List.mem_cons_self).bind (fun flow hFlow => ?_)
      fun flow hFlow g hg => ?_
    · cases flow with
      | normal =>
        exact ih fun a ha => h a (List.mem_cons_of_mem _ ha)
      | yield v => exact pure rfl
      | _ =>
        exact fun g hg m hm => .lost (hm.lost (hDeparts.deep g hg))
    · cases flow with
      | «return» v =>
        exact fun m hm => .lost (hDeparts.spilt g hg m
          (hm.lost (hDeparts.left g hg)))
      | _ => cases hFlow

/- An exception that is thrown is no return. -/
theorem raise
    (h : Congruence (Stays K G))
    (cls message : String) :
    Ends K G returns (Run.raise p cls message) :=
  after (h.exception cls _) fun _ _ _ => .throw fun _ hm => hm

/- The arms that are selected are some of the arms. -/
theorem selectArm
    {arms : List Arm}
    {f : List Arm → Run β}
    (h : Congruence (Stays K G))
    (selector : Val)
    (hf : ∀ selected, (∀ arm ∈ selected, arm ∈ arms) →
      Ends K G returns' (f selected)) :
    Ends K G returns'
      (ExecTrace.selectArm p selector arms >>= f) := by
  unfold ExecTrace.selectArm
  split
  · unfold Run.raiseNull
    rw [Congruence.raise_bind]
    exact raise h _ _
  · simp only
    split
    · exact hf _ fun arm harm =>
        (List.dropWhile_sublist _).subset harm
    · exact hf _ fun arm harm =>
        (List.dropWhile_sublist _).subset harm

/- The handler for an exception is run. -/
theorem runHandler
    {ex : Catch → Run Flow}
    {catches : List Catch}
    (hCatch : ∀ c ∈ catches, Ends K G Flow.isReturn (ex c))
    (exception : Val) :
    Ends K G Flow.isReturn
      (ExecTrace.runHandler p ex catches exception) := by
  refine look fun m => ?_
  simp only
  cases hFind : catches.find? fun c =>
      Call.catches p m.heap exception c.ty with
  | none => exact fun g hg => .throw fun _ hm => hm
  | some c =>
    exact (declareLocal c.param exception
      (hCatch c (List.mem_of_find?_eq_some hFind))).inScope

end Ends

end Ends

end ExecTrace
