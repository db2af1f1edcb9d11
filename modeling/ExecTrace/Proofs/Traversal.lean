import ExecTrace.Syntax.Probe

/-
  Going through the values of an action in two ways. A relation
  between computations that holds of equal results and that
  sequences preserve holds of the two traversals, if it holds
  for every single value.

  Main declarations:
    * `Carries`
    * `Carries.mapAction`
    * `Carries.mapProbe`
-/

namespace ExecTrace

/-
  A relation between the computations of two kinds that holds of
  equal results, and of sequences if it holds of their parts.
-/
structure Carries
    (m n : Type → Type)
    [Monad m]
    [Monad n]
    (R : (β : Type) → m β → n β → Prop) : Prop where
  pure : ∀ {β : Type} (b : β), R β (Pure.pure b) (Pure.pure b)
  bind : ∀ {β γ : Type} {x : m β} {y : n β}
    {f : β → m γ} {g : β → n γ},
    R β x y → (∀ b, R γ (f b) (g b)) → R γ (x >>= f) (y >>= g)

namespace Carries

variable {m n : Type → Type}
variable [Monad m]
variable [Monad n]
variable {R : (β : Type) → m β → n β → Prop}
variable {α β κ : Type}
variable {f : α → m β}
variable {g : α → n β}

/- What follows a single value is a function of it. -/
theorem map
    (h : Carries m n R)
    {γ : Type}
    {x : m β}
    {y : n β}
    (hx : R β x y)
    (c : β → γ) :
    R γ (x >>= fun b => Pure.pure (c b))
      (y >>= fun b => Pure.pure (c b)) :=
  h.bind hx fun _ => h.pure _

------------------------------------------------------------
-- Parts of Actions
------------------------------------------------------------

/- The optional value is mapped in both ways. -/
theorem mapOption
    (h : Carries m n R)
    (a : Option α)
    (hf : ∀ c ∈ a.toList, R β (f c) (g c)) :
    R (Option β) (optionMapM f a) (optionMapM g a) := by
  cases a with
  | none => exact h.pure _
  | some a => exact h.map (hf a (by simp)) _

/- Values are mapped one after the other in both ways. -/
theorem mapList
    [LawfulMonad m]
    [LawfulMonad n]
    (h : Carries m n R)
    (as : List α)
    (hf : ∀ c ∈ as, R β (f c) (g c)) :
    R (List β) (as.mapM f) (as.mapM g) := by
  induction as with
  | nil =>
    rw [List.mapM_nil, List.mapM_nil]
    exact h.pure _
  | cons a rest ih =>
    rw [List.mapM_cons, List.mapM_cons]
    exact h.bind (hf a (by simp)) fun _ =>
      h.map (ih fun c hc => hf c (by simp [hc])) _

/- The values of a place are mapped in both ways. -/
theorem mapPlace
    (h : Carries m n R)
    (p : Place α)
    (hf : ∀ c ∈ p.operands, R β (f c) (g c)) :
    R (Place β) (p.mapM f) (p.mapM g) := by
  cases p with
  | localVar name => exact h.pure _
  | staticField cls field => exact h.pure _
  | instanceField cls object field =>
    exact h.map (hf object (by simp [Place.operands])) _
  | element array index =>
    exact h.bind (hf array (by simp [Place.operands])) fun _ =>
      h.map (hf index (by simp [Place.operands])) _

/- The value of a statement is mapped in both ways. -/
theorem mapStatement
    (h : Carries m n R)
    (s : Statement α)
    (hf : ∀ c ∈ s.operands, R β (f c) (g c)) :
    R (Statement β) (s.mapM f) (s.mapM g) := by
  have hOne : ∀ {v : α} (c : β → Statement β),
      v ∈ s.operands →
      R _ (f v >>= fun b => Pure.pure (c b))
        (g v >>= fun b => Pure.pure (c b)) :=
    fun c hv => h.map (hf _ hv) c
  cases s with
  | yield v _ => exact hOne _ (by simp [Statement.operands])
  | switch v => exact hOne _ (by simp [Statement.operands])
  | throw v => exact hOne _ (by simp [Statement.operands])
  | caught v => exact hOne _ (by simp [Statement.operands])
  | assertion v _ => exact hOne _ (by simp [Statement.operands])
  | ifCondition v => exact hOne _ (by simp [Statement.operands])
  | loopCondition v _ =>
    exact hOne _ (by simp [Statement.operands])
  | _ => exact h.pure _

/- The values of an operation are mapped in both ways. -/
theorem mapOperation
    (h : Carries m n R)
    (o : Operation α)
    (hf : ∀ c ∈ o.operands, R β (f c) (g c)) :
    R (Operation β) (o.mapM f) (o.mapM g) := by
  have hPlace : ∀ {p : Place α}, p.operands ⊆ o.operands →
      R _ (p.mapM f) (p.mapM g) :=
    fun hp => h.mapPlace _ fun c hc => hf c (hp hc)
  cases o with
  | switch v => exact h.map (hf v (by simp [Operation.operands])) _
  | loopEnter kind => exact h.pure _
  | loopExit kind => exact h.pure _
  | nextElement v =>
    exact h.map (hf v (by simp [Operation.operands])) _
  | ternaryCondition v =>
    exact h.map (hf v (by simp [Operation.operands])) _
  | assign place v =>
    exact h.bind (hPlace (by simp [Operation.operands])) fun _ =>
      h.map (hf v (by simp [Operation.operands])) _
  | compoundAssign place _ old rhs new =>
    exact h.bind (hPlace (by simp [Operation.operands])) fun _ =>
      h.bind (hf old (by simp [Operation.operands])) fun _ =>
        h.bind (hf rhs (by simp [Operation.operands])) fun _ =>
          h.map (hf new (by simp [Operation.operands])) _
  | incDec place _ old new result =>
    exact h.bind (hPlace (by simp [Operation.operands])) fun _ =>
      h.bind (hf old (by simp [Operation.operands])) fun _ =>
        h.bind (hf new (by simp [Operation.operands])) fun _ =>
          h.map (hf result (by simp [Operation.operands])) _
  | read place v =>
    exact h.bind (hPlace (by simp [Operation.operands])) fun _ =>
      h.map (hf v (by simp [Operation.operands])) _
  | unary _ operand result =>
    exact h.bind (hf operand (by simp [Operation.operands]))
      fun _ => h.map (hf result (by simp [Operation.operands])) _

/- The value of an exit is mapped in both ways. -/
theorem mapExit
    (h : Carries m n R)
    (e : Exit α)
    (hf : ∀ c ∈ e.operands, R β (f c) (g c)) :
    R (Exit β) (e.mapM f) (e.mapM g) := by
  cases e with
  | explicit v => exact h.map (h.mapOption v hf) _
  | endOfBody => exact h.pure _
  | exceptional v =>
    exact h.map (hf v (by simp [Exit.operands])) _

/- The value of a resumption is mapped in both ways. -/
theorem mapResumption
    (h : Carries m n R)
    (r : Resumption α)
    (hf : ∀ c ∈ r.operands, R β (f c) (g c)) :
    R (Resumption β) (r.mapM f) (r.mapM g) := by
  cases r with
  | returned v =>
    exact h.map (hf v (by simp [Resumption.operands])) _
  | void => exact h.pure _
  | aborted v =>
    exact h.map (hf v (by simp [Resumption.operands])) _

------------------------------------------------------------
-- Actions and Probes
------------------------------------------------------------

/- The values of an action are mapped in both ways. -/
theorem mapAction
    [LawfulMonad m]
    [LawfulMonad n]
    (h : Carries m n R)
    (a : Action κ α)
    (hf : ∀ c, R β (f c) (g c)) :
    R (Action κ β) (a.mapM f) (a.mapM g) := by
  cases a with
  | statement s =>
    exact h.map (h.mapStatement s fun c _ => hf c) _
  | operation o =>
    exact h.map (h.mapOperation o fun c _ => hf c) _
  | castAttempt v _ _ => exact h.map (hf v) _
  | binary _ lhs rhs result =>
    exact h.bind (hf lhs) fun _ =>
      h.bind (h.mapOption rhs fun c _ => hf c) fun _ =>
        h.map (hf result) _
  | typeTest v _ _ => exact h.map (hf v) _
  | call _ receiver args =>
    exact h.bind (h.mapOption receiver fun c _ => hf c) fun _ =>
      h.map (h.mapList args fun c _ => hf c) _
  | enter _ _ => exact h.pure _
  | exit _ _ how => exact h.map (h.mapExit how fun c _ => hf c) _
  | resume _ _ _ how =>
    exact h.map (h.mapResumption how fun c _ => hf c) _

/- The operands of a probe are mapped in both ways. -/
theorem mapProbe
    [LawfulMonad m]
    [LawfulMonad n]
    (h : Carries m n R)
    (P : Probe α)
    (hf : ∀ c ∈ P.operands, R β (f c) (g c)) :
    R (Probe β) (P.mapM f) (P.mapM g) := by
  cases P with
  | statement s => exact h.map (h.mapStatement s hf) _
  | operation o => exact h.map (h.mapOperation o hf) _
  | castAttempt value _ succeeds =>
    exact h.bind (hf value (by simp [Probe.operands])) fun _ =>
      h.map (hf succeeds (by simp [Probe.operands])) _
  | binary _ lhs rhs result skipped =>
    refine h.bind (hf lhs (by simp [Probe.operands])) fun _ =>
      h.bind (hf rhs (by simp [Probe.operands])) fun _ =>
        h.bind (hf result (by simp [Probe.operands])) fun _ =>
          h.map (h.mapOption skipped fun c hc => hf c ?_) _
    exact List.mem_append_right _ hc
  | typeTest tested _ result =>
    exact h.bind (hf tested (by simp [Probe.operands])) fun _ =>
      h.map (hf result (by simp [Probe.operands])) _
  | call _ receiver args =>
    refine h.bind (h.mapOption receiver fun c hc => hf c ?_)
      fun _ => h.map (h.mapList args fun c hc => hf c ?_) _
    · exact List.mem_append_left _ hc
    · exact List.mem_append_right _ hc
  | enter method => exact h.pure _
  | exit _ how => exact h.map (h.mapExit how hf) _
  | resume _ _ how => exact h.map (h.mapResumption how hf) _

end Carries

end ExecTrace
