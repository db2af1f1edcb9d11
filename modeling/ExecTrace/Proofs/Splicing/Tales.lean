import ExecTrace.Proofs.Splicing.Parts

/-
  Tales about hidden variables. Once the values that an action
  mentions are bound to hidden variables, the probe that names
  the variables reports what is told about the values.

  Main declarations:
    * `Reads` and `PlaceTale`
    * `Tale` and `Attuned.say`
    * `tale_read`, `tale_binary`, `tale_callStatic`, `tale_returned`
-/

namespace ExecTrace

open Run
open Teller (runner)
open Instrument (Options reporting probeAt)

------------------------------------------------------------
-- Reading Hidden Variables
------------------------------------------------------------

/-
  An expression that reads the value of a hidden variable, or
  its negation.
-/
structure Reads
    (s : Shape)
    (e : Expr)
    (v : Val) : Prop where
  shows : s.shows (reporting e) = true
  live : s.live (reporting e) = ⟨reporting e, v⟩

/- A place whose parts are held by hidden variables. -/
structure PlaceTale
    (s : Shape)
    (a : Place Shown)
    (P : Place Operand)
    (b : Place Live) : Prop where
  shows : ∀ o ∈ P.operands, s.shows o = true
  live : P.mapM (m := Id) s.live = b
  told : ∀ f : Shown → Run Snapshot,
    a.mapM f = b.mapM fun l => f ⟨l.operand.kind, l.value⟩

/- A probe that reports what is told about hidden variables. -/
def Tale
    (s : Shape)
    (a : Action Unit Shown)
    (P : Probe Operand) : Prop :=
  P.isPlain = true ∧ (∀ o ∈ P.operands, s.shows o = true) ∧
    ∃ b, ((P.mapM (m := Id) s.live).toAction : Run _) = pure b ∧
      Tells a b

/- An end of a method that hidden variables tell about. -/
structure ExitTale
    (s : Shape)
    (a : Exit Shown)
    (P : Exit Operand) : Prop where
  shows : ∀ o ∈ P.operands, s.shows o = true
  told : ∀ f : Shown → Run Snapshot,
    a.mapM f = (P.mapM (m := Id) s.live).mapM
      fun l => f ⟨l.operand.kind, l.value⟩

section Tales

variable {s : Shape}
variable {e e₁ e₂ e₃ : Expr}
variable {v v₁ v₂ v₃ : Val}
variable {place : Place Shown}
variable {spliced : Place Operand}
variable {live : Place Live}

/- The read of a hidden variable. -/
theorem reads_localVar
    {x : String}
    {ty : Ty}
    {span : Span}
    (hx : hidden x = true)
    (hv : s.find? x = some v) :
    Reads s ⟨.localVar x, ty, span⟩ v where
  shows := by simp [Shape.shows, reporting, hx, hv]
  live := by simp [Shape.live, reporting, hv]

/- The negation of a hidden variable. -/
theorem reads_not
    {x : String}
    {ty : Ty}
    {span : Span}
    {b : Bool}
    (e : Expr)
    (hx : hidden x = true)
    (hv : s.find? x = some (.bool b)) :
    Reads s
      (Instrument.rebuilt e (.unary .not ⟨.localVar x, ty, span⟩))
      (.bool !b) where
  shows := by
    simp [Shape.shows, reporting, Instrument.rebuilt, hx, hv,
      Val.asBool?, Val.bool]
  live := by
    simp [Shape.live, reporting, Instrument.rebuilt, hv,
      Val.asBool?, Val.bool]

/- A local variable as a place. -/
theorem placeTale_localVar
    (x : String) :
    PlaceTale s (.localVar x) (.localVar x) (.localVar x) where
  shows := nofun
  live := rfl
  told := fun _ => rfl

/- A static field as a place. -/
theorem placeTale_staticField
    (cls field : String) :
    PlaceTale s (.staticField cls field) (.staticField cls field)
      (.staticField cls field) where
  shows := nofun
  live := rfl
  told := fun _ => rfl

/- A field of an object as a place. -/
theorem placeTale_instanceField
    (h : Reads s e v)
    (cls field : String) :
    PlaceTale s (.instanceField cls (shown e.ty v) field)
      (.instanceField cls (reporting e) field)
      (.instanceField cls ⟨reporting e, v⟩ field) where
  shows := by simp [Place.operands, h.shows]
  live := by
    simp only [Place.mapM, h.live]
    rfl
  told := fun _ => rfl

/- An element of an array as a place. -/
theorem placeTale_element
    (h₁ : Reads s e₁ v₁)
    (h₂ : Reads s e₂ v₂) :
    PlaceTale s (.element (shown e₁.ty v₁) (shown e₂.ty v₂))
      (.element (reporting e₁) (reporting e₂))
      (.element ⟨reporting e₁, v₁⟩ ⟨reporting e₂, v₂⟩) where
  shows := by simp [Place.operands, h₁.shows, h₂.shows]
  live := by
    simp only [Place.mapM, h₁.live, h₂.live]
    rfl
  told := fun _ => rfl

------------------------------------------------------------
-- Operations
------------------------------------------------------------

/- A read of a place. -/
theorem tale_read
    (hPlace : PlaceTale s place spliced live)
    (h : Reads s e v) :
    Tale s (.operation (.read place (shown e.ty v)))
      (.operation (.read spliced (reporting e))) := by
  refine ⟨rfl, ?_, .operation (.read live ⟨reporting e, v⟩),
    ?_, ?_⟩
  · intro o ho
    simp only [Probe.operands, Operation.operands,
      List.mem_append, List.mem_singleton] at ho
    rcases ho with ho | rfl
    · exact hPlace.shows o ho
    · exact h.shows
  · simp only [Probe.mapM, Operation.mapM, hPlace.live, h.live]
    rfl
  · intro f
    simp only [Action.mapM, Operation.mapM, hPlace.told f]
    rfl

/- An assignment to a place. -/
theorem tale_assign
    (hPlace : PlaceTale s place spliced live)
    (h : Reads s e v) :
    Tale s (.operation (.assign place (shown e.ty v)))
      (.operation (.assign spliced (reporting e))) := by
  refine ⟨rfl, ?_, .operation (.assign live ⟨reporting e, v⟩),
    ?_, ?_⟩
  · intro o ho
    simp only [Probe.operands, Operation.operands,
      List.mem_append, List.mem_singleton] at ho
    rcases ho with ho | rfl
    · exact hPlace.shows o ho
    · exact h.shows
  · simp only [Probe.mapM, Operation.mapM, hPlace.live, h.live]
    rfl
  · intro f
    simp only [Action.mapM, Operation.mapM, hPlace.told f]
    rfl

/- A compound assignment to a place. -/
theorem tale_compoundAssign
    (hPlace : PlaceTale s place spliced live)
    (h₁ : Reads s e₁ v₁)
    (h₂ : Reads s e₂ v₂)
    (h₃ : Reads s e₃ v₃)
    (op : String) :
    Tale s
      (.operation (.compoundAssign place op (shown e₁.ty v₁)
        (shown e₂.ty v₂) (shown e₃.ty v₃)))
      (.operation (.compoundAssign spliced op (reporting e₁)
        (reporting e₂) (reporting e₃))) := by
  refine ⟨rfl, ?_,
    .operation (.compoundAssign live op ⟨reporting e₁, v₁⟩
      ⟨reporting e₂, v₂⟩ ⟨reporting e₃, v₃⟩), ?_, ?_⟩
  · intro o ho
    simp only [Probe.operands, Operation.operands,
      List.mem_append, List.mem_cons, List.not_mem_nil, or_false]
      at ho
    rcases ho with ho | rfl | rfl | rfl
    · exact hPlace.shows o ho
    · exact h₁.shows
    · exact h₂.shows
    · exact h₃.shows
  · simp only [Probe.mapM, Operation.mapM, hPlace.live, h₁.live,
      h₂.live, h₃.live]
    rfl
  · intro f
    simp only [Action.mapM, Operation.mapM, hPlace.told f]
    rfl

/- A step of a place. -/
theorem tale_incDec
    (hPlace : PlaceTale s place spliced live)
    (h₁ : Reads s e₁ v₁)
    (h₂ : Reads s e₂ v₂)
    (h₃ : Reads s e₃ v₃)
    (op : String) :
    Tale s
      (.operation (.incDec place op (shown e₁.ty v₁)
        (shown e₂.ty v₂) (shown e₃.ty v₃)))
      (.operation (.incDec spliced op (reporting e₁)
        (reporting e₂) (reporting e₃))) := by
  refine ⟨rfl, ?_,
    .operation (.incDec live op ⟨reporting e₁, v₁⟩
      ⟨reporting e₂, v₂⟩ ⟨reporting e₃, v₃⟩), ?_, ?_⟩
  · intro o ho
    simp only [Probe.operands, Operation.operands,
      List.mem_append, List.mem_cons, List.not_mem_nil, or_false]
      at ho
    rcases ho with ho | rfl | rfl | rfl
    · exact hPlace.shows o ho
    · exact h₁.shows
    · exact h₂.shows
    · exact h₃.shows
  · simp only [Probe.mapM, Operation.mapM, hPlace.live, h₁.live,
      h₂.live, h₃.live]
    rfl
  · intro f
    simp only [Action.mapM, Operation.mapM, hPlace.told f]
    rfl

/- A unary operator. -/
theorem tale_unary
    (h₁ : Reads s e₁ v₁)
    (h₂ : Reads s e₂ v₂)
    (op : String) :
    Tale s
      (.operation (.unary op (shown e₁.ty v₁) (shown e₂.ty v₂)))
      (.operation (.unary op (reporting e₁) (reporting e₂))) := by
  refine ⟨rfl, ?_,
    .operation (.unary op ⟨reporting e₁, v₁⟩ ⟨reporting e₂, v₂⟩),
    ?_, fun _ => rfl⟩
  · simp [Probe.operands, Operation.operands, h₁.shows,
      h₂.shows]
  · simp only [Probe.mapM, Operation.mapM, h₁.live, h₂.live]
    rfl

/- A binary operator that evaluates both operands. -/
theorem tale_binary
    (h₁ : Reads s e₁ v₁)
    (h₂ : Reads s e₂ v₂)
    (h₃ : Reads s e₃ v₃)
    (op : String) :
    Tale s
      (.binary op (shown e₁.ty v₁) (some (shown e₂.ty v₂))
        (shown e₃.ty v₃))
      (.binary op (reporting e₁) (reporting e₂) (reporting e₃)
        none) := by
  refine ⟨rfl, ?_,
    .binary op ⟨reporting e₁, v₁⟩ (some ⟨reporting e₂, v₂⟩)
      ⟨reporting e₃, v₃⟩, ?_, fun _ => rfl⟩
  · simp [Probe.operands, h₁.shows, h₂.shows, h₃.shows]
  · simp only [Probe.mapM, h₁.live, h₂.live, h₃.live]
    rfl

/- A short-circuit operator, which may skip an operand. -/
theorem tale_shortCircuit
    {b : Bool}
    (h₁ : Reads s e₁ v₁)
    (h₂ : Reads s e₂ v₂)
    (h₃ : Reads s e₃ (.bool b))
    (op : String) :
    Tale s
      (.binary op (shown e₁.ty v₁)
        (if b then none else some (shown e₂.ty v₂))
        (shown e₂.ty v₂))
      (.binary op (reporting e₁) (reporting e₂) (reporting e₂)
        (some (reporting e₃))) := by
  refine ⟨rfl, ?_,
    .binary op ⟨reporting e₁, v₁⟩
      (if b then none else some ⟨reporting e₂, v₂⟩)
      ⟨reporting e₂, v₂⟩, ?_, ?_⟩
  · simp [Probe.operands, h₁.shows, h₂.shows, h₃.shows]
  · simp only [Probe.mapM, h₁.live, h₂.live, optionMapM, h₃.live]
    rfl
  · intro f
    cases b <;> rfl

/- A test for a type. -/
theorem tale_typeTest
    {b : Bool}
    (h₁ : Reads s e₁ v₁)
    (h₂ : Reads s e₂ (.bool b))
    (type : String) :
    Tale s (.typeTest (shown e₁.ty v₁) type b)
      (.typeTest (reporting e₁) type (reporting e₂)) := by
  refine ⟨rfl, ?_, .typeTest ⟨reporting e₁, v₁⟩ type b, ?_,
    fun _ => rfl⟩
  · simp [Probe.operands, h₁.shows, h₂.shows]
  · simp only [Probe.mapM, h₁.live, h₂.live]
    rfl

/- A cast that may be possible. -/
theorem tale_castAttempt
    {b : Bool}
    (h₁ : Reads s e₁ v₁)
    (h₂ : Reads s e₂ (.bool b))
    (type : String) :
    Tale s (.castAttempt (shown e₁.ty v₁) type b)
      (.castAttempt (reporting e₁) type (reporting e₂)) := by
  refine ⟨rfl, ?_, .castAttempt ⟨reporting e₁, v₁⟩ type b, ?_,
    fun _ => rfl⟩
  · simp [Probe.operands, h₁.shows, h₂.shows]
  · simp only [Probe.mapM, h₁.live, h₂.live]
    rfl

/- The selector of a switch expression. -/
theorem tale_selector
    (h : Reads s e v) :
    Tale s (.operation (.switch (shown e.ty v)))
      (.operation (.switch (reporting e))) := by
  refine ⟨rfl, ?_, .operation (.switch ⟨reporting e, v⟩), ?_,
    fun _ => rfl⟩
  · simp [Probe.operands, Operation.operands, h.shows]
  · simp only [Probe.mapM, Operation.mapM, h.live]
    rfl

/- The condition of a conditional. -/
theorem tale_ternary
    (h : Reads s e v) :
    Tale s (.operation (.ternaryCondition (shown e.ty v)))
      (.operation (.ternaryCondition (reporting e))) := by
  refine ⟨rfl, ?_,
    .operation (.ternaryCondition ⟨reporting e, v⟩), ?_,
    fun _ => rfl⟩
  · simp [Probe.operands, Operation.operands, h.shows]
  · simp only [Probe.mapM, Operation.mapM, h.live]
    rfl

------------------------------------------------------------
-- Calls
------------------------------------------------------------

/- Several hidden variables are read. -/
theorem live_all
    {es : List Expr}
    {vs : List Val}
    (h : List.Forall₂ (Reads s) es vs) :
    (∀ o ∈ es.map reporting, s.shows o = true) ∧
      ∃ bs : List Live,
        (es.map reporting).mapM (m := Id) s.live = bs ∧
          ∀ f : Shown → Run Snapshot,
            (shownAll es vs).mapM f
              = bs.mapM fun l => f ⟨l.operand.kind, l.value⟩ := by
  induction h with
  | nil => exact ⟨nofun, [], rfl, fun _ => rfl⟩
  | @cons e v es vs hFirst _ ih =>
    rcases ih with ⟨hShows, bs, hLive, hTold⟩
    refine ⟨?_, ⟨reporting e, v⟩ :: bs, ?_, ?_⟩
    · intro o ho
      rcases List.mem_cons.mp ho with rfl | ho
      · exact hFirst.shows
      · exact hShows o ho
    · rw [List.map_cons, List.mapM_cons, hLive, hFirst.live]
      rfl
    · intro f
      have hSplit : shownAll (e :: es) (v :: vs)
          = shown e.ty v :: shownAll es vs := rfl
      rw [hSplit, List.mapM_cons, List.mapM_cons, hTold f]
      rfl

/- A call of a method of a class. -/
theorem tale_callStatic
    {es : List Expr}
    {vs : List Val}
    (h : List.Forall₂ (Reads s) es vs)
    (callee : Callee) :
    Tale s (.call callee none (shownAll es vs))
      (.call callee none (es.map reporting)) := by
  rcases live_all h with ⟨hShows, bs, hLive, hTold⟩
  refine ⟨rfl, ?_, .call callee none bs, ?_, ?_⟩
  · simpa [Probe.operands] using hShows
  · simp only [Probe.mapM, hLive]
    rfl
  · intro f
    simp only [Action.mapM, hTold f]
    rfl

/- A call of a method of an object. -/
theorem tale_callOn
    {es : List Expr}
    {vs : List Val}
    (hOne : Reads s e v)
    (h : List.Forall₂ (Reads s) es vs)
    (callee : Callee) :
    Tale s (.call callee (some (shown e.ty v)) (shownAll es vs))
      (.call callee (some (reporting e)) (es.map reporting)) := by
  rcases live_all h with ⟨hShows, bs, hLive, hTold⟩
  refine ⟨rfl, ?_, .call callee (some ⟨reporting e, v⟩) bs,
    ?_, ?_⟩
  · intro o ho
    rcases List.mem_cons.mp ho with rfl | ho
    · exact hOne.shows
    · exact hShows o ho
  · simp only [Probe.mapM, hLive, optionMapM, hOne.live]
    rfl
  · intro f
    simp only [Action.mapM, hTold f]
    rfl

/- A call that returned a value. -/
theorem tale_returned
    (h : Reads s e v)
    (cls method : String) :
    Tale s (.resume () cls method (.returned (shown e.ty v)))
      (.resume cls method (.returned (reporting e))) := by
  refine ⟨rfl, ?_,
    .resume () cls method (.returned ⟨reporting e, v⟩), ?_,
    fun _ => rfl⟩
  · simp [Probe.operands, Resumption.operands, h.shows]
  · simp only [Probe.mapM, Resumption.mapM, h.live]
    rfl

/- A call that was aborted. -/
theorem tale_aborted
    (h : Reads s e v)
    (cls method : String) :
    Tale s (.resume () cls method (.aborted (shown e.ty v)))
      (.resume cls method (.aborted (reporting e))) := by
  refine ⟨rfl, ?_,
    .resume () cls method (.aborted ⟨reporting e, v⟩), ?_,
    fun _ => rfl⟩
  · simp [Probe.operands, Resumption.operands, h.shows]
  · simp only [Probe.mapM, Resumption.mapM, h.live]
    rfl

------------------------------------------------------------
-- Ends of Methods
------------------------------------------------------------

/- A return without a value. -/
theorem exitTale_nothing :
    ExitTale s (.explicit none) (.explicit none) where
  shows := nofun
  told := fun _ => rfl

/- The end of a body. -/
theorem exitTale_endOfBody :
    ExitTale s .endOfBody .endOfBody where
  shows := nofun
  told := fun _ => rfl

/- A return with a value. -/
theorem exitTale_value
    (h : Reads s e v) :
    ExitTale s (.explicit (some (shown e.ty v)))
      (.explicit (some (reporting e))) where
  shows := by simp [Exit.operands, h.shows]
  told := by
    simp only [Exit.mapM, optionMapM, h.live]
    exact fun _ => rfl

/- An exception that leaves a method. -/
theorem exitTale_thrown
    (h : Reads s e v) :
    ExitTale s (.exceptional (shown e.ty v))
      (.exceptional (reporting e)) where
  shows := by simp [Exit.operands, h.shows]
  told := by
    simp only [Exit.mapM, h.live]
    exact fun _ => rfl

------------------------------------------------------------
-- Statements
------------------------------------------------------------

/- A statement that mentions no value. -/
theorem tale_bare
    {a : Statement Shown}
    {P : Statement Operand}
    {b : Statement Live}
    (hOperands : P.operands = [])
    (hLive : ∀ f : Operand → Live, P.mapM (m := Id) f = b)
    (hTold : ∀ f : Shown → Run Snapshot,
      a.mapM f = b.mapM fun l => f ⟨l.operand.kind, l.value⟩) :
    Tale s (.statement a) (.statement P) := by
  refine ⟨rfl, ?_, .statement b, ?_, ?_⟩
  · simp [Probe.operands, hOperands]
  · simp only [Probe.mapM, hLive s.live]
    rfl
  · intro f
    simp only [Action.mapM, hTold f]

/- An operation that mentions no value. -/
theorem tale_bareOperation
    {a : Operation Shown}
    {P : Operation Operand}
    {b : Operation Live}
    (hOperands : P.operands = [])
    (hLive : ∀ f : Operand → Live, P.mapM (m := Id) f = b)
    (hTold : ∀ f : Shown → Run Snapshot,
      a.mapM f = b.mapM fun l => f ⟨l.operand.kind, l.value⟩) :
    Tale s (.operation a) (.operation P) := by
  refine ⟨rfl, ?_, .operation b, ?_, ?_⟩
  · simp [Probe.operands, hOperands]
  · simp only [Probe.mapM, hLive s.live]
    rfl
  · intro f
    simp only [Action.mapM, hTold f]

/- A statement that mentions one value. -/
theorem tale_statement
    (σ : {ω : Type} → ω → Statement ω)
    (h : Reads s e v)
    (hOperands : (σ (reporting e)).operands = [reporting e])
    (hMap : ∀ {α β : Type} {m : Type → Type} [Monad m]
      (f : α → m β) (a : α),
        (σ a).mapM f = do pure (σ (← f a))) :
    Tale s (.statement (σ (shown e.ty v)))
      (.statement (σ (reporting e))) := by
  refine ⟨rfl, ?_, .statement (σ ⟨reporting e, v⟩), ?_, ?_⟩
  · simp [Probe.operands, hOperands, h.shows]
  · simp only [Probe.mapM, hMap, h.live]
    rfl
  · intro f
    simp only [Action.mapM, hMap]
    rfl

end Tales

------------------------------------------------------------
-- Telling
------------------------------------------------------------

section Telling

variable {S : Slack}
variable {w : Observer}
variable {X : Splice}
variable {p q : Program}
variable {n j k : Nat}
variable {s : Shape}
variable {α β : Type}
variable {post : α → β → Machine → Machine → Prop}
variable {f : Unit → Run α}
variable {ss : List Stmt}
variable {next : Run β}
variable {other : Flow → Run β}

/- A tale about a state stands for a probe in front of code. -/
theorem Attuned.sayFrom
    (h : Attuned S X w p q n)
    (hk : Spare S n (j + 3) k)
    (hj : j + 2 < 8)
    {pre : Machine → Machine → Prop}
    {act : Machine → Action Unit Shown}
    {P : Probe Operand}
    (hPre : ∀ m m', pre m m' → Linked Joint.level s m m')
    (hTale : ∀ m m', pre m m' →
      X.sound (act m) = true ∧ Tale s (act m) P)
    (hPlain : P.isPlain = true)
    (span : Span)
    (hRest : Mirrors S s post (f ())
      (andThen (ExecTrace.exec w q k) ss next other)) :
    Sim S pre post (levelCut s)
      (X.teller.tell p (X.teller.invoke p n) n span act >>= f)
      (andThen (ExecTrace.exec w q k) (probeAt P span :: ss) next
        other) := by
  refine h.tell hk hj hPre hPlain ?_ span hRest
  intro k hk m m' hm
  rcases hTale m m' hm with
    ⟨hSound, _, hShows, b, hAction, hTells⟩
  refine ⟨hSound, P.mapM (m := Id) s.live, b, ?_, ?_, hTells⟩
  · exact Probe.gives_mapM P fun c hc =>
      gives_live h.follows hk (hPre m m' hm) (hShows c hc)
  · rw [hAction]
    rfl

/- A sound tale stands for a probe in front of other code. -/
theorem Attuned.saySound
    (h : Attuned S X w p q n)
    (hk : Spare S n (j + 3) k)
    (hj : j + 2 < 8)
    {a : Action Unit Shown}
    {P : Probe Operand}
    (hSound : X.sound a = true)
    (hTale : Tale s a P)
    (span : Span)
    (hRest : Mirrors S s post (f ())
      (andThen (ExecTrace.exec w q k) ss next other)) :
    Mirrors S s post
      (X.teller.say p (X.teller.runner p n) n span a >>= f)
      (andThen (ExecTrace.exec w q k) (probeAt P span :: ss) next
        other) :=
  h.sayFrom hk hj (fun _ _ hm => hm)
    (fun _ _ _ => ⟨hSound, hTale⟩) hTale.1 span hRest

/- A tale of no operator stands for a probe. -/
theorem Attuned.say
    (h : Attuned S X w p q n)
    (hk : Spare S n (j + 3) k)
    (hj : j + 2 < 8)
    {a : Action Unit Shown}
    {P : Probe Operand}
    (hPlain : a.ofOperator = false)
    (hTale : Tale s a P)
    (span : Span)
    (hRest : Mirrors S s post (f ())
      (andThen (ExecTrace.exec w q k) ss next other)) :
    Mirrors S s post
      (X.teller.say p (X.teller.runner p n) n span a >>= f)
      (andThen (ExecTrace.exec w q k) (probeAt P span :: ss) next
        other) :=
  h.saySound hk hj (h.fair.plain a hPlain) hTale span hRest

/- The end of a method is told where a probe stands. -/
theorem Attuned.leave
    (h : Attuned S X w p q n)
    (hk : Spare S n (j + 3) k)
    (hj : j + 2 < 8)
    {how : Exit Shown}
    {how' : Exit Operand}
    (hTale : ExitTale s how how')
    (span : Span)
    (method : String)
    (hRest : Mirrors S s post (f ())
      (andThen (ExecTrace.exec w q k) ss next other)) :
    Mirrors S s post
      (X.teller.leave p (X.teller.runner p n) n span method how
        >>= f)
      (andThen (ExecTrace.exec w q k)
        (probeAt (.exit method how') span :: ss) next other) := by
  rw [andThen_cons]
  refine Sim.execRight_bind hk fun k' hk' => ?_
  have hWatch : Mirrors S s
      (fun _ _ m m' => Linked Joint.level s m m')
      (watch X.observer (.leaving method))
      (watch w (.leaving method)) :=
    sim_watch (h.follows.watches h.halts rfl fun _ => rfl)
      (fun _ _ _ => trivial) s
  have hSee : ∀ m m', Linked Joint.level s m m' →
      X.sound (.exit () method how) = true ∧ ∃ live b,
        Gives S m' ((Probe.exit method how').mapM
          (readLive (ExecTrace.eval w q k'))) live ∧
          live.toAction m' = (.ok b, m') ∧
            Tells (.exit () method how) b := by
    intro m m' hm
    refine ⟨h.fair.plain _ rfl,
      (Probe.exit method how').mapM (m := Id) s.live,
      .exit () method (how'.mapM (m := Id) s.live), ?_, rfl, ?_⟩
    · exact Probe.gives_mapM _ fun c hc =>
        gives_live h.follows hk' hm (hTale.shows c hc)
    · intro f
      simp only [Action.mapM, hTale.told f]
  have hReport := sim_report h.follows h.sharp h.halts h.paired
    (h.invoke k' (hk'.enough hj)) (hk'.enough hj).paced trivial
    (fun _ _ hm => hm) hSee span
  change Mirrors S s post
    ((do
      watch X.observer (.leaving method)
      X.teller.tell p (X.teller.invoke p n) n span
        fun _ => .exit () method how) >>= _)
    ((do
      watch w (.leaving method)
      report w q (ExecTrace.eval w q k') (ExecTrace.invoke w q k')
        k' (.exit method how') span
      pure ()
      pure Flow.normal) >>= _)
  simp only [report_plain (P := .exit method how') rfl, pure_bind,
    bind_assoc]
  refine hWatch.bind fun _ _ => ?_
  exact hReport.bind fun _ _ => hRest

end Telling

end ExecTrace
