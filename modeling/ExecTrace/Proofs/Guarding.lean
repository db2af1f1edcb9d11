import ExecTrace.Proofs.Mirroring
import ExecTrace.Proofs.Phases

/-
  Calls under guard. An observer guards a run: it stops it before
  a value is captured as something that it is not, before a
  method ends that has not started to report, and at the end of a
  body that has to return a value and does not. A run of a method
  then stays in its phase, but for the innermost call, which has
  started an activation and knows how it ended.

  Main declarations:
    * `Observer.guarding` and `Splice.guarded`
    * `Expects`, `Moves` and `Moved`
    * `Invokes`
    * `obeys_textOf`, `obeys_onClass`, `obeys_onObject`
    * `obeys_construct`, `obeys_superCall`
-/

namespace ExecTrace

open Run
open Instrument (Options)

------------------------------------------------------------
-- Guards
------------------------------------------------------------

/- Whether a value can be captured as a value of a kind. -/
def Kind.fits
    (kind : Kind)
    (v : Val) : Bool :=
  match kind.scalarTy?, v with
  | some _, .scalar _ => true
  | some _, _ => false
  | none, .void => false
  | none, _ => true

/- Why a run stops before a value is captured as another kind. -/
def unfitting : String := "unfitting"

/- Why a run stops at the end of a method that reported nothing. -/
def premature : String := "premature"

/-
  The observer that stops a run before a value is captured that
  is not one of its kind, at a return from a method that has not
  started to report, and at the end of a body that has to return
  a value and does not.
-/
def Observer.guarding : Observer
  | .captured kind v, _ =>
    if kind.fits v then none else some unfitting
  | .leaving _, m =>
    if m.frames.head?.any Frame.instrumented then none
    else some premature
  | .ended d, _ => if d.ret = .void then none else some noValue
  | _, _ => none

/- The observer depends on frames only. -/
theorem Observer.coarse_guarding : Observer.guarding.Coarse where
  loaded := fun _ _ _ => rfl
  locals := fun x m l => by cases x <;> rfl
  ended := fun d d' _ h => by
    simp only [Observer.guarding, h.ret]

/-
  Runs whose observer guards them: it stops wherever the guarding
  observer does, and perhaps elsewhere.
-/
class Splice.Guards (X : Splice) : Prop where
  sound : ∀ a, X.sound a = true
  coarse : X.observer.Coarse
  values : ∀ e v m, X.observer (.value e v) m = none
  recorded : ∀ m, X.observer .recorded m = none
  captured : ∀ kind v m, X.observer (.captured kind v) m = none →
    kind.fits v = true
  leaving : ∀ name m, X.observer (.leaving name) m = none →
    m.frames.head?.any Frame.instrumented = true
  ended : ∀ d m, X.observer (.ended d) m = none → d.ret = .void

/- A run that is guarded. -/
def Splice.guarded
    (o : Options)
    (exclusions : List Pattern) : Splice :=
  ⟨o, exclusions, .guarding, fun _ => true⟩

/- The guarding observer guards a run. -/
instance
    {o : Options}
    {exclusions : List Pattern} :
    (Splice.guarded o exclusions).Guards where
  sound := fun _ => rfl
  coarse := Observer.coarse_guarding
  values := fun _ _ _ => rfl
  recorded := fun _ => rfl
  captured := fun kind v m h => by
    by_contra hFits
    simp [Splice.guarded, Observer.guarding, hFits] at h
  leaving := fun name m h => by
    by_contra hBare
    simp [Splice.guarded, Observer.guarding, hBare] at h
  ended := fun d m h => by
    by_contra hValue
    simp [Splice.guarded, Observer.guarding, hValue] at h

------------------------------------------------------------
-- What Calls Do to a Phase
------------------------------------------------------------

/-
  Whether an activation that is started under some frames is a
  call's own.
-/
def owned (frames : List Frame) : Bool :=
  owns (enclosingFrames (⟨"", "", false⟩ :: frames))

/- The frame of a conversion to text. -/
def textFrame (via : String) : Frame :=
  ⟨Call.runtimeFrame, via, false⟩

/- Whether the innermost frame has no probes that have reported. -/
def bare (frames : List Frame) : Bool :=
  frames.head?.any fun f => !f.instrumented

/- A guarded run does not return in front of the start. -/
theorem Splice.Guards.not_bare
    {X : Splice}
    [X.Guards]
    {name : String}
    {m : Machine}
    (h : X.observer (.leaving name) m = none) :
    bare m.frames = false := by
  have hTold := Splice.Guards.leaving name m h
  unfold bare
  cases hFrames : m.frames with
  | nil => rfl
  | cons f rest => simpa [hFrames] using hTold

section Owned

variable {f : Frame}
variable {frames : List Frame}

/- Whether an activation is a call's own is read off its event. -/
theorem owns_enclosing :
    owns (enclosingFrames (f :: frames)) = owned frames :=
  rfl

/- No frames are told of an activation that is started directly. -/
theorem enclosing_eq_nil :
    enclosingFrames (f :: frames) = [] ↔ bare frames = false := by
  unfold enclosingFrames bare
  cases frames with
  | nil => simp
  | cons g rest => cases hTold : g.instrumented <;> simp [hTold]

/- An activation under one more frame is owned under fewer. -/
theorem owned_of_cons
    (hBare : f.instrumented = false)
    (h : owned (f :: frames) = true) : owned frames = true := by
  unfold owned owns enclosingFrames at h ⊢
  simp only [List.drop_succ_cons, List.drop_zero, hBare,
    Bool.not_false, List.takeWhile_cons_of_pos, List.reverse_cons,
    List.map_append, Bool.not_eq_true', List.any_eq_false] at h ⊢
  intro x hx
  refine h x ?_
  cases hRest : (frames.takeWhile fun f => !f.instrumented).reverse
      with
  | nil => rw [hRest] at hx; cases hx
  | cons g rest =>
    rw [hRest] at hx
    simp only [List.map_cons, List.drop_succ_cons, List.drop_zero,
      List.cons_append] at hx ⊢
    exact List.mem_append_left _ hx

/- Nothing is owned behind a conversion in front of a method. -/
theorem not_owned_textFrame
    (hBare : bare frames = true)
    (via : String) : owned (textFrame via :: frames) = false := by
  cases frames with
  | nil => cases hBare
  | cons f frames => ?_
  have hBare : f.instrumented = false := by
    simpa [bare] using hBare
  unfold owned owns enclosingFrames textFrame
  simp only [List.drop_succ_cons, List.drop_zero, hBare,
    Bool.not_false, List.takeWhile_cons_of_pos, List.reverse_cons,
    List.map_append, List.append_assoc, Bool.not_eq_false',
    List.any_eq_true]
  refine ⟨⟨Call.runtimeFrame, via, none, none⟩, ?_, by simp⟩
  cases (frames.takeWhile fun f => !f.instrumented).reverse <;>
    simp

end Owned

variable {K : Rules}

/- Nothing was run by the innermost call. -/
def Tape.Idle (t : Tape) : Prop :=
  ∀ tiers, t = .running tiers →
    ∀ tier ∈ tiers.head?, tier.role.child = .none

/-
  A phase in which a method of some name may be run with some
  arguments: it is what the innermost call asks for, unless code
  that reports nothing runs it.
-/
structure Expects
    (K : Rules)
    (method : String)
    (n : Nat)
    (g : Phase) : Prop where
  deep : g.tape.Deep K
  idle : g.tape.Idle
  direct : bare g.frames = false →
    ∀ frame callee args direct child rest,
      g.tape = .running
        (⟨frame, .call callee args direct child⟩ :: rest) →
      direct = false ∧ callee.method = method ∧ args = n

/-
  What a run of a method makes of the recorder. Only the innermost
  call may have started an activation directly, which needs code
  that reports, and may have run an activation that it owns.
-/
inductive Moves
    (K : Rules)
    (frames : List Frame)
    (exception : Option Val)
    (h : Heap) : Tape → Tape → Prop where
  | same (t : Tape) : Moves K frames exception h t t
  | call
      {frame : OpenFrame}
      {callee : Callee}
      {args : Nat}
      {direct direct' : Bool}
      {child : Child}
      {rest : List Tier}
      (hDirect : bare frames = true → direct' = direct)
      (hChild : child = .none ∨ K.strict = true ∧
        owned frames = true ∧ child.Fits h exception) :
      Moves K frames exception h
        (.running (⟨frame, .call callee args direct .none⟩ :: rest))
        (.running (⟨frame, .call callee args direct' child⟩ :: rest))

/- A machine after a method was run under some frames. -/
def Moved
    (K : Rules)
    (frames : List Frame)
    (g : Phase)
    (exception : Option Val)
    (m : Machine) : Prop :=
  ∃ t, Moves K frames exception m.heap g.tape t ∧ At K (g.on t) m

/-
  A way to run methods that moves no further than it may, for all
  methods of the program.
-/
def Invokes
    (K : Rules)
    (i : Invoker) : Prop :=
  ∀ c m, K.program.Declares c m → ∀ self args g,
    Expects K m.name args.length g →
      Obeys (At K g) (i c m self args)
        (fun _ => Moved K g.frames g none)
        (fun v => Moved K g.frames g (some v)) (Lost K g)

section Moves

variable {g : Phase}
variable {f : Frame}
variable {frames : List Frame}
variable {exception : Option Val}
variable {h h' : Heap}
variable {s t : Tape}
variable {m : Machine}

namespace Moves

/- A move is one when the heap has grown. -/
theorem grown
    (hMoves : Moves K frames exception h s t)
    (hGrown : h.Extends h') : Moves K frames exception h' s t := by
  cases hMoves with
  | same => exact .same _
  | call hDirect hChild =>
    refine .call hDirect (hChild.imp_right fun ⟨hS, hO, hF⟩ => ?_)
    exact ⟨hS, hO, hF.grown hGrown⟩

/- A move behind one more frame is one without it. -/
theorem outer
    (hBare : f.instrumented = false)
    (hMoves : Moves K (f :: frames) exception h s t) :
    Moves K frames exception h s t := by
  cases hMoves with
  | same => exact .same _
  | call hDirect hChild =>
    refine .call (fun _ => hDirect (by simp [bare, hBare]))
      (hChild.imp_right fun ⟨hS, hO, hF⟩ => ?_)
    exact ⟨hS, owned_of_cons hBare hO, hF⟩

/- A recorder moves nowhere without a call that may be moved. -/
theorem eq
    (hMoves : Moves K frames exception h s t)
    (hBare : bare frames = true)
    (hNone : K.strict = true → owned frames = false) : t = s := by
  cases hMoves with
  | same => rfl
  | call hDirect hChild =>
    rcases hChild with rfl | ⟨hS, hO, _⟩
    · rw [hDirect hBare]
    · rw [hNone hS] at hO
      cases hO

/- The lowest frames stay open. -/
theorem deep
    (hMoves : Moves K frames exception h s t)
    (hDeep : s.Deep K) : t.Deep K := by
  cases hMoves with
  | same => exact hDeep
  | call =>
    rintro _ ⟨⟩
    have hOld := hDeep _ rfl
    exact hOld

/- What is spilt of a recorder is spilt of the earlier one. -/
theorem spilt
    {o : Option Recorder}
    (hMoves : Moves K frames exception h s t)
    (hSpilt : t.Spilt K o) : s.Spilt K o := by
  cases hMoves <;> exact hSpilt

end Moves

namespace Moved

/- A machine that stays in its phase is moved nowhere. -/
theorem of_at
    (hm : At K g m) : Moved K frames g exception m :=
  ⟨g.tape, .same _, hm⟩

/- A machine is in its phase if it cannot be moved. -/
theorem still
    (hm : Moved K frames g exception m)
    (hBare : bare frames = true)
    (hNone : K.strict = true → owned frames = false) :
    At K g m := by
  rcases hm with ⟨t, hMoves, hm⟩
  cases hMoves.eq hBare hNone
  exact hm

/- Variables play no role. -/
theorem blind : Blind (Moved K frames g exception) :=
  fun m l ⟨t, hMoves, hm⟩ => ⟨t, hMoves, At.blind m l hm⟩

/- A mild step moves nowhere else. -/
theorem mild
    {β : Type}
    {step : Machine → β × Machine}
    (hm : Moved K frames g exception m)
    (hStep : Machine.Mild step) :
    Moved K frames g exception (step m).2 := by
  rcases hm with ⟨t, hMoves, hm⟩
  exact ⟨t, hMoves.grown (hStep.heap m), hm.mild hStep⟩

/- A frame is left. -/
theorem pop
    (hm : Moved K frames (g.push f) exception m) :
    Moved K frames g exception { m with frames := m.frames.tail } := by
  rcases hm with ⟨t, hMoves, hm⟩
  exact ⟨t, hMoves, At.pop (g := g.on t) hm⟩

/- A move behind one more frame is one without it. -/
theorem outer
    (hBare : f.instrumented = false)
    (hm : Moved K (f :: frames) g exception m) :
    Moved K frames g exception m := by
  rcases hm with ⟨t, hMoves, hm⟩
  exact ⟨t, hMoves.outer hBare, hm⟩

end Moved

/- Behind one more frame nothing is asked of a method. -/
theorem Expects.push
    {method : String}
    {n : Nat}
    (hDeep : g.tape.Deep K)
    (hIdle : g.tape.Idle)
    (hBare : f.instrumented = false) :
    Expects K method n (g.push f) where
  deep := hDeep
  idle := hIdle
  direct := fun hTold => by simp [bare, Phase.push, hBare] at hTold

end Moves

------------------------------------------------------------
-- Calls
------------------------------------------------------------

section Calls

variable {i : Invoker}
variable {g : Phase}
variable {β : Type}
variable {x : Run β}

/- Runs that stay in every deep phase are a congruence. -/
theorem congruence_deep :
    Congruence (Stays K fun g => g.tape.Deep K) :=
  congruence_stays (fun _ h => h) fun _ h _ _ => h

/- A run that moves no further than a run of a method may. -/
def Ventures
    (K : Rules)
    (g : Phase)
    {β : Type}
    (x : Run β) : Prop :=
  Obeys (At K g) x (fun _ => Moved K g.frames g none)
    (fun v => Moved K g.frames g (some v)) (Lost K g)

/- A run that stays in its phase moves nowhere. -/
theorem Stays.ventures
    (hx : Stays K (fun g => g.tape.Deep K) β x x)
    (hDeep : g.tape.Deep K) : Ventures K g x :=
  (hx g hDeep).weaken (fun _ hm => hm) (fun _ _ hm => .of_at hm)
    (fun _ _ hm => .of_at hm) fun _ hm => hm

/- A value follows a run. -/
theorem Ventures.map
    {γ : Type}
    (hx : Ventures K g x)
    (c : β → γ) : Ventures K g (x >>= fun b => pure (c b)) :=
  Obeys.bind hx fun _ => .pure fun _ hm => hm

/- The text of a value; a method of an object may give it. -/
theorem obeys_textOf
    (hi : Invokes K i)
    (hDeep : g.tape.Deep K)
    (hIdle : g.tape.Idle)
    (via : String)
    (v : Val) :
    Obeys (At K g) (Call.textOf K.program i via v)
      (fun _ => Moved K (textFrame via :: g.frames) g none)
      (fun v => Moved K (textFrame via :: g.frames) g (some v))
      (Lost K g) := by
  have hPure : ∀ text : String, Obeys (At K g) (pure text)
      (fun _ => Moved K (textFrame via :: g.frames) g none)
      (fun v => Moved K (textFrame via :: g.frames) g (some v))
      (Lost K g) :=
    fun _ => .pure fun _ hm => .of_at hm
  refine Obeys.look fun m hm => ?_
  cases v with
  | obj a =>
    simp only
    cases hFind :
        K.program.findMethod? (m.heap.classOf a) "toString" 0 with
    | none => exact hPure _ m hm
    | some found =>
      rcases found with ⟨owner, method⟩
      simp only
      split
      · exact hPure _ m hm
      · have hRun := hi owner method
          (Program.declares_of_findMethod hFind) (some (.obj a)) []
          (g.push (textFrame via)) (.push hDeep hIdle rfl)
        have hText : Obeys (At K g) _ _ _ _ := hRun.inFrame _
          (fun _ hm => hm.push _) (fun _ _ hm => hm.pop)
          (fun _ _ hm => hm.pop) fun _ hm => hm.pop
        refine hText.bind (fun _ => ?_) m hm
        exact Obeys.look fun _ hm => .ok hm
  | _ => exact hPure _ m hm

/- The text of a value in code that a call runs. -/
theorem ventures_textOf
    (hi : Invokes K i)
    (hDeep : g.tape.Deep K)
    (hIdle : g.tape.Idle)
    (via : String)
    (v : Val) :
    Ventures K g (Call.textOf K.program i via v) :=
  (obeys_textOf hi hDeep hIdle via v).weaken (fun _ hm => hm)
    (fun _ _ hm => hm.outer rfl) (fun _ _ hm => hm.outer rfl)
    fun _ hm => hm

/- A text is printed. -/
theorem ventures_print
    (hi : Invokes K i)
    (hDeep : g.tape.Deep K)
    (hIdle : g.tape.Idle)
    (v : Val)
    (behind : String) :
    Ventures K g (Call.print K.program i v behind) := by
  refine Obeys.bind (ventures_textOf hi hDeep hIdle "print" v)
    fun text => ?_
  have hPrint : Machine.Mild
      fun m => ((), { m with output := m.output ++ (text ++ behind) }) :=
    .ofHeap (fun _ => rfl) (fun _ => rfl) (fun _ => rfl) fun _ => rfl
  exact Obeys.via (fun _ => Moved K g.frames g none)
    (fun m hm => .ok (hm.mild hPrint)) fun _ => .pure fun _ hm => hm

/- The static methods that need no declaration. -/
theorem ventures_builtinStatic
    (hi : Invokes K i)
    (hDeep : g.tape.Deep K)
    (hIdle : g.tape.Idle)
    {cls method : String}
    {args : List Val}
    {x : Run Val}
    (hx : Call.builtinStatic? K.program i cls method args = some x) :
    Ventures K g x := by
  unfold Call.builtinStatic? at hx
  split at hx
  · split at hx <;> cases hx
    · exact (congruence_deep.pure _).ventures hDeep
    · exact (congruence_deep.faultShowing _ _).ventures hDeep
  · cases hx
    exact (congruence_deep.extreme _ _ _ _).ventures hDeep
  · cases hx
    exact (congruence_deep.extreme _ _ _ _).ventures hDeep
  · cases hx
    exact (congruence_deep.bind (congruence_deep.write _) fun _ =>
      congruence_deep.pure _).ventures hDeep
  · cases hx
    exact ventures_print hi hDeep hIdle _ _
  · cases hx
    exact ventures_print hi hDeep hIdle _ _
  · cases hx
    exact (ventures_textOf hi hDeep hIdle _ _).map _
  · cases hx

/- The methods of a value that need no declaration. -/
theorem ventures_builtinInstance
    (hi : Invokes K i)
    (hDeep : g.tape.Deep K)
    (hIdle : g.tape.Idle)
    {receiver : Val}
    {method : String}
    {args : List Val}
    {x : Run Val}
    (hx : Call.builtinInstance? K.program i receiver method args
      = some x) :
    Ventures K g x := by
  have hAny : ∀ x,
      Call.anyMethod? K.program i receiver method args = some x →
        Ventures K g x := by
    intro x hx
    unfold Call.anyMethod? at hx
    split at hx
    · cases hx
      exact (ventures_textOf hi hDeep hIdle _ _).map _
    · cases hx
      refine (congruence_deep.look fun m => ?_).ventures hDeep
      split <;> exact congruence_deep.pure _
    · cases hx
      exact (congruence_deep.look fun _ =>
        congruence_deep.pure _).ventures hDeep
    · cases hx
      exact (congruence_deep.pure _).ventures hDeep
    · cases hx
  unfold Call.builtinInstance? at hx
  cases receiver with
  | str text =>
    have hString := congruence_deep (K := K).stringMethod?
      (p := K.program) text method args
    simp only at hx
    generalize Call.stringMethod? K.program text method args = y
      at hString hx
    cases hString with
    | none => exact hAny x hx
    | some hy =>
      cases hx
      exact Stays.ventures hy hDeep
  | _ => exact hAny x hx

/- A method that is found has the name and the arity. -/
theorem named_of_methodIn
    {name : String}
    {arity : Nat}
    {cs : List ClassDef}
    {c : ClassDef}
    {m : MethodDef}
    (h : Program.methodIn? name arity cs = some (c, m)) :
    m.name = name ∧ m.arity = arity := by
  have hFound := List.find?_some (Program.mem_of_methodIn h).2
  simpa using hFound

/- A call of a method of a class. -/
theorem ventures_onClass
    (hi : Invokes K i)
    (cls method : String)
    (args : List Val)
    (h : Expects K method args.length g) :
    Ventures K g (Call.onClass K.program i cls method args) := by
  have hBuiltin : Ventures K g
      ((Call.builtinStatic? K.program i cls method args).getD
        (fault (.noStaticMethod cls method args.length))) := by
    cases hx : Call.builtinStatic? K.program i cls method args with
    | none => exact (congruence_deep.fault _).ventures h.deep
    | some x => exact ventures_builtinStatic hi h.deep h.idle hx
  unfold Call.onClass
  cases hFind : K.program.findMethod? cls method args.length with
  | none => exact hBuiltin
  | some found =>
    simp only
    split
    · refine hi _ _ (Program.declares_of_findMethod hFind) _ _ g ?_
      rw [(named_of_methodIn hFind).1]
      exact h
    · exact hBuiltin

/- A call of a method of an object. -/
theorem ventures_onObject
    (hi : Invokes K i)
    (receiver : Val)
    (method : String)
    (args : List Val)
    (h : Expects K method args.length g) :
    Ventures K g
      (Call.onObject K.program i receiver method args) := by
  unfold Call.onObject
  split
  · exact (congruence_deep.raiseNull _).ventures h.deep
  · refine Obeys.look fun m hm => ?_
    have hBuiltin : Ventures K g
        ((Call.builtinInstance? K.program i receiver method
          args).getD (fault (.noMethod method args.length
            (m.heap.className receiver)))) := by
      cases hx : Call.builtinInstance? K.program i receiver method
          args with
      | none => exact (congruence_deep.fault _).ventures h.deep
      | some x => exact ventures_builtinInstance hi h.deep h.idle hx
    cases receiver with
    | obj a =>
      simp only
      cases hFind : K.program.findMethod? (m.heap.classOf a) method
          args.length with
      | none => exact hBuiltin m hm
      | some found =>
        simp only
        split
        · exact hBuiltin m hm
        · refine hi _ _ (Program.declares_of_findMethod hFind) _ _
            g ?_ m hm
          rw [(named_of_methodIn hFind).1]
          exact h
    | _ => exact hBuiltin m hm

/- The constructors above a class. -/
theorem ventures_implicitSuper
    (hi : Invokes K i)
    (cls : ClassDef)
    (self : Val)
    (h : Expects K constructorName 0 g) :
    Ventures K g (Call.implicitSuper K.program i cls self) := by
  unfold Call.implicitSuper
  simp only
  split
  · rename_i owner m hFind
    have hDeclared : K.program.Declares owner m :=
      Program.declares_of_methodIn
        (fun _ => Program.mem_of_lineageWithin _ _) hFind
    refine Ventures.map (hi owner m hDeclared (some self) [] g ?_) _
    rw [(named_of_methodIn hFind).1]
    exact h
  · exact (congruence_deep.pure _).ventures h.deep

/- A constructor of a class of the program. -/
theorem ventures_runConstructor
    (hi : Invokes K i)
    {cls : ClassDef}
    (hcls : cls ∈ K.program.classes)
    (name : String)
    (self : Val)
    (args : List Val)
    (h : Expects K constructorName args.length g) :
    Ventures K g
      (Call.runConstructor K.program i cls name self args) := by
  unfold Call.runConstructor
  split
  · rename_i m hMethod
    have hDeclared : K.program.Declares cls m :=
      ⟨hcls, List.mem_of_find?_eq_some hMethod⟩
    have hName : m.name = constructorName := by
      have hFound := List.find?_some hMethod
      simp only [Bool.and_eq_true, beq_iff_eq] at hFound
      exact hFound.1
    refine Ventures.map (hi cls m hDeclared (some self) args g ?_) _
    rw [hName]
    exact h
  · split
    · rename_i hEmpty
      rw [List.isEmpty_iff.mp hEmpty] at h
      exact ventures_implicitSuper hi cls self h
    · exact (congruence_deep.fault _).ventures h.deep

/- An object of a class. -/
theorem ventures_construct
    (hi : Invokes K i)
    (name : String)
    (args : List Val)
    (h : Expects K constructorName args.length g) :
    Ventures K g (Call.construct K.program i name args) := by
  unfold Call.construct
  split
  · rename_i cls hClass
    have hcls := List.mem_of_find?_eq_some hClass
    refine Obeys.via (fun _ => At K g)
      (((congruence_deep.allocate name) g h.deep).weaken
        (fun _ hm => hm) (fun _ _ hm => hm) (fun _ _ hm => .of_at hm)
        fun _ hm => hm) fun self => ?_
    exact Ventures.map
      (ventures_runConstructor hi hcls name self args h) _
  · split
    · exact (congruence_deep.exception _ _).ventures h.deep
    · exact (congruence_deep.fault _).ventures h.deep

/- The constructor that a constructor delegates to. -/
theorem ventures_superCall
    (hi : Invokes K i)
    (cls : String)
    (self : Val)
    (args : List Val)
    (h : Expects K constructorName args.length g) :
    Ventures K g (Call.superCall K.program i cls self args) := by
  unfold Call.superCall
  simp only
  split
  · rename_i c hClass
    exact ventures_runConstructor hi
      (List.mem_of_find?_eq_some hClass) _ _ _ h
  · split
    · exact (congruence_deep.reheap
        fun _ => .setField _ _ _).ventures h.deep
    · exact (congruence_deep.pure _).ventures h.deep

end Calls

end ExecTrace
