import ExecTrace.Machine.Location
import ExecTrace.Proofs.Linked
import ExecTrace.Proofs.Paired

/-
  The steps of a machine agree on linked machines: every
  primitive operation on variables, static fields, the heap and
  places gives one result on both sides and links the machines
  again. Exceptions that a run raises by itself are objects.

  Main declarations:
    * `yields_allocate`, `yields_exception`, `yields_raise`
    * `agrees_getLocal`, `agrees_setLocal`, `keeps_declareLocal`
    * `yields_locate`, `agrees_load`, `agrees_store`
-/

namespace ExecTrace

open Run

section Agreement

variable {S : Slack}
variable {B : Bond}
variable {M : Pairing}
variable {p q : Program}
variable {α : Type}
variable {P : α → Prop}

------------------------------------------------------------
-- Faults and Numbers
------------------------------------------------------------

/- Faults that show a value are faults. -/
theorem yields_faultShowing
    (c d : String → Fault)
    (v w : Val) :
    Yields S B P (faultShowing c v) (faultShowing d w) :=
  Yields.look fun _ _ _ _ _ => Yields.fault _ _

/- Faults that name a class are faults. -/
theorem yields_faultNaming
    (c d : String → Fault)
    (v w : Val) :
    Yields S B P (faultNaming c v) (faultNaming d w) :=
  Yields.look fun _ _ _ _ _ => Yields.fault _ _

/- Both sides hand out the same number. -/
theorem agrees_freshId :
    Agrees S B freshId freshId := by
  intro g s hs m n hm
  have hId := hm.world.nextId
  have hNext := hm.onState m.statics (m.nextId + 1) m.output
  unfold freshId
  rw [hId]
  refine .ok ⟨rfl, trivial, ?_⟩
  have hSame : { n with nextId := m.nextId + 1 } =
      { n with
        statics := m.statics, nextId := m.nextId + 1,
        output := m.output } := by
    rw [← hm.world.statics, ← hm.world.output]
  rw [hSame]
  exact hNext

/- A change that lets the heap grow is made on both sides. -/
theorem yields_onHeap
    {R : Val → Prop}
    {f : Heap → Heap × Val}
    (hGrows : ∀ h : Heap, h.Grows (f h).1)
    (hValue : ∀ h, R (f h).2) :
    Yields S B R (onHeap f) (onHeap f) := by
  intro g s hs m n hm
  have hHeap := hm.world.heap
  unfold onHeap
  rw [hHeap]
  exact .ok ⟨rfl, hValue _, hm.onHeap (hGrows m.heap)⟩

------------------------------------------------------------
-- Objects and Exceptions
------------------------------------------------------------

/- A new object is made on both sides. -/
theorem yields_allocate
    (hp : Paired M p q)
    (cls : String) :
    Yields S B (fun v => v ≠ .null) (allocate p cls)
      (allocate q cls) := by
  unfold allocate
  simp only [Paired.initialFields (hp.lineage cls),
    hp.isSubclass cls throwableClass]
  refine agrees_freshId.bind fun id _ => ?_
  refine yields_onHeap (fun h => h.grows_addObject _) ?_
  intro h hNull
  cases hNull

/- A new array is made on both sides. -/
theorem agrees_newArray
    (element : Ty)
    (items : List Val) :
    Agrees S B (newArray element items)
      (newArray element items) :=
  agrees_freshId.bind fun _ _ =>
    yields_onHeap (fun h => h.grows_addArray _) fun _ => trivial

/- A field is set on both sides. -/
theorem agrees_setField
    (a : Nat)
    (name : String)
    (v : Val) :
    Agrees S B
      (modify fun m =>
        { m with heap := m.heap.setField a name v } : Run Unit)
      (modify fun m =>
        { m with heap := m.heap.setField a name v } : Run Unit) := by
  refine Yields.modify fun _ s m n hm => ?_
  rw [hm.world.heap]
  exact hm.onHeap (m.heap.grows_setField a name v)

/- An item is set on both sides. -/
theorem agrees_setItem
    (a i : Nat)
    (v : Val) :
    Agrees S B
      (modify fun m =>
        { m with heap := m.heap.setItem a i v } : Run Unit)
      (modify fun m =>
        { m with heap := m.heap.setItem a i v } : Run Unit) := by
  refine Yields.modify fun _ s m n hm => ?_
  rw [hm.world.heap]
  exact hm.onHeap (m.heap.grows_setItem a i v)

/- A new exception is made on both sides, and it is no null. -/
theorem yields_exception
    (hp : Paired M p q)
    (cls : String)
    (message : Option String) :
    Yields S B (fun v => v ≠ .null) (exception p cls message)
      (exception q cls message) := by
  unfold exception
  refine (yields_allocate hp cls).bind fun e he => ?_
  cases e with
  | obj a =>
    cases message with
    | none => exact Yields.pure he
    | some text =>
      refine (agrees_setField a "message" (.str text)).bind
        fun _ _ => ?_
      exact Yields.pure he
  | _ => exact Yields.pure he

/- A new exception is thrown on both sides. -/
theorem yields_raise
    (hp : Paired M p q)
    (cls message : String) :
    Yields S B P (raise p cls message) (raise q cls message) :=
  (yields_exception hp cls (some message)).bind fun e he =>
    Yields.throw e he

/- The exception for null is thrown on both sides. -/
theorem yields_raiseNull
    (hp : Paired M p q)
    (action : String) :
    Yields S B P (raiseNull p action) (raiseNull q action) :=
  yields_raise hp _ _

/- An operator fails in one way on both sides. -/
theorem yields_operatorError
    (hp : Paired M p q)
    (e : OperatorError) :
    Yields S B P (operatorError p e) (operatorError q e) := by
  refine Yields.look fun _ _ m n hm => ?_
  rw [hm.world.heap]
  cases e.unsupported? m.heap with
  | none => exact yields_raise hp _ _
  | some what => exact Yields.fault _ _

/- The result of an operator, if there is one. -/
theorem yields_ofOperator
    (hp : Paired M p q)
    (result : Except OperatorError Val) :
    Yields S B (fun v => result = .ok v) (ofOperator p result)
      (ofOperator q result) := by
  cases result with
  | ok v => exact Yields.pure rfl
  | error e => exact yields_operatorError hp e

/- An operator gives one result on both sides. -/
theorem agrees_ofOperator
    (hp : Paired M p q)
    (result : Except OperatorError Val) :
    Agrees S B (ofOperator p result) (ofOperator q result) :=
  (yields_ofOperator hp result).agrees

------------------------------------------------------------
-- Variables and Static Fields
------------------------------------------------------------

/-
  The first of some layers begins with a scope on each side, and
  may be exchanged for another layer.
-/
theorem Layered.head
    {depth : Nat}
    {shadow : Shadow}
    {b : Bindings String}
    {shadows : List Shadow}
    {ls rs : List (Bindings String)}
    (h : Layered depth ((b :: shadow) :: shadows) ls rs) :
    ∃ l ls' r layer ground rs', ls = l :: ls' ∧
      rs = (r :: layer) ++ rs' ∧
      Layer (b :: shadow) l (r :: layer) ground ∧
      ∀ shadow' l' layer', Layer shadow' l' layer' ground →
        Layered depth (shadow' :: shadows) (l' :: ls')
          (layer' ++ rs') := by
  rcases h.front with
    ⟨l, ls', layer, ground, rs', hLeft, hRight, hLayer, hRest⟩
  cases layer with
  | nil =>
    have hShadow := hLayer.shadow
    simp at hShadow
  | cons r layer =>
    exact ⟨l, ls', r, layer, ground, rs', hLeft, hRight, hLayer,
      hRest⟩

/- A visible variable is declared on both sides. -/
theorem keeps_declareLocal
    (x : String)
    (v : Val)
    (hx : hidden x = false) :
    Keeps S B none (fun _ => none) (declareLocal x v)
      (declareLocal x v) := by
  intro g s _ hOuter m n ⟨top, hm⟩
  rcases hm.locals.scopes.head with
    ⟨l, ls, r, layer, _, rs, hLeft, hRight, hLayer, hRest⟩
  have hSingle : layer = [] := by
    have hShadow := hLayer.shadow
    rw [hOuter, List.map_cons, List.cons.injEq] at hShadow
    exact List.map_eq_nil_iff.mp hShadow.2
  subst hSingle
  refine .ok ⟨rfl, top, hm.world.locals _ _, ?_⟩
  change Matched _ (m.locals.declare x v) (n.locals.declare x v)
  unfold Locals.declare
  rw [hLeft, hRight]
  exact ⟨hm.locals.self, hm.locals.cls, hm.locals.retLeft,
    hm.locals.retRight, hRest _ _ _ (hLayer.declare hx)⟩

/- A visible variable has one value on both sides. -/
theorem agrees_getLocal
    (x : String)
    (hx : hidden x = false) :
    Agrees S B (getLocal x) (getLocal x) := by
  refine Yields.look fun _ _ m n hm => ?_
  have hSame : n.locals.get? x = m.locals.get? x :=
    hm.locals.scopes.get_visible hx
  rw [hSame]
  cases m.locals.get? x with
  | some v => exact Yields.pure trivial
  | none => exact Yields.fault _ _

/- A visible variable is set on both sides. -/
theorem agrees_setLocal
    (x : String)
    (v : Val)
    (hx : hidden x = false) :
    Agrees S B (setLocal x v) (setLocal x v) := by
  intro g s hs m n hm
  have hSet := hm.locals.scopes.set_visible (v := v) hx
  unfold setLocal
  rw [get_bind_apply, get_bind_apply]
  unfold Locals.set?
  rcases hSet with ⟨hl, hr⟩ | ⟨ls, rs, hl, hr, hRest⟩
  · rw [hl, hr]
    exact .alike (.fault _ _) (hm.weaken (B.lostOfHolds g))
  · rw [hl, hr]
    exact .ok ⟨rfl, trivial,
      ⟨hm.world.locals _ _,
        ⟨hm.locals.self, hm.locals.cls, hm.locals.retLeft,
          hm.locals.retRight, hRest⟩⟩⟩

/- A static field has one value on both sides. -/
theorem agrees_getStatic
    (hp : Paired M p q)
    (cls field : String) :
    Agrees S B (getStatic p cls field)
      (getStatic q cls field) := by
  unfold getStatic
  rw [hp.findStatic? cls field]
  cases p.findStatic? cls field with
  | none => exact Yields.fault _ _
  | some found =>
    refine Yields.look fun _ _ m n hm => ?_
    rw [hm.world.statics]
    cases Bindings.get? (found.1, field) m.statics with
    | some v => exact Yields.pure trivial
    | none => exact Yields.pure trivial

/- A static field is set on both sides. -/
theorem agrees_setStatic
    (hp : Paired M p q)
    (cls field : String)
    (v : Val) :
    Agrees S B (setStatic p cls field v)
      (setStatic q cls field v) := by
  unfold setStatic
  rw [hp.findStatic? cls field]
  cases p.findStatic? cls field with
  | none => exact Yields.fault _ _
  | some found =>
    rcases found with ⟨owner, f⟩
    refine Yields.modify fun _ s m n hm => ?_
    have hNew := hm.onState
      (Bindings.put (owner, field) (v.convert f.ty) m.statics)
      m.nextId m.output
    have hSame : { n with
          statics :=
            Bindings.put (owner, field) (v.convert f.ty)
              n.statics } =
        { n with
          statics :=
            Bindings.put (owner, field) (v.convert f.ty) m.statics
          nextId := m.nextId, output := m.output } := by
      rw [← hm.world.nextId, ← hm.world.output,
        ← hm.world.statics]
    rw [hSame]
    exact hNew

/- Both sides write the same output. -/
theorem agrees_write
    (text : String) :
    Agrees S B (write text) (write text) := by
  refine Yields.modify fun _ s m n hm => ?_
  have hNew := hm.onState m.statics m.nextId (m.output ++ text)
  have hSame : { n with output := n.output ++ text } =
      { n with
        statics := m.statics, nextId := m.nextId,
        output := m.output ++ text } := by
    rw [← hm.world.statics, ← hm.world.nextId,
      ← hm.world.output]
  rw [hSame]
  exact hNew

/- The object that a method was called on is one object. -/
theorem agrees_currentSelf
    (c d : Fault) :
    Agrees S B
      (do
        match (← get).locals.self with
        | some v => Pure.pure v
        | none => Run.fault c)
      (do
        match (← get).locals.self with
        | some v => Pure.pure v
        | none => Run.fault d) := by
  refine Yields.look fun _ _ m n hm => ?_
  rw [hm.locals.self]
  cases m.locals.self with
  | some v => exact Yields.pure trivial
  | none => exact Yields.fault _ _

------------------------------------------------------------
-- Places
------------------------------------------------------------

/- Whether a target is a hidden variable. -/
def Pending.isVisible : Pending → Bool
  | .localVar x => !hidden x
  | _ => true

/- Whether a place is a hidden variable. -/
def Location.isVisible : Location → Bool
  | .localVar x => !hidden x
  | _ => true

/- The name of a visible variable is visible. -/
theorem visible_of_place
    {x : String}
    (hv : (Location.localVar x).isVisible = true) :
    hidden x = false := by
  simpa [Location.isVisible] using hv

/- The parts of a target lead to one place on both sides. -/
theorem yields_locate
    (hp : Paired M p q)
    (pending : Pending)
    (hv : pending.isVisible = true) :
    Yields S B (fun place => place.isVisible = true)
      (pending.locate p) (pending.locate q) := by
  cases pending with
  | localVar x => exact Yields.pure hv
  | static cls name => exact Yields.pure rfl
  | member object name =>
    cases object with
    | obj a => exact Yields.pure rfl
    | null => exact yields_raiseNull hp _
    | _ => exact yields_faultNaming _ _ _ _
  | element array index =>
    cases array with
    | arr a =>
      refine Yields.look fun _ _ m n hm => ?_
      rw [hm.world.heap]
      cases hInt : index.asInt? with
      | none => exact yields_faultShowing _ _ _ _
      | some i =>
        simp only
        split
        · exact Yields.pure rfl
        · exact yields_raise hp _ _
    | null => exact yields_raiseNull hp _
    | _ => exact yields_faultNaming _ _ _ _

/- A place holds one value on both sides. -/
theorem agrees_load
    (hp : Paired M p q)
    (place : Location)
    (hv : place.isVisible = true) :
    Agrees S B (place.load p) (place.load q) := by
  cases place with
  | localVar x => exact agrees_getLocal x (visible_of_place hv)
  | static cls name => exact agrees_getStatic hp cls name
  | member a name =>
    refine Yields.look fun _ _ m n hm => ?_
    rw [hm.world.heap]
    simp only
    cases Bindings.get? name (m.heap.fieldsOf a) with
    | some v => exact Yields.pure trivial
    | none => exact Yields.fault _ _
  | element a i =>
    refine Yields.look fun _ _ m n hm => ?_
    rw [hm.world.heap]
    cases (m.heap.itemsOf a)[i]? with
    | some v => exact Yields.pure trivial
    | none => exact Yields.fault _ _

/- A place gets one value on both sides. -/
theorem agrees_store
    (hp : Paired M p q)
    (place : Location)
    (v : Val)
    (hv : place.isVisible = true) :
    Agrees S B (place.store p v) (place.store q v) := by
  cases place with
  | localVar x => exact agrees_setLocal x v (visible_of_place hv)
  | static cls name => exact agrees_setStatic hp cls name v
  | member a name => exact agrees_setField a name v
  | element a i => exact agrees_setItem a i v

/- The value that some parts lead to is one value. -/
theorem agrees_read
    (hp : Paired M p q)
    (pending : Pending)
    (hv : pending.isVisible = true) :
    Agrees S B (pending.read p) (pending.read q) :=
  (yields_locate hp pending hv).bind fun place hPlace =>
    agrees_load hp place hPlace

/- The place that some parts lead to gets one value. -/
theorem agrees_writePlace
    (hp : Paired M p q)
    (pending : Pending)
    (v : Val)
    (hv : pending.isVisible = true) :
    Agrees S B (pending.write p v) (pending.write q v) :=
  (yields_locate hp pending hv).bind fun place hPlace =>
    agrees_store hp place v hPlace

end Agreement

end ExecTrace
