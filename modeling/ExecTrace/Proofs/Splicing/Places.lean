import ExecTrace.Proofs.Splicing.Expressions

/-
  Places that are found twice. Spliced code evaluates the parts
  of a target once and binds them, and finds the place again
  for every read and every write. Since no array changes its
  length and no field disappears, it finds the same place each
  time.

  Main declarations:
    * `Leads` and `Leads.locate`
    * `Location.Kept` and `Location.load_of_store`
    * `Placed` and `Spliced.placed`
-/

namespace ExecTrace

open Run
open Teller (runner)
open Instrument (Site Options BoundPlace fresh reporting holding
  hidden_fresh)

------------------------------------------------------------
-- Places of a Heap
------------------------------------------------------------

/- Parts of a target that lead to a place of a heap. -/
inductive Leads (h : Heap) : Pending → Location → Prop where
  | localVar (x : String) :
    Leads h (.localVar x) (.localVar x)
  | static (cls field : String) :
    Leads h (.static cls field) (.static cls field)
  | member (a : Nat) (field : String) :
    Leads h (.member (.obj a) field) (.member a field)
  | element
      (a : Nat) (index : Val) (i : Int64)
      (hIndex : index.asInt? = some i)
      (hRange : 0 ≤ i.toInt ∧ i.toInt < (h.itemsOf a).size) :
    Leads h (.element (.arr a) index) (.element a i.toInt.toNat)

/- Whether a heap has the field or the item of a place. -/
def Location.Kept
    (h : Heap) : Location → Prop
  | .member a field =>
    (Bindings.get? field (h.fieldsOf a)).isSome = true
  | .element a i => i < (h.itemsOf a).size
  | _ => True

section Places

variable {p : Program}
variable {h h' : Heap}
variable {m m' : Machine}
variable {pending : Pending}
variable {place : Location}
variable {v : Val}

/- The same place is found when the heap has grown. -/
theorem Leads.grows
    (hLeads : Leads h pending place)
    (hGrows : h.Grows h') : Leads h' pending place := by
  cases hLeads with
  | localVar x => exact .localVar x
  | static cls field => exact .static cls field
  | member a field => exact .member a field
  | element a index i hIndex hRange =>
    refine .element a index i hIndex ?_
    rw [hGrows.sizes a (by omega)]
    exact hRange

/- Parts that lead to a place are checked with success. -/
theorem Leads.locate
    (hLeads : Leads m.heap pending place) :
    pending.locate p m = (.ok place, m) := by
  cases hLeads with
  | localVar x => rfl
  | static cls field => rfl
  | member a field => rfl
  | element a index i hIndex hRange =>
    simp only [Pending.locate]
    rw [get_bind_apply]
    simp only [hIndex, if_pos hRange]
    rfl

/- Something raised is no result. -/
theorem raise_ne_ok
    {α : Type}
    {cls message : String}
    {a : α} : raise p cls message m ≠ (.ok a, m') := by
  intro hRun
  unfold raise at hRun
  rw [bind_apply] at hRun
  generalize exception p cls (some message) m = r at hRun
  rcases r with ⟨_ | _, _⟩ <;> cases hRun

/- Parts that are checked with success lead to the place. -/
theorem leads_of_locate
    (hRun : pending.locate p m = (.ok place, m')) :
    m' = m ∧ Leads m.heap pending place := by
  cases pending with
  | localVar x =>
    cases hRun
    exact ⟨rfl, .localVar x⟩
  | static cls field =>
    cases hRun
    exact ⟨rfl, .static cls field⟩
  | member object field =>
    cases object with
    | obj a =>
      cases hRun
      exact ⟨rfl, .member a field⟩
    | null => exact absurd hRun raise_ne_ok
    | _ => cases hRun
  | element array index =>
    cases array with
    | arr a =>
      simp only [Pending.locate] at hRun
      rw [get_bind_apply] at hRun
      cases hIndex : index.asInt? with
      | none =>
        rw [hIndex] at hRun
        cases hRun
      | some i =>
        simp only [hIndex] at hRun
        split at hRun
        · rename_i hRange
          cases hRun
          exact ⟨rfl, .element a index i hIndex hRange⟩
        · exact absurd hRun raise_ne_ok
    | null => exact absurd hRun raise_ne_ok
    | _ => cases hRun

/- A visible target leads to a visible place. -/
theorem Leads.visible
    (hLeads : Leads h pending place)
    (hv : pending.isVisible = true) : place.isVisible = true := by
  cases hLeads with
  | localVar x => exact hv
  | _ => rfl

/- What a heap has it keeps. -/
theorem Location.Kept.grows
    (hKept : place.Kept h)
    (hGrows : h.Grows h') : place.Kept h' := by
  cases place with
  | localVar x => trivial
  | static cls field => trivial
  | member a field => exact hGrows.fields a field hKept
  | element a i =>
    have hItem : i < (h.itemsOf a).size := hKept
    have hSize := hGrows.sizes a (by omega)
    exact (by omega : i < (h'.itemsOf a).size)

/- A place that was read is there, and reading changes nothing. -/
theorem Location.kept_of_load
    (hRun : place.load p m = (.ok v, m')) :
    m' = m ∧ place.Kept m.heap := by
  cases place with
  | localVar x =>
    simp only [Location.load, getLocal] at hRun
    rw [get_bind_apply] at hRun
    cases hFound : m.locals.get? x with
    | none =>
      rw [hFound] at hRun
      cases hRun
    | some w =>
      rw [hFound] at hRun
      cases hRun
      exact ⟨rfl, trivial⟩
  | static cls field =>
    simp only [Location.load, getStatic] at hRun
    cases hFound : p.findStatic? cls field with
    | none =>
      rw [hFound] at hRun
      cases hRun
    | some found =>
      simp only [hFound] at hRun
      rw [get_bind_apply] at hRun
      cases hValue :
          Bindings.get? (found.1, field) m.statics with
      | none =>
        rw [hValue] at hRun
        cases hRun
        exact ⟨rfl, trivial⟩
      | some w =>
        rw [hValue] at hRun
        cases hRun
        exact ⟨rfl, trivial⟩
  | member a field =>
    simp only [Location.load] at hRun
    rw [get_bind_apply] at hRun
    cases hFound : Bindings.get? field (m.heap.fieldsOf a) with
    | none =>
      rw [hFound] at hRun
      cases hRun
    | some w =>
      rw [hFound] at hRun
      cases hRun
      exact ⟨rfl, by simp [Location.Kept, hFound]⟩
  | element a i =>
    simp only [Location.load] at hRun
    rw [get_bind_apply] at hRun
    cases hFound : (m.heap.itemsOf a)[i]? with
    | none =>
      rw [hFound] at hRun
      cases hRun
    | some w =>
      rw [hFound] at hRun
      cases hRun
      exact ⟨rfl, (Array.getElem?_eq_some_iff.mp hFound).1⟩

/- A variable that was set has its value. -/
theorem lookup_of_setIn?
    {x : String}
    {scopes scopes' : List (Bindings String)}
    (hSet : Locals.setIn? x v scopes = some scopes') :
    lookup x scopes' = some v := by
  induction scopes generalizing scopes' with
  | nil => cases hSet
  | cons b rest ih =>
    rw [setIn?_cons] at hSet
    split at hSet
    · cases hSet
      rw [lookup_cons, Bindings.get?_put, if_pos rfl]
      rfl
    · rename_i hNone
      rcases Option.map_eq_some_iff.mp hSet with
        ⟨rest', hRest, rfl⟩
      rw [lookup_cons, ih hRest]
      simp only [Option.not_isSome_iff_eq_none] at hNone
      rw [hNone]
      rfl

/- A field that was set has the value. -/
theorem Heap.get?_setField
    {a : Nat}
    {field : String}
    (h : (Bindings.get? field (m.heap.fieldsOf a)).isSome = true) :
    Bindings.get? field ((m.heap.setField a field v).fieldsOf a)
      = some v := by
  unfold Heap.fieldsOf at h ⊢
  simp only [Heap.setField, Array.getElem?_modify, if_true]
  cases hObject : m.heap.objects[a]? with
  | none =>
    rw [hObject] at h
    cases h
  | some o => simp [Bindings.get?_put]

/- An item that was set has the converted value. -/
theorem Heap.getElem?_setItem
    {a i : Nat}
    (h : i < (m.heap.itemsOf a).size)
    (v : Val) :
    ∃ ty : Ty, ((m.heap.setItem a i v).itemsOf a)[i]?
      = some (v.convert ty) := by
  unfold Heap.itemsOf at h ⊢
  simp only [Heap.setItem, Array.getElem?_modify, if_true]
  cases hArray : m.heap.arrays[a]? with
  | none =>
    rw [hArray] at h
    cases h
  | some c =>
    rw [hArray] at h
    exact ⟨c.element, by simp [h]⟩

/- A place that was written can be read. -/
theorem Location.load_of_store
    (hKept : place.Kept m.heap)
    (hRun : place.store p v m = (.ok (), m')) :
    ∃ u, place.load p m' = (.ok u, m') ∧ v.Settled u := by
  cases place with
  | localVar x =>
    simp only [Location.store, setLocal] at hRun
    rw [get_bind_apply] at hRun
    cases hSet : m.locals.set? x v with
    | none =>
      rw [hSet] at hRun
      cases hRun
    | some l =>
      rw [hSet] at hRun
      cases hRun
      rcases Option.map_eq_some_iff.mp hSet with
        ⟨scopes, hScopes, hLocals⟩
      have hGet : l.get? x = some v := by
        rw [← hLocals]
        exact lookup_of_setIn? hScopes
      refine ⟨v, ?_, .inl rfl⟩
      simp only [Location.load, getLocal]
      rw [get_bind_apply]
      simp only [hGet]
      rfl
  | static cls field =>
    simp only [Location.store, setStatic] at hRun
    simp only [Location.load, getStatic]
    cases hFound : p.findStatic? cls field with
    | none =>
      rw [hFound] at hRun
      cases hRun
    | some found =>
      rw [hFound] at hRun
      cases hRun
      refine ⟨v.convert found.2.ty, ?_, .inr ⟨_, rfl⟩⟩
      simp only
      rw [get_bind_apply]
      simp only [Bindings.get?_put, if_true]
      rfl
  | member a field =>
    cases hRun
    refine ⟨v, ?_, .inl rfl⟩
    simp only [Location.load]
    rw [get_bind_apply]
    simp only [Heap.get?_setField hKept]
    rfl
  | element a i =>
    cases hRun
    rcases Heap.getElem?_setItem hKept v with ⟨ty, hItem⟩
    refine ⟨v.convert ty, ?_, .inr ⟨ty, rfl⟩⟩
    simp only [Location.load]
    rw [get_bind_apply]
    simp only [hItem]
    rfl

end Places

------------------------------------------------------------
-- Places of Spliced Code
------------------------------------------------------------

/-
  A bound place whose parts are held by hidden variables, the
  parts, and the place as it is told.
-/
inductive Placed (s : Shape) :
    BoundPlace → Pending × Place Shown → Prop where
  | localVar
      {name : String} {ty : Ty} {span : Span}
      (hName : hidden name = false) :
      Placed s
        ⟨[], ⟨.localVar name, ty, span⟩, .localVar name⟩
        (.localVar name, .localVar name)
  | staticField
      {cls field : String} {ty : Ty} {span : Span} :
      Placed s
        ⟨[], ⟨.staticField cls field, ty, span⟩,
          .staticField cls field⟩
        (.static cls field, .staticField cls field)
  | instanceField
      {before : List Stmt} {n : Nat} {object : Expr} {v : Val}
      {cls field : String} {ty : Ty} {span : Span}
      (hObject : s.find? (fresh "obj" n) = some v) :
      Placed s
        ⟨before,
          ⟨.instanceField
            (holding (fresh "obj" n) object.ty object).read cls
            field, ty, span⟩,
          .instanceField cls
            (reporting
              (holding (fresh "obj" n) object.ty object).read)
            field⟩
        (.member v field,
          .instanceField cls (shown object.ty v) field)
  | element
      {before : List Stmt} {n k : Nat} {array index : Expr}
      {a i : Val} {ty : Ty} {span : Span}
      (hArray : s.find? (fresh "arr" n) = some a)
      (hIndex : s.find? (fresh "idx" k) = some i) :
      Placed s
        ⟨before,
          ⟨.index (holding (fresh "arr" n) array.ty array).read
            (holding (fresh "idx" k) index.ty index).read,
            ty, span⟩,
          .element
            (reporting
              (holding (fresh "arr" n) array.ty array).read)
            (reporting
              (holding (fresh "idx" k) index.ty index).read)⟩
        (.element a i,
          .element (shown array.ty a) (shown index.ty i))

/- Whether variables with a hint hold no part of a place. -/
def holdsNoPart (hint : String) : Bool :=
  hint != "obj" && hint != "arr" && hint != "idx"
    && Instrument.isWord hint

namespace Placed

variable {s : Shape}
variable {P : BoundPlace}
variable {x : Pending × Place Shown}

/- A place stays bound when another variable is hidden. -/
theorem hide
    (h : Placed s P x)
    (hint : String)
    (hHint : holdsNoPart hint = true)
    (number : Nat)
    (v : Val) : Placed (s.hide (fresh hint number) v) P x := by
  simp only [holdsNoPart, Bool.and_eq_true, bne_iff_ne] at hHint
  rcases hHint with ⟨⟨⟨hObj, hArr⟩, hIdx⟩, hWord⟩
  cases h with
  | localVar hName => exact .localVar hName
  | staticField => exact .staticField
  | instanceField hObject =>
    refine .instanceField ?_
    rw [Shape.find?_hide_of_ne
      (Instrument.fresh_ne _ _ hWord (by decide) hObj)]
    exact hObject
  | element hArray hIndex =>
    refine .element ?_ ?_
    · rw [Shape.find?_hide_of_ne
        (Instrument.fresh_ne _ _ hWord (by decide) hArr)]
      exact hArray
    · rw [Shape.find?_hide_of_ne
        (Instrument.fresh_ne _ _ hWord (by decide) hIdx)]
      exact hIndex

/- The parts of a bound place are no hidden variable. -/
theorem visible
    (h : Placed s P x) : x.1.isVisible = true := by
  cases h with
  | localVar hName => simp [Pending.isVisible, hName]
  | _ => rfl

/- A bound place is told by the probe that names it. -/
theorem tale
    (h : Placed s P x) :
    ∃ b, PlaceTale s x.2 P.place b := by
  cases h with
  | localVar hName => exact ⟨_, placeTale_localVar _⟩
  | staticField => exact ⟨_, placeTale_staticField _ _⟩
  | instanceField hObject =>
    exact ⟨_, placeTale_instanceField
      (reads_localVar (hidden_fresh _ _) hObject) _ _⟩
  | element hArray hIndex =>
    exact ⟨_, placeTale_element
      (reads_localVar (hidden_fresh _ _) hArray)
      (reads_localVar (hidden_fresh _ _) hIndex)⟩

/- The second run finds the parts of a bound place. -/
theorem gives_pending
    {S : Slack}
    {u w : Observer}
    {q : Program}
    {n j k : Nat}
    {m m' : Machine}
    (h : Placed s P x)
    (hw : u.Follows S w)
    (hk : Spare S n (j + 1) k)
    (hm : Linked Joint.level s m m') :
    Gives S m' (pendingOf (eval w q k) P.target) x.1 := by
  cases h with
  | localVar hName => exact .pure _
  | staticField => exact .pure _
  | instanceField hObject =>
    exact (gives_localVar hw hk
      (hm.get_hidden (hidden_fresh _ _) hObject)).bind
        (.pure _)
  | element hArray hIndex =>
    refine (gives_localVar hw hk
      (hm.get_hidden (hidden_fresh _ _) hArray)).bind ?_
    exact (gives_localVar hw hk
      (hm.get_hidden (hidden_fresh _ _) hIndex)).bind
        (.pure _)

/- Reading a bound place finds it and reads it. -/
theorem evalForm_target
    (h : Placed s P x)
    (w : Observer)
    (q : Program)
    (r : Runner) :
    Runner.evalForm w q r P.target
      = (do
        let pending ← pendingOf r.eval P.target
        pending.read q) := by
  cases h with
  | localVar hName => rfl
  | staticField => rfl
  | instanceField hObject =>
    simp only [pendingOf, bind_assoc, pure_bind]
    rfl
  | element hArray hIndex =>
    simp only [pendingOf, bind_assoc, pure_bind]
    rfl

end Placed

------------------------------------------------------------
-- Telling Places
------------------------------------------------------------

section Telling

variable {S : Slack}
variable {u w : Observer}
variable {X : Splice}
variable {p q : Program}
variable {n j k : Nat}
variable {site : Site}
variable {s : Shape}
variable {α β : Type}
variable {post : α → β → Machine → Machine → Prop}
variable {ss : List Stmt}
variable {next : Run β}
variable {other : Flow → Run β}
variable {c c' : Nat}

/- The parts of a target are bound to hidden variables. -/
theorem Spliced.placed
    (h : Spliced S X w p q n)
    (hk : Spare S n (j + 1) k)
    (hj : j < 8)
    (hs : s.ret = site.ret)
    {target : Expr}
    {P : BoundPlace}
    (hTarget : target.passes Test.source = true)
    (hPass : Instrument.place X.options site target c = .ok (P, c'))
    {f : Pending × Place Shown → Run α}
    (hRest : ∀ top x, Placed { s with top := top } P x →
      Mirrors S { s with top := top } post (f x)
        (andThen (ExecTrace.exec w q k) ss next other)) :
    Mirrors S s post
      (X.teller.placeOf
        (X.teller.runner p n) (some site)
        target >>= f)
      (andThen (ExecTrace.exec w q k) (P.before ++ ss) next
        other) := by
  rcases target with ⟨form, ty, span⟩
  simp only [Expr.passes, Bool.and_eq_true] at hTarget
  cases form with
  | localVar name =>
    simp only [Instrument.place, Instrument.pure_ok] at hPass
    rcases hPass with ⟨rfl, _⟩
    have hName : hidden name = false := by
      simpa [Test.source, Test.sourceExpr] using hTarget.1
    simp only [Teller.placeOf, pure_bind]
    exact hRest s.top _ (.localVar hName)
  | staticField cls field =>
    simp only [Instrument.place, Instrument.pure_ok] at hPass
    rcases hPass with ⟨rfl, _⟩
    simp only [Teller.placeOf, pure_bind]
    exact hRest s.top _ .staticField
  | instanceField object cls field =>
    simp only [Instrument.place, Instrument.bind_ok,
      Instrument.bindTo_ok, Instrument.operand_ok,
      Instrument.pure_ok] at hPass
    rcases hPass with ⟨object', c₁, hObject', _, _, ⟨rfl, rfl⟩,
      _, _, ⟨_, rfl, rfl⟩, rfl, rfl⟩
    have hTy := Instrument.ty_of_expr hObject'
    simp only [Teller.placeOf, bind_assoc, pure_bind]
    refine h.held hk hj hTarget.2 hObject' hs _ _ fun v => ?_
    have hPlaced := hRest (s.hide (fresh "obj" c₁) v).top _
      (.instanceField Shape.find?_hide)
    rw [hTy] at hPlaced
    exact hPlaced
  | index array index =>
    simp only [ExprForm.passes, Bool.and_eq_true] at hTarget
    simp only [Instrument.place, Instrument.bind_ok,
      Instrument.bindTo_ok, Instrument.operand_ok,
      Instrument.pure_ok] at hPass
    rcases hPass with ⟨array', c₁, hArray', _, _, ⟨rfl, rfl⟩,
      index', c₂, hIndex', _, _, ⟨rfl, rfl⟩, _, _, ⟨_, rfl, rfl⟩,
      _, _, ⟨_, rfl, rfl⟩, rfl, rfl⟩
    have hTyArray := Instrument.ty_of_expr hArray'
    have hTyIndex := Instrument.ty_of_expr hIndex'
    simp only [Teller.placeOf, bind_assoc, pure_bind]
    refine h.held hk hj hTarget.2.1 hArray' hs _ _ fun a => ?_
    refine h.held hk hj hTarget.2.2 hIndex' (by exact hs) _ _
      fun i => ?_
    have hPlaced := hRest
      ((s.hide (fresh "arr" c₁) a).hide (fresh "idx" c₂) i).top _
      (.element
        ((Shape.find?_hide_fresh (by decide)).trans
          Shape.find?_hide) Shape.find?_hide)
    rw [hTyArray, hTyIndex] at hPlaced
    exact hPlaced
  | _ =>
    simp only [Instrument.place, Instrument.fail_ok] at hPass

end Telling

end ExecTrace
