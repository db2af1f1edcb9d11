import ExecTrace.Machine.State

/-
  Scopes with hidden variables. A hidden variable has a name
  that no source program uses. One scope of a plain run
  corresponds to a layer of scopes of a run with hidden
  variables: visible names have the same values in both, and
  the hidden bindings of a layer are known.

  Main declarations:
    * `hidden` and `hiddenPart`
    * `Layer` and `Layered`
    * `Layered.get_visible` and `Layered.get_hidden`
    * `Layered.set_visible`
-/

namespace ExecTrace

------------------------------------------------------------
-- Bindings
------------------------------------------------------------

/- Whether a name is one that no source program uses. -/
def hidden (name : String) : Bool :=
  name.toList.head? == some '$'

namespace Bindings

/- The value under a name after some name got a value. -/
theorem get?_put
    {κ : Type}
    [DecidableEq κ]
    (b : Bindings κ)
    (x y : κ)
    (v : Val) :
    (b.put x v).get? y = if x = y then some v else b.get? y := by
  induction b with
  | nil => simp [put, get?]
  | cons p rest ih =>
    rcases p with ⟨n, w⟩
    by_cases hn : n = x
    · subst hn
      by_cases hy : n = y <;> simp [put, get?, hy]
    · by_cases hy : n = y
      · subst hy
        simp [put, get?, hn, Ne.symm hn]
      · simp [put, get?, hn, hy, ih]

end Bindings

/- The bindings of hidden names. -/
def hiddenPart (b : Bindings String) : Bindings String :=
  b.filter fun p => hidden p.1

/- A hidden name has its value among the hidden bindings. -/
theorem get?_hiddenPart
    (b : Bindings String)
    (x : String)
    (hx : hidden x = true) :
    Bindings.get? x (hiddenPart b) = Bindings.get? x b := by
  induction b with
  | nil => rfl
  | cons p rest ih =>
    rcases p with ⟨n, w⟩
    by_cases hn : hidden n = true
    · have hPart : hiddenPart ((n, w) :: rest)
          = (n, w) :: hiddenPart rest := by
        simp [hiddenPart, hn]
      rw [hPart]
      simp only [Bindings.get?, ih]
    · have hPart : hiddenPart ((n, w) :: rest)
          = hiddenPart rest := by
        simp [hiddenPart, hn]
      have hne : n ≠ x := by
        intro h
        exact hn (h ▸ hx)
      rw [hPart, ih]
      simp [Bindings.get?, hne]

/- A visible name leaves the hidden bindings as they are. -/
theorem hiddenPart_put_visible
    (b : Bindings String)
    (x : String)
    (v : Val)
    (hx : hidden x = false) :
    hiddenPart (b.put x v) = hiddenPart b := by
  induction b with
  | nil => simp [Bindings.put, hiddenPart, hx]
  | cons p rest ih =>
    rcases p with ⟨n, w⟩
    by_cases hn : n = x
    · subst hn
      simp [Bindings.put, hiddenPart, hx]
    · simp only [Bindings.put, hn, if_false]
      simp only [hiddenPart, List.filter_cons] at ih ⊢
      rw [ih]

/- A hidden name gets its value among the hidden bindings. -/
theorem hiddenPart_put_hidden
    (b : Bindings String)
    (x : String)
    (v : Val)
    (hx : hidden x = true) :
    hiddenPart (b.put x v) = (hiddenPart b).put x v := by
  induction b with
  | nil => simp [Bindings.put, hiddenPart, hx]
  | cons p rest ih =>
    rcases p with ⟨n, w⟩
    by_cases hn : n = x
    · subst hn
      simp [Bindings.put, hiddenPart, hx]
    · simp only [Bindings.put, hn, if_false]
      simp only [hiddenPart, List.filter_cons] at ih ⊢
      rw [ih]
      split <;> simp [Bindings.put, hn]

------------------------------------------------------------
-- Layers
------------------------------------------------------------

/- The value of a variable in some scopes, innermost first. -/
def lookup
    (x : String)
    (scopes : List (Bindings String)) : Option Val :=
  scopes.findSome? fun scope => scope.get? x

/- The hidden bindings of the scopes of a layer. -/
abbrev Shadow := List (Bindings String)

/- Whether a scope has no visible names. -/
def Covert (b : Bindings String) : Prop :=
  ∀ x, hidden x = false → Bindings.get? x b = none

/-
  A scope corresponds to the scopes of a layer with some hidden
  bindings, together with scopes below them, if they agree on
  every visible name. Only the outermost scope of the layer
  itself has visible names.
-/
structure Layer
    (shadow : Shadow)
    (scope : Bindings String)
    (scopes ground : List (Bindings String)) : Prop where
  shadow : scopes.map hiddenPart = shadow
  agree : ∀ x, hidden x = false →
    lookup x (scopes ++ ground) = Bindings.get? x scope
  covert : ∀ b ∈ scopes.dropLast, Covert b

/-
  Scopes correspond to layers of scopes one after the other. Of
  the scopes on the second side, `depth` lie below all layers.
-/
inductive Layered :
    Nat → List Shadow → List (Bindings String) →
    List (Bindings String) → Prop where
  | last
      {shadow : Shadow} {scope : Bindings String}
      {layer ground : List (Bindings String)}
      (h : Layer shadow scope layer ground) :
      Layered ground.length [shadow] [scope] (layer ++ ground)
  | cons
      {depth : Nat} {shadow : Shadow} {shadows : List Shadow}
      {scope : Bindings String} {ls : List (Bindings String)}
      {layer rs : List (Bindings String)}
      (h : Layer shadow scope layer [])
      (rest : Layered depth shadows ls rs) :
      Layered depth (shadow :: shadows) (scope :: ls)
        (layer ++ rs)

section Lookup

variable {x : String}
variable {v : Val}
variable {b scope : Bindings String}
variable {shadow : Shadow}
variable {shadows : List Shadow}
variable {depth : Nat}
variable {ls rs scopes ground : List (Bindings String)}

/- A variable is looked up in the innermost scope first. -/
theorem lookup_cons :
    lookup x (b :: scopes)
      = (Bindings.get? x b).or (lookup x scopes) := by
  unfold lookup
  rw [List.findSome?_cons]
  cases Bindings.get? x b <;> rfl

/- A variable is looked up in inner scopes first. -/
theorem lookup_append :
    lookup x (scopes ++ rs)
      = (lookup x scopes).or (lookup x rs) := by
  unfold lookup
  rw [List.findSome?_append]

/- A hidden variable can be looked up in the shadow. -/
theorem lookup_map_hiddenPart
    (hx : hidden x = true) :
    lookup x (scopes.map hiddenPart) = lookup x scopes := by
  induction scopes with
  | nil => rfl
  | cons b rest ih =>
    rw [List.map_cons, lookup_cons, lookup_cons, ih,
      get?_hiddenPart b x hx]

namespace Layered

/- There is a scope for every layer. -/
theorem length_left
    (h : Layered depth shadows ls rs) :
    ls.length = shadows.length := by
  induction h with
  | last _ => rfl
  | cons _ _ ih => simp [ih]

/-
  The layers have as many scopes as their shadows, and others
  lie below them.
-/
theorem length_right
    (h : Layered depth shadows ls rs) :
    rs.length = shadows.flatten.length + depth := by
  induction h with
  | last h =>
    have hLayer := congrArg List.length h.shadow
    simp at hLayer
    simp [hLayer]
  | cons h _ ih =>
    have hLayer := congrArg List.length h.shadow
    simp at hLayer
    simp [ih, hLayer, Nat.add_assoc]

/- A visible variable has one value on both sides. -/
theorem get_visible
    (h : Layered depth shadows ls rs)
    (hx : hidden x = false) :
    lookup x rs = lookup x ls := by
  induction h with
  | last h =>
    rw [h.agree x hx, lookup_cons]
    exact (Option.or_none).symm
  | cons h _ ih =>
    have hAgree := h.agree x hx
    rw [List.append_nil] at hAgree
    rw [lookup_append, lookup_cons, ih, hAgree]

/- A hidden variable that the shadows have has their value. -/
theorem get_hidden
    (h : Layered depth shadows ls rs)
    (hx : hidden x = true)
    (hv : lookup x shadows.flatten = some v) :
    lookup x rs = some v := by
  induction h with
  | last h =>
    rw [List.flatten_singleton, ← h.shadow,
      lookup_map_hiddenPart hx] at hv
    rw [lookup_append, hv, Option.some_or]
  | cons h _ ih =>
    rw [List.flatten_cons, lookup_append, ← h.shadow,
      lookup_map_hiddenPart hx] at hv
    rw [lookup_append]
    rcases Option.or_eq_some_iff.mp hv with hv | ⟨hNone, hv⟩
    · rw [hv, Option.some_or]
    · rw [hNone, ih hv, Option.none_or]

/- The innermost layer may be exchanged for another one. -/
theorem front
    (h : Layered depth (shadow :: shadows) ls rs) :
    ∃ l ls' layer ground rs',
      ls = l :: ls' ∧ rs = layer ++ rs' ∧
      Layer shadow l layer ground ∧
      ∀ shadow' l' layer', Layer shadow' l' layer' ground →
        Layered depth (shadow' :: shadows) (l' :: ls')
          (layer' ++ rs') := by
  cases h with
  | @last _ l layer ground h =>
    exact ⟨l, [], layer, ground, ground, rfl, rfl, h,
      fun _ _ _ h' => .last h'⟩
  | @cons _ _ _ l ls' layer rs' h rest =>
    exact ⟨l, ls', layer, [], rs', rfl, rfl, h,
      fun _ _ _ h' => .cons h' rest⟩

end Layered

/- A scope that nothing is declared in yet. -/
theorem Layer.empty : Layer [[]] [] [[]] [] where
  shadow := rfl
  agree := fun _ _ => rfl
  covert := nofun

/- A scope without hidden names is a layer on its own. -/
theorem Layer.single
    (h : hiddenPart b = []) : Layer [[]] b [b] [] where
  shadow := by simp [h]
  agree := fun x _ => by
    rw [List.append_nil, lookup_cons]
    cases Bindings.get? x b <;> rfl
  covert := nofun

/-
  A scope lies below a new one. Both stand for the one scope of
  the other side.
-/
theorem Layer.sink
    (h : Layer shadow scope [b] []) :
    Layer [[]] scope [[]] [b] where
  shadow := rfl
  agree := h.agree
  covert := nofun

/-
  The only scope of each side stands below the layers once the
  second side has entered another one.
-/
theorem Layered.sink
    {shadow : Shadow}
    (h : Layered 0 [shadow] ls [b]) :
    Layered 1 [[[]]] ls [[], b] := by
  generalize hDepth : 0 = depth at h
  generalize hRight : [b] = rs at h
  cases h with
  | @last _ l layer ground h =>
    have hNil := List.eq_nil_of_length_eq_zero hDepth.symm
    subst hNil
    rw [List.append_nil] at hRight
    subst hRight
    exact .last h.sink
  | cons h rest => cases rest

/- The first of several scopes of a layer is not the last. -/
theorem mem_dropLast_cons
    {c : Bindings String} :
    c ∈ (b :: scopes).dropLast ↔
      c = b ∧ scopes ≠ [] ∨ c ∈ scopes.dropLast := by
  cases scopes with
  | nil => simp
  | cons r rest =>
    rw [List.dropLast_cons_cons]
    simp

/- One more scope for hidden names only. -/
theorem Layer.open
    (h : Layer shadow scope scopes ground) :
    Layer ([] :: shadow) scope ([] :: scopes) ground where
  shadow := by
    simp [h.shadow, hiddenPart]
  agree := fun x hx => by
    rw [List.cons_append, lookup_cons]
    exact h.agree x hx
  covert := fun c hc => by
    rcases mem_dropLast_cons.mp hc with ⟨rfl, _⟩ | hc
    · exact fun _ _ => rfl
    · exact h.covert c hc

/- A scope for hidden names only is left. -/
theorem Layer.close
    {t : Bindings String}
    (h : Layer (t :: shadow) scope (b :: scopes) ground)
    (hMore : scopes ≠ []) :
    Layer shadow scope scopes ground where
  shadow := by
    have hShadow := h.shadow
    rw [List.map_cons, List.cons.injEq] at hShadow
    exact hShadow.2
  agree := fun x hx => by
    have hAgree := h.agree x hx
    have hCovert :=
      h.covert b (mem_dropLast_cons.mpr (.inl ⟨rfl, hMore⟩))
    rw [List.cons_append, lookup_cons, hCovert x hx] at hAgree
    exact hAgree
  covert := fun c hc =>
    h.covert c (mem_dropLast_cons.mpr (.inr hc))

/- A hidden variable is declared on one side only. -/
theorem Layer.hide
    (h : Layer shadow scope (b :: scopes) ground)
    (hx : hidden x = true) :
    Layer ((hiddenPart b).put x v :: shadow.tail) scope
      (b.put x v :: scopes) ground where
  shadow := by
    have hTail := congrArg List.tail h.shadow
    simp only [List.map_cons, List.tail_cons] at hTail
    rw [List.map_cons, hiddenPart_put_hidden b x v hx, hTail]
  agree := fun y hy => by
    have hne : x ≠ y := by
      intro hxy
      rw [hxy, hy] at hx
      cases hx
    have hAgree := h.agree y hy
    rw [List.cons_append, lookup_cons] at hAgree ⊢
    rw [Bindings.get?_put, if_neg hne]
    exact hAgree
  covert := fun c hc => by
    rcases mem_dropLast_cons.mp hc with ⟨rfl, hMore⟩ | hc
    · intro y hy
      have hne : x ≠ y := by
        intro hxy
        rw [hxy, hy] at hx
        cases hx
      rw [Bindings.get?_put, if_neg hne]
      exact h.covert b
        (mem_dropLast_cons.mpr (.inl ⟨rfl, hMore⟩)) y hy
    · exact h.covert c (mem_dropLast_cons.mpr (.inr hc))

/- A scope without visible names is put in front of a layer. -/
theorem Layer.cover
    (h : Layer shadow scope scopes ground)
    (hCovert : Covert b) :
    Layer (hiddenPart b :: shadow) scope (b :: scopes) ground where
  shadow := by rw [List.map_cons, h.shadow]
  agree := fun x hx => by
    rw [List.cons_append, lookup_cons, hCovert x hx]
    exact h.agree x hx
  covert := fun c hc => by
    rcases mem_dropLast_cons.mp hc with ⟨rfl, _⟩ | hc
    · exact hCovert
    · exact h.covert c hc

/-
  A visible variable is declared on both sides, in a layer of a
  single scope.
-/
theorem Layer.declare
    (h : Layer shadow scope [b] ground)
    (hx : hidden x = false) :
    Layer shadow (scope.put x v) [b.put x v] ground where
  shadow := by
    have hShadow := h.shadow
    rw [List.map_cons] at hShadow ⊢
    rw [hiddenPart_put_visible b x v hx]
    exact hShadow
  agree := fun y hy => by
    have hAgree := h.agree y hy
    rw [List.cons_append, lookup_cons] at hAgree ⊢
    rw [Bindings.get?_put, Bindings.get?_put]
    by_cases hxy : x = y
    · simp [hxy]
    · simpa [hxy] using hAgree
  covert := nofun

end Lookup

------------------------------------------------------------
-- Assignments
------------------------------------------------------------

section Assignment

variable {x : String}
variable {v : Val}
variable {scope : Bindings String}
variable {shadow : Shadow}
variable {shadows : List Shadow}
variable {depth : Nat}
variable {ls rs scopes ground : List (Bindings String)}

/- A variable can be set where it can be looked up. -/
theorem setIn?_eq_none_iff :
    Locals.setIn? x v scopes = none ↔ lookup x scopes = none := by
  induction scopes with
  | nil => simp [Locals.setIn?, lookup]
  | cons b rest ih =>
    rw [lookup_cons]
    unfold Locals.setIn?
    cases hb : Bindings.get? x b with
    | none => simp [ih]
    | some w => simp

/- A variable is set in the innermost scope that has it. -/
theorem setIn?_cons
    {b : Bindings String} :
    Locals.setIn? x v (b :: scopes) =
      if (b.get? x).isSome then some (b.put x v :: scopes)
      else (Locals.setIn? x v scopes).map (b :: ·) :=
  rfl

/- A variable is set in the inner scopes if it is there. -/
theorem setIn?_append :
    Locals.setIn? x v (scopes ++ rs) =
      match Locals.setIn? x v scopes with
      | some inner => some (inner ++ rs)
      | none => (Locals.setIn? x v rs).map (scopes ++ ·) := by
  induction scopes with
  | nil => simp [Locals.setIn?]
  | cons b rest ih =>
    rw [List.cons_append, setIn?_cons, setIn?_cons, ih]
    cases hb : Bindings.get? x b with
    | some w => simp
    | none =>
      cases Locals.setIn? x v rest <;> simp
      rfl

/-
  A variable that is found gets its value, and nothing else can
  be told apart that does not depend on it.
-/
theorem setIn?_found
    (hFound : lookup x scopes ≠ none) :
    ∃ scopes', Locals.setIn? x v scopes = some scopes' ∧
      (∀ y, lookup y scopes' =
        if x = y then some v else lookup y scopes) ∧
      ∀ {γ : Type} (f : Bindings String → γ),
        (∀ b, (Bindings.get? x b).isSome = true →
          f (b.put x v) = f b) →
        scopes'.map f = scopes.map f := by
  induction scopes with
  | nil => exact absurd rfl hFound
  | cons b rest ih =>
    cases hb : Bindings.get? x b with
    | some w =>
      refine ⟨b.put x v :: rest, by simp [setIn?_cons, hb], ?_, ?_⟩
      · intro y
        rw [lookup_cons, lookup_cons, Bindings.get?_put]
        split <;> rfl
      · intro γ f hf
        rw [List.map_cons, List.map_cons, hf b (by simp [hb])]
    | none =>
      rw [lookup_cons, hb] at hFound
      rcases ih hFound with ⟨rest', hRest, hLook, hMap⟩
      refine ⟨b :: rest', by simp [setIn?_cons, hb, hRest], ?_, ?_⟩
      · intro y
        rw [lookup_cons, lookup_cons, hLook]
        by_cases hxy : x = y
        · subst hxy
          simp [hb]
        · simp [hxy]
      · intro γ f hf
        rw [List.map_cons, List.map_cons, hMap f hf]

/- A scope is as covert as it was when a variable is set. -/
theorem covert_put
    {b : Bindings String}
    (hx : hidden x = false)
    (hb : (Bindings.get? x b).isSome = true) :
    Covert (b.put x v) = Covert b := by
  refine propext ⟨fun h => ?_, fun h => ?_⟩
  · have hNone := h x hx
    rw [Bindings.get?_put, if_pos rfl] at hNone
    cases hNone
  · rw [h x hx] at hb
    cases hb

/- Setting a variable in a layer sets it in its scope. -/
theorem Layer.set
    (h : Layer shadow scope scopes ground)
    (hx : hidden x = false)
    (hw : (Bindings.get? x scope).isSome = true) :
    ∃ scopes' ground',
      Locals.setIn? x v (scopes ++ ground)
        = some (scopes' ++ ground') ∧
      ground'.length = ground.length ∧
      Layer shadow (scope.put x v) scopes' ground' := by
  have hSettled : ∀ y, hidden y = false →
      (if x = y then some v
        else lookup y (scopes ++ ground))
        = Bindings.get? y (scope.put x v) := by
    intro y hy
    rw [Bindings.get?_put, h.agree y hy]
  cases hInner : lookup x scopes with
  | some _ =>
    have hFound : lookup x scopes ≠ none := by
      simp [hInner]
    rcases setIn?_found (v := v) hFound with ⟨scopes', hSet, hLook, hMap⟩
    refine ⟨scopes', ground, ?_, rfl, ?_, ?_, ?_⟩
    · rw [setIn?_append, hSet]
    · rw [hMap hiddenPart fun b _ =>
        hiddenPart_put_visible b x v hx]
      exact h.shadow
    · intro y hy
      rw [← hSettled y hy, lookup_append, lookup_append, hLook]
      split <;> rfl
    · have hCovert : scopes'.dropLast.map Covert
          = scopes.dropLast.map Covert := by
        rw [List.map_dropLast, List.map_dropLast,
          hMap Covert fun b hb => covert_put hx hb]
      intro c hc
      have hMem := List.mem_map_of_mem (f := Covert) hc
      rw [hCovert] at hMem
      rcases List.mem_map.mp hMem with ⟨b, hb, hSame⟩
      rw [← hSame]
      exact h.covert b hb
  | none =>
    have hOuter : lookup x ground ≠ none := by
      intro hNone
      have hAgree := h.agree x hx
      rw [lookup_append, hInner, hNone] at hAgree
      rw [← hAgree] at hw
      cases hw
    rcases setIn?_found (v := v) hOuter with
      ⟨ground', hSet, hLook, hMap⟩
    refine ⟨scopes, ground', ?_, ?_, h.shadow, ?_, h.covert⟩
    · rw [setIn?_append, setIn?_eq_none_iff.mpr hInner, hSet]
      rfl
    · have hLength := congrArg List.length
        (hMap (fun _ => ()) fun _ _ => rfl)
      simpa using hLength
    · intro y hy
      rw [← hSettled y hy, lookup_append, lookup_append, hLook]
      by_cases hxy : x = y
      · subst hxy
        simp [hInner]
      · simp [hxy]

/- A visible variable is set on both sides, or on neither. -/
theorem Layered.set_visible
    (h : Layered depth shadows ls rs)
    (hx : hidden x = false) :
    (Locals.setIn? x v ls = none ∧ Locals.setIn? x v rs = none) ∨
      ∃ ls' rs', Locals.setIn? x v ls = some ls' ∧
        Locals.setIn? x v rs = some rs' ∧
        Layered depth shadows ls' rs' := by
  induction h with
  | @last shadow scope layer ground h =>
    cases hw : Bindings.get? x scope with
    | some w =>
      rcases h.set (v := v) hx (by simp [hw]) with
        ⟨layer', ground', hSet, hLength, hLayer⟩
      refine .inr ⟨[scope.put x v], _, ?_, hSet, ?_⟩
      · simp [Locals.setIn?, hw]
      · rw [← hLength]
        exact .last hLayer
    | none =>
      refine .inl ⟨by simp [Locals.setIn?, hw], ?_⟩
      rw [setIn?_eq_none_iff, h.agree x hx, hw]
  | @cons depth shadow shadows scope ls layer rs h rest ih =>
    have hAgree := h.agree x hx
    rw [List.append_nil] at hAgree
    cases hw : Bindings.get? x scope with
    | some w =>
      rcases h.set (v := v) hx (by simp [hw]) with
        ⟨layer', ground', hSet, hLength, hLayer⟩
      have hNone : ground' = [] := List.eq_nil_of_length_eq_zero
        hLength
      subst hNone
      rw [List.append_nil, List.append_nil] at hSet
      refine .inr ⟨scope.put x v :: ls, layer' ++ rs, ?_, ?_, ?_⟩
      · simp [Locals.setIn?, hw]
      · rw [setIn?_append, hSet]
      · exact .cons hLayer rest
    | none =>
      have hNone : Locals.setIn? x v layer = none := by
        rw [setIn?_eq_none_iff, hAgree, hw]
      rcases ih with ⟨hl, hr⟩ | ⟨ls', rs', hl, hr, hRest⟩
      · refine .inl ⟨?_, ?_⟩
        · simp [Locals.setIn?, hw, hl]
        · rw [setIn?_append, hNone, hr]
          rfl
      · refine .inr ⟨scope :: ls', layer ++ rs', ?_, ?_, ?_⟩
        · simp [Locals.setIn?, hw, hl]
        · rw [setIn?_append, hNone, hr]
          rfl
        · exact .cons h hRest

end Assignment

/- Scopes correspond to themselves one by one. -/
theorem Layered.refl
    (b : Bindings String)
    (rest : List (Bindings String)) :
    Layered 0 ((b :: rest).map fun c => [hiddenPart c])
      (b :: rest) (b :: rest) := by
  have hSelf : ∀ b : Bindings String,
      Layer [hiddenPart b] b [b] [] := fun b =>
    { shadow := rfl
      agree := fun x _ => by
        rw [List.append_nil, lookup_cons]
        exact Option.or_none
      covert := nofun }
  induction rest generalizing b with
  | nil => exact .last (hSelf b)
  | cons c rest ih => exact .cons (hSelf b) (ih c)

end ExecTrace
