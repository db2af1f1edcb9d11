import ExecTrace.Proofs.Congruence
import ExecTrace.Proofs.Histories

/-
  A ledger of the open frames of a trace. It tells for every open
  frame what it stands for: the method that was called and how
  the last activation ended that the call has run, or the method
  that was started. Each event of a trace that keeps the rules
  changes the ledger in one way: a call is opened and closed for
  the same method, an activation is closed for the method that it
  was opened for, and a call is named by at most one activation
  that it started directly, which takes the arguments of the call.

  Main declarations:
    * `Child`, `Role` and `Tier`
    * `Step` and `Kept`
    * `Kept.closedBy` and `Kept.nodup_owners`
    * `Recorder.Keeps`
    * `Recorder.Commits.keeps`
    * `Recorder.commit_error`
-/

namespace ExecTrace

------------------------------------------------------------
-- Tiers
------------------------------------------------------------

/- How the last activation ended that a call has run. -/
inductive Child where
  | none
  | returned
  | thrown (exception : Snapshot)

/- The classes of objects that wrap a primitive. -/
def boxNames : List String :=
  ["Boolean", "Byte", "Short", "Integer", "Long", "Float", "Double",
    "Character"]

/-
  Whether a snapshot that follows another one shows the object
  that the first one shows. Nothing is asked of a snapshot
  without the number of an object, nor of a wrapped primitive,
  which is wrapped anew for every snapshot.
-/
def Snapshot.Follows (s t : Snapshot) : Prop :=
  match s, t with
  | .ref identity type _, .ref identity' type' _ =>
    identity = 0 ∨ type ∈ boxNames ∨
      identity' = identity ∧ type' = type
  | _, _ => False

namespace Child

/- Whether an activation ended with an exception. -/
def isThrown : Child → Bool
  | .thrown _ => true
  | _ => false

/-
  Whether a caller goes on as the last activation ended, if there
  was one.
-/
def Allows : Child → Resumption Snapshot → Prop
  | .none, _ => True
  | .returned, .aborted _ => False
  | .returned, _ => True
  | .thrown s, .aborted t => s.Follows t
  | .thrown _, _ => False

end Child

/- How an activation ended that ends in some way. -/
def Exit.child : Exit Snapshot → Child
  | .exceptional s => .thrown s
  | _ => .returned

/-
  What an open frame stands for. A call knows how many arguments
  it has, whether it has started an activation directly, and how
  its last activation ended. An activation is a call's own unless
  a conversion to text in front of a constructor runs it.
-/
inductive Role where
  | call (callee : Callee) (args : Nat) (direct : Bool) (child : Child)
  | enter (method : Callee) (own : Bool)

/- An open frame and what it stands for. -/
structure Tier where
  frame : OpenFrame
  role : Role

namespace Role

/- How the last activation of a call ended. -/
def child : Role → Child
  | .call _ _ _ child => child
  | .enter .. => .none

end Role

/-
  Whether an activation is a call's own, by the frames without
  probes in front of it: none of those behind the first of them
  belongs to a conversion to text.
-/
def owns (enclosing : List OuterFrame) : Bool :=
  !(enclosing.drop 1).any fun f => f.cls == Call.runtimeFrame

/- The ledger after an activation, if it `counts`. -/
def settled
    (counts : Bool)
    (child : Child) : List Tier → List Tier
  | ⟨frame, .call callee args direct last⟩ :: rest =>
    ⟨frame, .call callee args direct (if counts then child else last)⟩
      :: rest
  | tiers => tiers

/- The innermost tier has started an activation directly. -/
def started : List Tier → List Tier
  | ⟨frame, .call callee args _ child⟩ :: rest =>
    ⟨frame, .call callee args true child⟩ :: rest
  | tiers => tiers

namespace Program

/- A program declares a method with as many parameters. -/
def Takes
    (p : Program)
    (callee : Callee)
    (args : Nat) : Prop :=
  ∃ c m, p.Declares c m ∧ c.name = callee.cls ∧
    m.name = callee.method ∧ m.signature = callee.signature ∧
    m.arity = args

end Program

/-
  What the ledger asks of an activation that is started directly:
  if a call starts it, it is the first one, and a method of the
  name of the call that takes the arguments of the call.
-/
def AskedFor
    (p : Program)
    (callee : Callee) : List Tier → Prop
  | ⟨_, .call called args direct _⟩ :: _ =>
    direct = false ∧ called.method = callee.method ∧
      p.Takes callee args
  | _ => True

------------------------------------------------------------
-- Events
------------------------------------------------------------

/-
  What an event makes of the ledger. Activations are followed to
  the caller of their call if the ledger is `strict`.
-/
inductive Step (p : Program) (strict : Bool) :
    List Tier → Event → List Tier → Prop where
  | inner
      {tiers : List Tier}
      {e : Event}
      (hOpens : e.opens = none)
      (hEnds : e.ends = none) : Step p strict tiers e tiers
  | call
      {tiers : List Tier}
      {e : Event}
      {callee : Callee}
      {receiver : Option Snapshot}
      {args : List Snapshot}
      {position : Nat}
      (hAction : e.action? = some (.call callee receiver args)) :
      Step p strict tiers e
        (⟨⟨e.id, .call, position⟩,
          .call callee args.length false .none⟩ :: tiers)
  | enter
      {tiers : List Tier}
      {e : Event}
      {callee : Callee}
      {enclosing : List OuterFrame}
      {position : Nat}
      (hAction : e.action? = some (.enter callee enclosing))
      (hDirect : enclosing = [] → AskedFor p callee tiers)
      (hOwn : strict = true → owns enclosing = true →
        ∀ t ∈ tiers.head?, t.role.child.isThrown = false) :
      Step p strict tiers e
        (⟨⟨e.id, .enter, position⟩, .enter callee (owns enclosing)⟩
          :: if enclosing = [] then started tiers else tiers)
  | exit
      {rest : List Tier}
      {e : Event}
      {frame : OpenFrame}
      {callee : Callee}
      {own : Bool}
      {how : Exit Snapshot}
      (hAction :
        e.action? = some (.exit frame.owner callee.method how)) :
      Step p strict (⟨frame, .enter callee own⟩ :: rest) e
        (settled (strict && own) how.child rest)
  | resume
      {rest : List Tier}
      {e : Event}
      {frame : OpenFrame}
      {callee : Callee}
      {args : Nat}
      {direct : Bool}
      {child : Child}
      {how : Resumption Snapshot}
      (hAction : e.action? =
        some (.resume frame.owner callee.cls callee.method how))
      (hChild : strict = true → child.Allows how) :
      Step p strict (⟨frame, .call callee args direct child⟩ :: rest)
        e rest

/-
  Events that keep the rules, and the ledger behind them. They
  are numbered in order, each in the innermost open frame.
-/
inductive Kept (p : Program) (strict : Bool) :
    List Event → List Tier → Prop where
  | start
      {e : Event}
      (hAction : e.action? = none)
      (hRoot : e.parent = none) : Kept p strict [e] []
  | step
      {es : List Event}
      {e : Event}
      {tiers tiers' : List Tier}
      (hKept : Kept p strict es tiers)
      (hLater : ∀ e' ∈ es, e'.id.number < e.id.number)
      (hParent : e.parent = tiers.head?.map fun t => t.frame.owner)
      (hStep : Step p strict tiers e tiers') :
      Kept p strict (es ++ [e]) tiers'

------------------------------------------------------------
-- Opening and Closing Events
------------------------------------------------------------

/- Whether an event opens a frame that stands for something. -/
def Role.OpenedBy (role : Role) (e : Event) : Prop :=
  match role with
  | .call callee n _ _ => ∃ receiver args,
    e.action? = some (.call callee receiver args) ∧ args.length = n
  | .enter callee own => ∃ enclosing,
    e.action? = some (.enter callee enclosing) ∧
      own = owns enclosing

/-
  Whether an event closes the frame of another one for the same
  method.
-/
def Event.ClosedBy (e e' : Event) : Prop :=
  match e.action?, e'.action? with
  | some (.call callee _ _), some (.resume _ cls method _) =>
    callee.cls = cls ∧ callee.method = method
  | some (.enter callee _), some (.exit _ method _) =>
    callee.method = method
  | _, _ => False

/- The kind of the frame that stands for something. -/
def Role.kind : Role → FrameKind
  | .call .. => .call
  | .enter .. => .enter

/- A tier is what it is by the event that opened its frame. -/
def Tier.OpenedBy (t : Tier) (e : Event) : Prop :=
  e.id = t.frame.owner ∧ t.role.OpenedBy e ∧
    t.frame.kind = t.role.kind

section Events

variable {p : Program}
variable {strict : Bool}
variable {es : List Event}
variable {tiers tiers' : List Tier}
variable {e : Event}
variable {t : Tier}

/- Tiers after an activation are opened by the same events. -/
theorem openedBy_settled
    {counts : Bool}
    {child : Child}
    (ht : t ∈ settled counts child tiers) :
    ∃ t' ∈ tiers, ∀ e, t'.OpenedBy e → t.OpenedBy e := by
  unfold settled at ht
  split at ht
  · rcases List.mem_cons.mp ht with rfl | ht
    · exact ⟨_, List.mem_cons_self, fun _ h => h⟩
    · exact ⟨t, List.mem_cons_of_mem _ ht, fun _ h => h⟩
  · exact ⟨t, ht, fun _ h => h⟩

/- Tiers behind a start are opened by the same events. -/
theorem openedBy_started
    (ht : t ∈ started tiers) :
    ∃ t' ∈ tiers, ∀ e, t'.OpenedBy e → t.OpenedBy e := by
  unfold started at ht
  split at ht
  · rcases List.mem_cons.mp ht with rfl | ht
    · exact ⟨_, List.mem_cons_self, fun _ h => h⟩
    · exact ⟨t, List.mem_cons_of_mem _ ht, fun _ h => h⟩
  · exact ⟨t, ht, fun _ h => h⟩

/- A tier is an earlier one, or opened by the event. -/
theorem Step.openedBy
    (h : Step p strict tiers e tiers')
    (ht : t ∈ tiers') :
    t.OpenedBy e ∨
      ∃ t' ∈ tiers, ∀ d, t'.OpenedBy d → t.OpenedBy d := by
  cases h with
  | inner => exact .inr ⟨t, ht, fun _ h => h⟩
  | @call _ _ callee receiver args position hAction =>
    rcases List.mem_cons.mp ht with rfl | ht
    · exact .inl ⟨rfl, ⟨receiver, args, hAction, rfl⟩, rfl⟩
    · exact .inr ⟨t, ht, fun _ h => h⟩
  | @enter _ _ callee enclosing position hAction =>
    rcases List.mem_cons.mp ht with rfl | ht
    · exact .inl ⟨rfl, ⟨enclosing, hAction, rfl⟩, rfl⟩
    · refine .inr ?_
      split at ht
      · exact openedBy_started ht
      · exact ⟨t, ht, fun _ h => h⟩
  | exit =>
    rcases openedBy_settled ht with ⟨t', ht', hOpened⟩
    exact .inr ⟨t', List.mem_cons_of_mem _ ht', hOpened⟩
  | resume =>
    exact .inr ⟨t, List.mem_cons_of_mem _ ht, fun _ h => h⟩

/- A closing event closes a tier for the method it stands for. -/
theorem Step.closes
    {id : EventId}
    (h : Step p strict tiers e tiers')
    (hCloses : e.closes = some id) :
    ∃ t ∈ tiers, t.frame.owner = id ∧
      ∀ d, t.OpenedBy d → d.ClosedBy e := by
  have hAction : ∀ a, e.action? = some a → a.closes = some id := by
    intro a ha
    simpa [Event.closes, ha] using hCloses
  cases h with
  | inner _ hEnds =>
    cases ha : e.action? with
    | none => simp [Event.closes, ha] at hCloses
    | some a =>
      have hNone : a.ends = none := by
        simpa [Event.ends, ha] using hEnds
      have hSome := hAction a ha
      cases a <;> cases hNone <;> cases hSome
  | call ha => cases hAction _ ha
  | enter ha => cases hAction _ ha
  | exit ha =>
    refine ⟨_, List.mem_cons_self, Option.some.inj (hAction _ ha), ?_⟩
    rintro d ⟨_, ⟨_, hOpened, _⟩, _⟩
    simp [Event.ClosedBy, hOpened, ha]
  | resume ha =>
    refine ⟨_, List.mem_cons_self, Option.some.inj (hAction _ ha), ?_⟩
    rintro d ⟨_, ⟨_, _, hOpened, _⟩, _⟩
    simp [Event.ClosedBy, hOpened, ha]

namespace Kept

/- Every tier was opened by one of the events. -/
theorem openedBy
    (h : Kept p strict es tiers)
    (ht : t ∈ tiers) : ∃ d ∈ es, t.OpenedBy d := by
  induction h generalizing t with
  | start => cases ht
  | @step es e _ _ _ _ _ hStep ih =>
    rcases hStep.openedBy ht with hOpened | ⟨t', ht', hOpened⟩
    · exact ⟨e, by simp, hOpened⟩
    · rcases ih ht' with ⟨d, hd, hOpened'⟩
      exact ⟨d, List.mem_append_left _ hd, hOpened d hOpened'⟩

/- The frame of a tier is of the kind of what it stands for. -/
theorem kind
    (h : Kept p strict es tiers)
    (ht : t ∈ tiers) : t.frame.kind = t.role.kind := by
  rcases h.openedBy ht with ⟨_, _, _, _, hKind⟩
  exact hKind

/-
  A closing event names the class and the method of the event
  that opened the frame it closes.
-/
theorem closedBy
    {id : EventId}
    (h : Kept p strict es tiers)
    (he : e ∈ es)
    (hCloses : e.closes = some id) :
    ∃ d ∈ es, d.id = id ∧ d.ClosedBy e := by
  induction h with
  | @start d hAction _ =>
    cases List.mem_singleton.mp he
    simp [Event.closes, hAction] at hCloses
  | @step es d _ _ hKept _ _ hStep ih =>
    rcases List.mem_append.mp he with he | he
    · rcases ih he with ⟨d, hd, hSame⟩
      exact ⟨d, List.mem_append_left _ hd, hSame⟩
    · cases List.mem_singleton.mp he
      rcases hStep.closes hCloses with ⟨t, ht, rfl, hClosed⟩
      rcases hKept.openedBy ht with ⟨d, hd, hOpened⟩
      exact ⟨d, List.mem_append_left _ hd, hOpened.1,
        hClosed d hOpened⟩

end Kept

end Events

------------------------------------------------------------
-- Open Frames
------------------------------------------------------------

section Frames

variable {p : Program}
variable {strict : Bool}
variable {es : List Event}
variable {tiers tiers' : List Tier}
variable {d e : Event}
variable {t : Tier}

/- The open frames stay when an activation has ended. -/
@[simp] theorem frames_settled
    (counts : Bool)
    (child : Child) :
    (settled counts child tiers).map Tier.frame
      = tiers.map Tier.frame := by
  unfold settled
  split <;> rfl

/- The open frames stay when an activation is started. -/
@[simp] theorem frames_started :
    (started tiers).map Tier.frame = tiers.map Tier.frame := by
  unfold started
  split <;> rfl

/- A step opens a frame, closes the innermost one, or neither. -/
theorem Step.frames
    (h : Step p strict tiers e tiers') :
    (∃ f : OpenFrame, f.owner = e.id ∧
      tiers'.map Tier.frame = f :: tiers.map Tier.frame) ∨
    tiers'.map Tier.frame = tiers.map Tier.frame ∨
    tiers'.map Tier.frame = (tiers.map Tier.frame).tail := by
  cases h with
  | inner => exact .inr (.inl rfl)
  | @call _ _ _ _ _ position =>
    exact .inl ⟨⟨e.id, .call, position⟩, rfl, rfl⟩
  | @enter _ _ _ _ position =>
    refine .inl ⟨⟨e.id, .enter, position⟩, rfl, ?_⟩
    split <;> simp
  | exit => exact .inr (.inr (frames_settled _ _))
  | resume => exact .inr (.inr rfl)

namespace Kept

/- Events that are kept are told apart by their numbers. -/
theorem unique
    (h : Kept p strict es tiers)
    (hd : d ∈ es)
    (he : e ∈ es)
    (hSame : d.id = e.id) : d = e := by
  induction h with
  | start => rw [List.mem_singleton.mp hd, List.mem_singleton.mp he]
  | @step es x _ _ _ hLater _ _ ih =>
    have hNew : ∀ d ∈ es, d.id ≠ x.id := by
      intro d hd hSame
      have hLess := hLater d hd
      rw [hSame] at hLess
      exact UInt64.lt_irrefl _ hLess
    simp only [List.mem_append, List.mem_singleton] at hd he
    rcases hd with hd | rfl <;> rcases he with he | rfl
    · exact ih hd he
    · exact absurd hSame (hNew d hd)
    · exact absurd hSame.symm (hNew e he)
    · rfl

/- An event is below an earlier one, if below any. -/
theorem parents
    {id : EventId}
    (h : Kept p strict es tiers)
    (he : e ∈ es)
    (hParent : e.parent = some id) :
    ∃ d ∈ es, d.id = id ∧ d.id.number < e.id.number := by
  induction h with
  | start _ hRoot =>
    rw [List.mem_singleton.mp he, hRoot] at hParent
    cases hParent
  | @step es x tiers _ hKept hLater hHead _ ih =>
    simp only [List.mem_append, List.mem_singleton] at he ⊢
    rcases he with he | rfl
    · rcases ih he with ⟨d, hd, hSame⟩
      exact ⟨d, .inl hd, hSame⟩
    · rw [hHead, Option.map_eq_some_iff] at hParent
      rcases hParent with ⟨t, ht, rfl⟩
      rcases hKept.openedBy (List.mem_of_mem_head? ht) with
        ⟨d, hd, hOpened⟩
      exact ⟨d, .inl hd, hOpened.1, hLater d hd⟩

/- No event is below the last one. -/
theorem childless
    (h : Kept p strict (es ++ [e]) tiers)
    (hLater : ∀ e' ∈ es, e'.id.number < e.id.number)
    (hd : d ∈ es ++ [e]) : d.parent ≠ some e.id := by
  intro hParent
  rcases h.parents hd hParent with ⟨_, _, hId, hLess⟩
  have hLast : d.id.number ≤ e.id.number := by
    rcases List.mem_append.mp hd with hd | hd
    · exact UInt64.le_of_lt (hLater d hd)
    · rw [List.mem_singleton.mp hd]
      exact UInt64.le_refl _
  rw [hId] at hLess
  exact UInt64.lt_irrefl _ (UInt64.lt_of_lt_of_le hLess hLast)

/- The open frames were opened by different events. -/
theorem nodup_owners
    (h : Kept p strict es tiers) :
    ((tiers.map Tier.frame).map OpenFrame.owner).Nodup := by
  induction h with
  | start => exact .nil
  | @step es x tiers tiers' hKept hLater _ hStep ih =>
    rcases hStep.frames with ⟨f, hOwner, hNew⟩ | hSame | hTail
    · rw [hNew, List.map_cons, List.nodup_cons]
      refine ⟨fun hOld => ?_, ih⟩
      simp only [List.mem_map] at hOld
      rcases hOld with ⟨_, ⟨t, ht, rfl⟩, hSame⟩
      rcases hKept.openedBy ht with ⟨d, hd, hOpened⟩
      have hLess := hLater d hd
      rw [hOpened.1, hSame, hOwner] at hLess
      exact UInt64.lt_irrefl _ hLess
    · rwa [hSame]
    · rw [hTail, List.map_tail]
      exact ih.tail

/- A call that an event opened is a call in the ledger. -/
theorem call_of_owner
    {called : Callee}
    {receiver : Option Snapshot}
    {args : List Snapshot}
    (h : Kept p strict es tiers)
    (ht : t ∈ tiers)
    (hd : d ∈ es)
    (hOwner : t.frame.owner = d.id)
    (hCall : d.action? = some (.call called receiver args)) :
    ∃ direct child, t.role = .call called args.length direct child := by
  rcases h.openedBy ht with ⟨d', hd', hId, hOpened, _⟩
  obtain rfl := h.unique hd' hd (hId.trans hOwner)
  cases hRole : t.role with
  | enter callee own =>
    rw [hRole] at hOpened
    rcases hOpened with ⟨_, hEnter, _⟩
    simp [hCall] at hEnter
  | call callee n direct child =>
    rw [hRole] at hOpened
    rcases hOpened with ⟨_, _, hOther, hLength⟩
    rw [hCall] at hOther
    cases hOther
    exact ⟨direct, child, hLength ▸ rfl⟩

end Kept

end Frames

------------------------------------------------------------
-- Recorders
------------------------------------------------------------

namespace Recorder

/-
  A recorder whose events keep the rules, with the ledger of its
  open frames.
-/
structure Keeps
    (p : Program)
    (strict : Bool)
    (r : Recorder)
    (tiers : List Tier) : Prop where
  frames : r.frames = tiers.map Tier.frame
  kept : Kept p strict r.forest.nodes.toList tiers
  ordered : r.Ordered
  sound : ∃ g, r.Sound g

variable {p : Program}
variable {strict : Bool}
variable {r r' : Recorder}
variable {tiers tiers' rest : List Tier}
variable {a : Action Unit Snapshot}
variable {span : Span}

/- A new recorder keeps the rules. -/
theorem keeps_create
    (echo : Bool)
    (time : Timestamp) :
    (create echo time).Keeps p strict [] where
  frames := rfl
  kept := .start (e := ⟨.first, none, .initialization time⟩) rfl rfl
  ordered := ordered_create echo time
  sound := ⟨_, sound_create echo time⟩

/- Whether a recorder is suspended does not matter. -/
theorem Keeps.suspension
    (h : r.Keeps p strict tiers)
    (b : Bool) : { r with suspended := b }.Keeps p strict tiers where
  frames := h.frames
  kept := h.kept
  ordered := h.ordered.suspension b
  sound := h.sound.imp fun _ hSound => hSound.suspension b

/-
  An action that closes nothing, or what is the innermost open
  frame, is recorded unless there are no numbers left.
-/
theorem commit_error
    {misuse : Misuse}
    (hEnds : ∀ kind, a.ends = some kind →
      ∃ frame rest, r.frames = frame :: rest ∧ frame.kind = kind)
    (h : r.commit a span = .error misuse) : misuse = .exhausted := by
  have hEmit : ∀ what misuse, r.emit? what = .error misuse →
      misuse = .exhausted := by
    intro what misuse hError
    unfold emit? at hError
    split at hError <;> cases hError
    rfl
  unfold commit at h
  cases hKind : a.ends with
  | some kind =>
    rcases hEnds kind hKind with ⟨frame, rest, hFrames, rfl⟩
    simp only [hKind, closable, hFrames, if_true] at h
    split at h <;> cases h
    rename_i hError
    exact hEmit _ _ hError
  | none =>
    simp only [hKind] at h
    split at h
    · cases h
      rename_i hError
      exact hEmit _ _ hError
    · split at h <;> cases h

namespace Commits

/- An event that keeps the rules is recorded. -/
theorem keeps
    (hDone : r.Commits a span r')
    (h : r.Keeps p strict tiers)
    (hStep : Step p strict tiers (r.eventOf a span) tiers')
    (hFrames : r.framesAfter a = tiers'.map Tier.frame) :
    r'.Keeps p strict tiers' where
  frames := hDone.frames.trans hFrames
  kept := by
    have hNodes : r'.forest.nodes.toList
        = r.forest.nodes.toList ++ [r.eventOf a span] := by
      rw [hDone.forest, Forest.push_nodes, Array.toList_push]
    rw [hNodes]
    refine .step h.kept (fun e he => ?_) ?_ hStep
    · exact h.ordered.earlier e (Array.mem_toList_iff.mp he)
    · change r.frames.head?.map OpenFrame.owner = _
      rw [h.frames, List.head?_map, Option.map_map]
      rfl
  ordered := hDone.ordered h.ordered
  sound := by
    rcases h.sound with ⟨g, hSound⟩
    exact ⟨_, hDone.sound hSound⟩

/- An action inside of a frame changes nothing. -/
theorem keeps_inner
    (hDone : r.Commits a span r')
    (h : r.Keeps p strict tiers)
    (hOpens : a.opens = none)
    (hEnds : a.ends = none) : r'.Keeps p strict tiers := by
  refine hDone.keeps h (.inner ?_ ?_) ?_
  · rw [eventOf_opens, hOpens]
  · rw [eventOf_ends, hEnds]
  · unfold framesAfter
    rw [hOpens, hEnds]
    exact h.frames

/- A call opens a frame. -/
theorem keeps_call
    {callee : Callee}
    {receiver : Option Snapshot}
    {args : List Snapshot}
    (hDone : r.Commits (.call callee receiver args) span r')
    (h : r.Keeps p strict tiers) :
    r'.Keeps p strict
      (⟨⟨r.nextId, .call, r.forest.size⟩,
        .call callee args.length false .none⟩ :: tiers) := by
  have hAction : (r.eventOf (.call callee receiver args) span).action? =
      some (.call callee receiver args) := rfl
  exact hDone.keeps h (.call hAction) (congrArg _ h.frames)

/- The start of a method opens a frame. -/
theorem keeps_enter
    {callee : Callee}
    {enclosing : List OuterFrame}
    (hDone : r.Commits (.enter callee enclosing) span r')
    (h : r.Keeps p strict tiers)
    (hDirect : enclosing = [] → AskedFor p callee tiers)
    (hOwn : strict = true → owns enclosing = true →
      ∀ t ∈ tiers.head?, t.role.child.isThrown = false) :
    r'.Keeps p strict
      (⟨⟨r.nextId, .enter, r.forest.size⟩,
          .enter callee (owns enclosing)⟩
        :: if enclosing = [] then started tiers else tiers) := by
  refine hDone.keeps h (.enter rfl hDirect hOwn) ?_
  change _ :: r.frames = _
  rw [h.frames]
  split <;> simp

/- The end of a method closes its frame. -/
theorem keeps_exit
    {frame : OpenFrame}
    {callee : Callee}
    {own : Bool}
    {how : Exit Snapshot}
    (hDone : r.Commits (.exit () callee.method how) span r')
    (h : r.Keeps p strict (⟨frame, .enter callee own⟩ :: rest)) :
    r'.Keeps p strict (settled (strict && own) how.child rest) := by
  have hFrames : r.frames = frame :: rest.map Tier.frame := h.frames
  refine hDone.keeps h (.exit ?_) ?_
  · simp only [eventOf, hFrames]
    rfl
  · rw [frames_settled]
    exact congrArg List.tail hFrames

/- A caller that goes on closes the frame of its call. -/
theorem keeps_resume
    {frame : OpenFrame}
    {callee : Callee}
    {args : Nat}
    {direct : Bool}
    {child : Child}
    {how : Resumption Snapshot}
    (hDone : r.Commits (.resume () callee.cls callee.method how)
      span r')
    (h : r.Keeps p strict
      (⟨frame, .call callee args direct child⟩ :: rest))
    (hChild : strict = true → child.Allows how) :
    r'.Keeps p strict rest := by
  have hFrames : r.frames = frame :: rest.map Tier.frame := h.frames
  refine hDone.keeps h (.resume ?_ hChild) ?_
  · simp only [eventOf, hFrames]
    rfl
  · exact congrArg List.tail hFrames

end Commits

end Recorder

end ExecTrace
