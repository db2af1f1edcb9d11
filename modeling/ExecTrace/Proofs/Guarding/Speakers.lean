import ExecTrace.Proofs.Guarding.Forms
import ExecTrace.Proofs.Unspoken

/-
  The code that is run under guard. Code of a method that reports
  is inside the method once its start was told, and outside of it
  before. Code of a method that reports nothing is outside of every
  method that does. Each kind of code stays in the phases of its
  kind.

  Main declarations:
    * `Inside`, `Outside` and `Muted`
    * `rests_call`
    * `speaks_inside`, `speaks_outside`, `speaks_muted`
-/

namespace ExecTrace

open Run
open Instrument (Site)
open Teller (methodName)

variable {K : Rules}

------------------------------------------------------------
-- Phases of Code
------------------------------------------------------------

/-
  Phases inside of a method of some name that has told that it
  started: the innermost open frame is the one of its start.
-/
def Inside
    (K : Rules)
    (name : String)
    (g : Phase) : Prop :=
  ∀ tiers, g.tape = .running tiers →
    ∃ frame callee own rest,
      tiers = ⟨frame, .enter callee own⟩ :: rest ∧
        callee.method = name ∧ K.floor <:+ rest.map Tier.frame

/-
  Phases of code that has not told that its method started, below
  which no call has run an activation.
-/
structure Outside
    (K : Rules)
    (g : Phase) : Prop where
  deep : g.tape.Deep K
  idle : g.tape.Idle
  bare : bare g.frames = true

/- Phases of code that tells nothing, unless the rules are strict. -/
structure Muted
    (K : Rules)
    (g : Phase) : Prop extends Outside K g where
  lax : K.strict = false

section Phases

variable {g : Phase}
variable {f : Frame}
variable {m : Machine}
variable {name : String}
variable {frames : List Frame}
variable {exception : Option Val}

namespace Inside

/- Nothing below the start of the method is closed. -/
theorem deep (h : Inside K name g) : g.tape.Deep K := by
  intro tiers hTape
  rcases h tiers hTape with ⟨frame, callee, own, rest, rfl, _, hFloor⟩
  exact hFloor.trans (List.suffix_cons _ _)

/- The start of a method has run nothing. -/
theorem idle (h : Inside K name g) : g.tape.Idle := by
  intro tiers hTape tier hTier
  rcases h tiers hTape with ⟨frame, callee, own, rest, rfl, _⟩
  cases hTier
  rfl

/- A method may run whatever it likes. -/
theorem expects
    (h : Inside K name g)
    (method : String)
    (n : Nat) : Expects K method n g where
  deep := h.deep
  idle := h.idle
  direct := fun _ frame callee args direct child rest hTape => by
    rcases h _ hTape with ⟨frame', callee', own, rest', hTiers, _⟩
    cases hTiers

/- What a method runs does not move its own frame. -/
theorem still
    (h : Inside K name g)
    (hm : Moved K frames g exception m) : At K g m := by
  rcases hm with ⟨t, hMoves, hm⟩
  rcases g with ⟨φ, since, tape⟩
  cases hMoves with
  | same => exact hm
  | call =>
    rcases h _ rfl with ⟨frame, callee, own, rest, hTiers, _⟩
    cases hTiers

end Inside

namespace Outside

/- Nothing is asked of a method behind one more frame. -/
theorem push
    (h : Outside K g)
    (hBare : f.instrumented = false) : Outside K (g.push f) where
  deep := h.deep
  idle := h.idle
  bare := by simp [ExecTrace.bare, Phase.push, hBare]

/- A method may be run whatever its name is. -/
theorem expects
    (h : Outside K g)
    (method : String)
    (n : Nat) : Expects K method n g where
  deep := h.deep
  idle := h.idle
  direct := fun hTold => by simp [h.bare] at hTold

/- Behind a return the phase is the same. -/
theorem left (h : Outside K g) : g.left K = g := by
  simp [Phase.left, h.bare]

end Outside

/- What code runs that tells nothing moves no frame. -/
theorem Muted.still
    (h : Muted K g)
    (hm : Moved K g.frames g exception m) : At K g m :=
  hm.still h.bare fun hStrict => by
    rw [h.lax] at hStrict
    cases hStrict

/- The end of a method can be told inside of it. -/
theorem departs_inside : Departs K (Inside K name) where
  deep := fun _ h => h.deep
  left := fun g h => by
    unfold Phase.left
    cases bare g.frames with
    | true => exact h.deep
    | false =>
      intro tiers hTape
      cases hOld : g.tape with
      | held r =>
        rw [cond_false, Phase.on, hOld] at hTape
        cases hTape
      | running tiers' =>
        rcases h _ hOld with ⟨frame, callee, own, rest, rfl, _, hFloor⟩
        rw [cond_false, Phase.on, hOld] at hTape
        cases hTape
        rwa [frames_settled]
  spilt := fun g h m hm => by
    unfold Phase.left at hm
    cases hBare : bare g.frames with
    | true => rwa [hBare] at hm
    | false =>
      rw [hBare] at hm
      refine ⟨hm.frames, hm.since, ?_⟩
      have hTape := hm.tape
      cases hOld : g.tape with
      | held r =>
        rw [cond_false, Phase.on, hOld] at hTape
        exact hTape
      | running tiers' =>
        rcases h _ hOld with ⟨frame, callee, own, rest, rfl, _, hFloor⟩
        rw [cond_false, Phase.on, hOld] at hTape
        exact hTape

/- No end is told outside of a method. -/
theorem departs_outside : Departs K (Outside K) where
  deep := fun _ h => h.deep
  left := fun g h => by
    rw [h.left]
    exact h.deep
  spilt := fun g h m hm => by
    rw [h.left] at hm
    exact hm

end Phases

------------------------------------------------------------
-- Told Calls
------------------------------------------------------------

section Told

variable {g : Phase}
variable {m : Machine}
variable {tier : Tier}
variable {X : Splice}
variable [X.Guards]
variable {r : SiteRunner}
variable {n : Nat}

/- What is spilt of an open call is spilt of what is around it. -/
theorem Lost.unopened
    (hm : Lost K (g.on (g.tape.opened tier)) m) : Lost K g m := by
  rcases g with ⟨φ, since, tape⟩
  cases tape <;> exact ⟨hm.frames, hm.since, hm.tape⟩

/- A call that was just told expects its method. -/
theorem expects_opened
    (hDeep : g.tape.Deep K)
    (frame : OpenFrame)
    (callee : Callee)
    (args : Nat) :
    Expects K callee.method args
      (g.on (g.tape.opened
        ⟨frame, .call callee args false .none⟩)) := by
  rcases g with ⟨φ, since, tape⟩
  cases tape with
  | held s => exact ⟨nofun, nofun, nofun⟩
  | running tiers =>
    refine ⟨?_, ?_, ?_⟩
    · rintro _ ⟨⟩
      exact (hDeep tiers rfl).trans (List.suffix_cons _ _)
    · rintro _ ⟨⟩ _ ⟨⟩
      rfl
    · rintro _ frame' callee' args' direct child rest ⟨⟩
      exact ⟨rfl, rfl, rfl⟩

/- A call that is told leaves nothing behind. -/
theorem obeys_called
    (hi : Invokes K r.invoke)
    (hDeep : g.tape.Deep K)
    (span : Span)
    (callee : Callee)
    (receiver : Option Shown)
    (args : List Shown)
    (ty : Ty)
    {x : Run Val}
    (hx : ∀ g, Expects K callee.method args.length g →
      Ventures K g x) :
    Obeys (At K g)
      (do
        X.teller.say K.program r n span
          (.call callee receiver args)
        X.teller.called K.program r n span
          callee.cls callee.method ty x)
      (fun _ => At K g) (fun _ => At K g) (Lost K g) := by
  refine Obeys.via (fun _ m => ∃ frame, At K
      (g.on (g.tape.opened
        ⟨frame, .call callee args.length false .none⟩)) m)
    ((obeys_call hi callee receiver args).weaken (fun _ hm => hm)
      (fun _ _ hm => hm) (fun _ _ hm => hm.elim) fun _ hm => hm.elim)
    fun _ m ⟨frame, hm⟩ => ?_
  have hRun := hx _ (expects_opened hDeep frame callee args.length)
  have hRun' : Obeys _ x _ _ (Lost K g) :=
    hRun.weaken (fun _ hm => hm) (fun _ _ hm => hm) (fun _ _ hm => hm)
      fun _ hm => hm.unopened
  refine Obeys.bind (hRun'.onThrow fun v => ?_) (fun v => ?_) m hm
  · refine (obeys_resume hi (.aborted (shown Ty.throwable v)) ?_).weaken
      (fun _ hm => hm) (fun _ _ hm => hm) (fun _ _ hm => hm)
      fun _ hm => hm.elim
    rintro s ⟨⟩
    rfl
  · refine Obeys.via (fun _ => At K g) ?_ fun _ =>
      .pure fun _ hm => hm
    cases hVoid : decide (ty = .void) with
    | true =>
      rw [if_pos (by simpa using hVoid)]
      exact (obeys_resume hi .void nofun).weaken (fun _ hm => hm)
        (fun _ _ hm => hm) (fun _ _ hm => hm.elim) fun _ hm => hm.elim
    | false =>
      rw [if_neg (by simpa using hVoid)]
      exact (obeys_resume hi (.returned _) nofun).weaken
        (fun _ hm => hm) (fun _ _ hm => hm) (fun _ _ hm => hm.elim)
        fun _ hm => hm.elim

/- A method that has told that it started tells that it ends. -/
theorem obeys_leave
    (hi : Invokes K r.invoke)
    {name : String}
    (span : Span)
    (how : Exit Shown)
    (hKind : ∀ s, how = .exceptional s → s.kind = .reference)
    (h : Inside K name g) :
    Obeys (At K g)
      (X.teller.leave K.program r n span name how)
      (fun _ m => bare g.frames = false ∧ ∃ child : Child,
        child.Fits m.heap how.exception? ∧
          At K (g.on (g.tape.shut K child)) m)
      (fun _ _ => False) fun _ => False := by
  change Obeys _ (do
    watch X.observer (.leaving name)
    X.teller.tell K.program r.invoke n span
      fun _ => .exit () name how) _ _ _
  refine Obeys.via
    (fun _ m => At K g m ∧ bare g.frames = false) ?_ fun _ => ?_
  · refine .watch fun m hm hWatch => ⟨hm, ?_⟩
    rw [← hm.frames]
    exact Splice.Guards.not_bare hWatch
  · refine .assuming (fun _ hm => hm.2) fun hBare => ?_
    refine (obeys_exit hi name how hKind fun tiers hTape => ?_).weaken
      (fun _ hm => hm.1) (fun _ _ hm => ⟨hBare, hm⟩) (fun _ _ hm => hm)
      fun _ hm => hm
    rcases h tiers hTape with
      ⟨frame, callee, own, rest, hTiers, hName, _⟩
    exact ⟨frame, callee, own, rest, hTiers, hName⟩

end Told

------------------------------------------------------------
-- Speakers
------------------------------------------------------------

section Speakers

variable {X : Splice}
variable [X.Guards]
variable {r : SiteRunner}
variable {n : Nat}
variable {name : String}
variable {t : Test}

/- What is asked of the parts of a program at some sites. -/
structure Parts
    (K : Rules)
    (r : SiteRunner)
    (via : Option String)
    (t : Test)
    (G : Phase → Prop) : Prop where
  eval : ∀ site : Option Site, site.map Site.method = via →
    ∀ e : Expr, e.passes t = true → Rests K G (r.eval site e)
  exec : ∀ site : Option Site, site.map Site.method = via →
    ∀ s : Stmt, s.passes t = true →
      Ends K G Flow.isReturn (r.exec site s)

/- The name at a site inside of a method. -/
theorem methodName_eq
    {site : Option Site}
    (h : site.map Site.method = some name) :
    methodName site = name := by
  unfold methodName
  rw [h]
  rfl

/- Text is converted outside of a method without a trace. -/
theorem Outside.rests_textOf
    {i : Invoker}
    (hi : Invokes K i)
    (v : Val) :
    Rests K (Outside K) (Call.textOf K.program i "concat" v) :=
  fun _ hg => (obeys_textOf hi hg.deep hg.idle "concat" v).weaken
    (fun _ hm => hm)
    (fun _ _ hm => hm.still rfl fun _ =>
      not_owned_textFrame hg.bare "concat")
    (fun _ _ hm => hm.still rfl fun _ =>
      not_owned_textFrame hg.bare "concat")
    fun _ hm => hm

/- Runs outside of a method are a congruence. -/
theorem congruence_outside : Congruence (Stays K (Outside K)) :=
  congruence_stays (fun _ h => h.deep) fun _ h _ hBare => h.push hBare

/- Code inside of a method stays in its phases. -/
theorem speaks_inside
    (hSource : t.Weaker Test.source)
    (hi : Invokes K r.invoke)
    (h : Parts K r (some name) t (Inside K name)) :
    Speaks K X.teller r n (some name) t (Inside K name) where
  congruence := congruence_stays (fun _ h => h.deep)
    fun _ h _ _ => h
  departs := departs_inside
  sourceExpr := hSource.expr
  sourceStmt := hSource.stmt
  text := fun v _ hg =>
    (obeys_textOf hi hg.deep hg.idle "concat" v).weaken
      (fun _ hm => hm) (fun _ _ hm => hg.still hm)
      (fun _ _ hm => hg.still hm) fun _ hm => hm
  tell := fun span act hInner =>
    Unmoved.stays (fun _ _ => unmoved_tell hi hInner) _
  call := fun span callee receiver args ty x hx _ hg =>
    obeys_called hi hg.deep span callee receiver args ty hx
  superCall := fun _ _ _ _ cls self vs _ hg =>
    (ventures_superCall hi cls self vs (hg.expects _ _)).weaken
      (fun _ hm => hm) (fun _ _ hm => hg.still hm)
      (fun _ _ hm => hg.still hm) fun _ hm => hm
  leave := fun site hSite span how hHow g hg => by
    rw [methodName_eq hSite]
    refine (obeys_leave hi span how ?_ hg).weaken (fun _ hm => hm) ?_
      (fun _ _ hm => hm.elim) fun _ hm => hm.elim
    · rintro s rfl
      cases hHow
    · rintro _ m ⟨hBare, child, hFits, hm⟩
      rw [hHow] at hFits
      cases child with
      | none => exact hFits.elim
      | returned =>
        unfold Phase.left
        rw [hBare]
        exact hm
      | thrown s =>
        rcases hFits with ⟨_, _, hNone, _⟩
        cases hNone
  eval := h.eval
  exec := h.exec

/-
  Code in front of the start of a method stays in its phases, if
  it has no super call, or the rules are not strict.
-/
theorem speaks_outside
    (hSource : t.Weaker Test.source)
    (hSuper : K.strict = true → ∀ signature args span,
      t.stmt ⟨.superCall signature args, span⟩ = false)
    (hi : Invokes K r.invoke)
    (h : Parts K r (some name) t (Outside K)) :
    Speaks K X.teller r n (some name) t (Outside K) where
  congruence := congruence_outside
  departs := departs_outside
  sourceExpr := hSource.expr
  sourceStmt := hSource.stmt
  text := Outside.rests_textOf hi
  tell := fun span act hInner =>
    Unmoved.stays (fun _ _ => unmoved_tell hi hInner) _
  call := fun span callee receiver args ty x hx _ hg =>
    obeys_called hi hg.deep span callee receiver args ty hx
  superCall := fun signature args span hTest cls self vs g hg => by
    have hLax : K.strict = false := by
      by_contra hStrict
      simp [hSuper (by simpa using hStrict)] at hTest
    have hMuted : Muted K g := ⟨hg, hLax⟩
    exact (ventures_superCall hi cls self vs (hg.expects _ _)).weaken
      (fun _ hm => hm) (fun _ _ hm => hMuted.still hm)
      (fun _ _ hm => hMuted.still hm) fun _ hm => hm
  leave := fun site hSite span how hHow g hg => by
    -- The guard stops a return in front of the start.
    refine Obeys.via (fun _ _ => False)
      (.watch fun m hm hWatch => ?_) fun _ _ h => h.elim
    have hBare := hg.bare
    rw [← hm.frames, Splice.Guards.not_bare hWatch] at hBare
    cases hBare
  eval := h.eval
  exec := h.exec

/- Code that tells nothing stays in its phases. -/
theorem speaks_muted
    {T : Teller}
    (hSource : t.Weaker Test.source)
    (hi : Invokes K r.invoke)
    (h : Parts K r none t (Muted K)) :
    Speaks K T.muted r n none t (Muted K) where
  congruence := congruence_stays (fun _ h => h.deep)
    fun _ h _ hBare => ⟨h.push hBare, h.lax⟩
  departs := ⟨fun _ h => h.deep, fun g h => departs_outside.left g h.1,
    fun g h => departs_outside.spilt g h.1⟩
  sourceExpr := hSource.expr
  sourceStmt := hSource.stmt
  text := fun v => (Outside.rests_textOf hi v).weaken fun _ h => h.1
  tell := fun _ _ _ => fun _ _ => .pure fun _ hm => hm
  call := fun span callee receiver args ty x hx g hg => by
    have hSay : T.muted.say K.program r n span
        (.call callee receiver args) = pure () := rfl
    rw [hSay, pure_bind, (Teller.mute_muted T).called]
    exact (hx g (hg.expects _ _)).weaken (fun _ hm => hm)
      (fun _ _ hm => hg.still hm) (fun _ _ hm => hg.still hm)
      fun _ hm => hm
  superCall := fun _ _ _ _ cls self vs _ hg =>
    (ventures_superCall hi cls self vs (hg.expects _ _)).weaken
      (fun _ hm => hm) (fun _ _ hm => hg.still hm)
      (fun _ _ hm => hg.still hm) fun _ hm => hm
  leave := fun site _ span how _ g hg => by
    rw [hg.left]
    exact .pure fun _ hm => hm
  eval := h.eval
  exec := h.exec

end Speakers

end ExecTrace
