import ExecTrace.Proofs.Detached
import ExecTrace.Proofs.Splicing.Statements
import ExecTrace.Proofs.Unspoken

/-
  Spliced bodies. The rest of a body behind the probe of its
  start runs under a handler, so it has one scope more in the
  second run, in which both runs declare variables. Nobody looks
  at the variables behind the end of a body: what is told of an
  exception does not depend on them.

  Main declarations:
    * `sim_sunk`
    * `Spliced.sim_guardedRest`
    * `Spliced.sim_toldBody` and `Spliced.sim_untoldBody`
    * `Spliced.agrees_perform`
-/

namespace ExecTrace

open Run
open Teller (runner)
open Instrument (Site Options fresh reporting probeAt rethrowing
  hidden_fresh)

------------------------------------------------------------
-- Variables of Their Own
------------------------------------------------------------

/- Machines with the same variables are linked in some shape. -/
theorem World.linked
    {J : Joint}
    {since : Heap}
    {m n : Machine}
    (hw : World J since m n)
    (hScopes : n.locals.scopes ≠ []) :
    ∃ t : Shape, t.since = since ∧
      Linked J t { m with locals := n.locals } n := by
  cases hList : n.locals.scopes with
  | nil => exact absurd hList hScopes
  | cons b rest =>
    refine ⟨
      { since := since, ret := n.locals.ret, top := hiddenPart b
        rest := rest.map fun c => [hiddenPart c] },
      rfl, hw.locals n.locals n.locals, rfl, rfl, rfl, rfl, ?_⟩
    simp only [hList]
    exact Layered.refl b rest

/- What is known outside of the frame of a body after a cut. -/
def worldCut (since : Heap) : Cut :=
  (Bond.level fun _ => True).bodyCut () fun J => World J since

/- A cut inside of some scopes, seen from outside of the frame. -/
theorem worldCut_of_levelCut
    {s : Shape}
    (c : Interrupt)
    (m n : Machine)
    (h : levelCut s c m n) : worldCut s.since c m n := by
  cases c with
  | throw v =>
    rcases h with ⟨top, h⟩
    exact h.world
  | fault cause =>
    rcases h with ⟨top, h⟩
    exact h.world
  | _ => trivial

/-
  The first run does not depend on its variables, so it is
  compared as if it had those of the second run.
-/
theorem sim_detached
    {S : Slack}
    {α β : Type}
    {since : Heap}
    {x : Run α}
    {y : Run β}
    (hx : Detached x)
    (h : ∀ t : Shape, t.since = since →
      Mirrors S t (fun _ _ _ _ => False) x y) :
    Sim S
      (fun m n => World Joint.level since m n ∧
        n.locals.scopes ≠ [])
      (fun _ _ _ _ => False) (worldCut since) x y := by
  intro m n ⟨hw, hScopes⟩
  rcases hw.linked hScopes with ⟨t, ht, hl⟩
  have hEnd := h t ht _ _ hl
  have hSame : x m = ((x { m with locals := n.locals }).1,
      { (x { m with locals := n.locals }).2 with
        locals := m.locals }) :=
    hx { m with locals := n.locals } m.locals
  rw [hSame]
  generalize x { m with locals := n.locals } = r at hEnd
  generalize y n = e at hEnd
  cases hEnd with
  | ok hFalse => exact hFalse.elim
  | @alike c d k k' hAlike hCut =>
    refine .alike hAlike ?_
    have hWorld : Loose Joint.level t k k' →
        World Joint.level since { k with locals := m.locals }
          k' := by
      intro ⟨top, hk⟩
      rw [← ht]
      exact hk.world.locals _ k'.locals
    cases c with
    | throw v => exact hWorld hCut
    | fault c => exact hWorld hCut
    | _ => trivial
  | first hFirst => exact .first hFirst
  | second hSecond => exact .second hSecond

------------------------------------------------------------
-- A Scope below the Layers
------------------------------------------------------------

/- What is known in a body whose first scope lies below. -/
def sunkShape
    (ret : Ty)
    (since : Heap) : Shape :=
  { since := since, ret := ret, depth := 1 }

/- What is known behind the scope of a body after a cut. -/
def sunkCut (since : Heap) : Cut
  | .throw _, m, n =>
    World Joint.level since m n ∧ n.locals.scopes ≠ []
  | .fault _, m, n => World Joint.level since m n
  | _, _, _ => True

/- The first scope of the second run lies below another one. -/
theorem Linked.sink
    {J : Joint}
    {ret : Ty}
    {since : Heap}
    {top : Bindings String}
    {m n : Machine}
    (hl : Linked J { startShape ret since with top := top } m n) :
    Linked J (sunkShape ret since) m n.enterScope := by
  have hOne := hl.locals.scopes.length_right
  refine ⟨hl.world.locals m.locals _,
    ⟨hl.locals.self, hl.locals.cls, hl.locals.retLeft,
      hl.locals.retRight, ?_⟩⟩
  have hScopes := hl.locals.scopes
  change Layered 1 [[[]]] m.locals.scopes
    ([] :: n.locals.scopes)
  generalize n.locals.scopes = rs at hOne hScopes
  rcases List.length_eq_one_iff.mp hOne with ⟨b, rfl⟩
  exact hScopes.sink

/- A body in a scope of its own in the second run only. -/
theorem sim_sunk
    {S : Slack}
    {α : Type}
    {ret : Ty}
    {since : Heap}
    {x y : Run α}
    (h : Mirrors S (sunkShape ret since)
      (SameEnd (sunkShape ret since)) x y) :
    Sim S (Loose Joint.level (startShape ret since))
      (fun a b m n => a = b ∧ World Joint.level since m n)
      (sunkCut since) x (inScope y) := by
  intro m n ⟨top, hl⟩
  have hEnd := h m n.enterScope hl.sink
  have hOne : n.locals.scopes.length = 1 :=
    hl.locals.scopes.length_right
  have hTwo : ∀ {m' n' : Machine},
      Loose Joint.level (sunkShape ret since) m' n' →
      n'.locals.scopes.length = n.locals.scopes.length + 1 := by
    intro m' n' ⟨_, hl'⟩
    rw [hl'.length_right, hOne]
    rfl
  have hWorld : ∀ {m' n' : Machine},
      Loose Joint.level (sunkShape ret since) m' n' →
      World Joint.level since m' n'.leaveScope :=
    fun ⟨_, hl'⟩ => hl'.world.locals _ _
  generalize hy : y n.enterScope = e at hEnd
  generalize x m = r at hEnd
  cases hEnd with
  | ok hPost =>
    rw [inScope_apply hy (hTwo hPost.2)]
    exact .ok ⟨hPost.1, hWorld hPost.2⟩
  | @alike c d m' n' hAlike hCut =>
    cases hAlike with
    | throw v hv =>
      have hLength := hTwo hCut
      rw [inScope_apply hy hLength]
      refine .alike (.throw v hv) ⟨hWorld hCut, ?_⟩
      intro hNil
      have hTail := congrArg List.length hNil
      simp [Machine.leaveScope, hLength, hOne] at hTail
    | fault c d =>
      rw [inScope_apply hy (hTwo hCut)]
      exact .alike (.fault c d) (hWorld hCut)
    | panic text hText =>
      rcases inScope_error hy with ⟨_, hy'⟩
      rw [hy']
      exact .alike (.panic text hText) trivial
    | outOfFuel =>
      rcases inScope_error hy with ⟨_, hy'⟩
      rw [hy']
      exact .alike .outOfFuel trivial
    | stopped why hWhy =>
      rcases inScope_error hy with ⟨_, hy'⟩
      rw [hy']
      exact .alike (.stopped why hWhy) trivial
    | answered why text hWhy =>
      rcases inScope_error hy with ⟨_, hy'⟩
      rw [hy']
      exact .alike (.answered why text hWhy) trivial
  | first hFirst => exact .first hFirst
  | second hSecond =>
    rcases inScope_error hy with ⟨_, hy'⟩
    rw [hy']
    exact .second hSecond

------------------------------------------------------------
-- Telling
------------------------------------------------------------

section Telling

variable {X : Splice}
variable {p : Program}
variable {n : Nat}

/- Whether actions are recorded does not depend on variables. -/
theorem detached_isRecording : Detached isRecording := by
  intro m l
  rw [isRecording_apply, isRecording_apply]
  rfl

/- A told run of a method does not depend on variables. -/
theorem Teller.detached_invoke
    (T : Teller)
    (p : Program)
    (n : Nat) : DetachedInvoker (T.invoke p n) := by
  cases n with
  | zero => exact fun _ _ _ _ => .throw _
  | succ n =>
    intro c m self args
    exact detached_activate (w := T.observer) (p := p)
      (i := T.invoke p n)
      (T.runBody p (T.runner p n) n c m) c m self args

/- A told run of a method does not depend on variables. -/
theorem Splice.detached_invoke
    (X : Splice)
    (p : Program)
    (n : Nat) : DetachedInvoker (X.teller.invoke p n) :=
  X.teller.detached_invoke p n

/- An action that is told does not depend on variables. -/
theorem Splice.detached_say
    (hCoarse : X.observer.Coarse)
    (span : Span)
    (a : Action Unit Shown) :
    Detached (X.teller.say p (X.teller.runner p n) n span a) := by
  have hTraced : Detached
      ((Teller.traced X.observer X.options X.exclusions).tell p
        (X.teller.invoke p n) n span fun _ => a) := by
    refine detached_isRecording.bind fun b => ?_
    cases b with
    | false => exact .pure _
    | true =>
      refine Detached.look (fun _ => ?_) fun _ _ => rfl
      refine (detached_record (fun s => ?_) _ _).bind
        fun _ => .watch (hCoarse.locals .recorded)
      exact detached_captureValue
        (fun kind v m l => hCoarse.locals (.captured kind v) m l)
        (X.detached_invoke p n) n s.kind s.value
  change Detached ((get : Run Machine) >>= fun _ =>
    if X.sound a then
      (Teller.traced X.observer X.options X.exclusions).tell p
        (X.teller.invoke p n) n span fun _ => a
    else throw (.stopped Splice.unsound))
  refine Detached.look (fun _ => ?_) fun _ _ => rfl
  split
  · exact hTraced
  · exact .throw _

/- The end of a method is told without its variables. -/
theorem Splice.detached_leave
    (hCoarse : X.observer.Coarse)
    (span : Span)
    (method : String)
    (how : Exit Shown) :
    Detached
      (X.teller.leave p (X.teller.runner p n) n span method
        how) :=
  (Detached.watch (hCoarse.locals (.leaving method))).bind
    fun _ => Splice.detached_say hCoarse span _

end Telling

section Bodies

variable {S : Slack}
variable {w : Observer}
variable {X : Splice}
variable {p q : Program}
variable {n j k : Nat}
variable {s : Shape}
variable {since : Heap}
variable {c c' : Nat}

/- The mark of a frame is made on both sides. -/
theorem mirrors_mark :
    Mirrors S s (fun _ _ m m' => Linked Joint.level s m m')
      markInstrumented markInstrumented := by
  intro k k' hk
  unfold markInstrumented
  rw [modify_apply, modify_apply, hk.frames_eq]
  cases hFrames : k.frames with
  | nil => exact .ok hk
  | cons f rest =>
    refine .ok (hk.onJoint ?_)
    rw [hk.recorder_eq]
    rfl

/- The start of a method is told where a probe stands. -/
theorem Attuned.sim_enterProbe
    (h : Attuned S X w p q n)
    (hk : Spare S n (j + 1) k)
    (hj : j < 8)
    (callee : Callee)
    (span : Span) :
    Mirrors S s
      (fun _ flow m m' => flow = .normal ∧
        Linked Joint.level s m m')
      (do
        markInstrumented
        X.teller.tell p (X.teller.invoke p n) n span
          fun k => .enter callee (enclosingFrames k.frames)
        watch X.observer (.entered callee))
      (exec w q k (probeAt (.enter callee) span)) := by
  refine Sim.execRight hk fun k hk => ?_
  have hTell : Mirrors S s
      (fun _ _ m m' => Linked Joint.level s m m')
      (X.teller.tell p (X.teller.invoke p n) n span
        fun k => .enter callee (enclosingFrames k.frames))
      (recordProbe w q (ExecTrace.eval w q k)
        (ExecTrace.invoke w q k) k (.enter callee) span) := by
    refine sim_report h.follows h.sharp h.halts h.paired
      (h.invoke k (hk.enough hj)) (hk.enough hj).paced trivial
      (fun _ _ hm => hm) (fun m m' hm => ?_) span
    refine ⟨h.fair.plain _ rfl, .enter callee,
      .enter callee (enclosingFrames m'.frames), .pure _, rfl, ?_⟩
    intro f
    rw [hm.frames_eq]
    rfl
  have hWatch : Mirrors S s
      (fun _ _ m m' => Linked Joint.level s m m')
      (watch X.observer (.entered callee))
      (watch w (.entered callee)) :=
    sim_watch (h.follows.watches h.halts rfl fun _ => rfl)
      (fun _ _ _ => trivial) s
  change Mirrors S s _ _
    (do
      pure ()
      report w q (ExecTrace.eval w q k) (ExecTrace.invoke w q k) k
        (.enter callee) span
      watch w (.entered callee)
      pure Flow.normal)
  rw [report_enter]
  simp only [bind_assoc]
  refine mirrors_mark.bind fun _ _ => hTell.bind fun _ _ => ?_
  rw [← bind_pure (watch X.observer _)]
  exact hWatch.bind fun _ _ => Sim.pure fun _ _ hm => ⟨rfl, hm⟩

/- The rest of a body is told where it stands. -/
theorem Spliced.mirrors_rest
    (h : Spliced S X w p q n)
    (hk : Spare S n (j + 3) k)
    (hj : j + 3 < 8)
    {m : MethodDef}
    {site : Site}
    {body inner : List Stmt}
    (hBody : passStmts Test.source body = true)
    (hPass : Instrument.block X.options site body c
      = .ok (inner, c'))
    (hs : s.ret = site.ret)
    (ho : s.outer = []) :
    Mirrors S s (SameEnd s)
      (X.teller.restOfBody p (X.teller.runner p n) n (some site) m
        body)
      (runAll (ExecTrace.exec w q k)
        (inner ++ Instrument.endOfBody m)) := by
  rw [runAll_append]
  refine (Mirrors.ofKeeps (h.keeps_block hk hj hBody hPass) hs
    ho).bind fun a b => ?_
  intro k₁ k₂ ⟨hab, hm⟩
  subst hab
  cases a with
  | normal =>
    rcases hm with ⟨top, hm⟩
    have hEnd : Mirrors S { s with top := top }
        (SameEnd { s with top := top })
        (do
          if m.ret = .void then
            X.teller.leave p (X.teller.runner p n) n m.span.ending
              m.name .endOfBody
          pure Flow.normal)
        (runAll (ExecTrace.exec w q k)
          (Instrument.endOfBody m)) := by
      unfold Instrument.endOfBody
      split
      · rw [runAll_eq_andThen]
        refine h.leave hk (by omega) exitTale_endOfBody _ _ ?_
        rw [andThen_nil]
        exact Sim.pure fun _ _ hm => ⟨rfl, hm.loose⟩
      · exact Sim.pure fun _ _ hm => ⟨rfl, hm.loose⟩
    exact hEnd k₁ k₂ hm
  | _ => exact .ok ⟨rfl, hm⟩

/- The rest of a body is told under a guard. -/
theorem Spliced.sim_guardedRest
    (h : Spliced S X w p q n)
    (hk : Spare S n 7 k)
    {m : MethodDef}
    {site : Site}
    (hRet : site.ret = m.ret)
    {body inner : List Stmt}
    (hBody : passStmts Test.source body = true)
    (hPass : Instrument.block X.options site body c
      = .ok (inner, c')) :
    Sim S (Loose Joint.level (startShape m.ret since))
      (fun a b m n => a = b ∧ World Joint.level since m n)
      (worldCut since)
      (Teller.onThrow
        (X.teller.restOfBody p (X.teller.runner p n) n (some site)
          m body)
        fun e => X.teller.leave p (X.teller.runner p n) n m.span
          m.name (.exceptional (shown Ty.throwable e)))
      (ExecTrace.exec w q k
        ⟨.try (inner ++ Instrument.endOfBody m)
          [rethrowing (fresh "exc" c')
            (fun o => .exit m.name (.exceptional o)) m.span],
          m.span⟩) := by
  have hInner : ∀ k, Spare S n 6 k →
      Sim S (Loose Joint.level (startShape m.ret since))
        (fun a b m n => a = b ∧ World Joint.level since m n)
        (sunkCut since)
        (X.teller.restOfBody p (X.teller.runner p n) n (some site)
          m body)
        (inScope (runAll (ExecTrace.exec w q k)
          (inner ++ Instrument.endOfBody m))) := fun k hk =>
    sim_sunk (h.mirrors_rest (j := 3) hk (by decide) hBody hPass
      hRet.symm rfl)
  refine sim_tryRight hk hInner (fun k hk v hv => ?_)
    (fun _ _ _ hm => hm) ?_
  · refine (sim_detached ?_ fun t _ => ?_).weaken
      (fun _ _ hm => hm) (fun _ _ _ _ hFalse => hFalse.elim)
      fun _ _ _ hm => hm
    · exact (Splice.detached_leave h.follows.coarse _ _ _).bind
        fun _ => .throw _
    · refine sim_rethrowing (j := 3) h.follows hk
        (hidden_fresh _ _) ?_ hv
      intro k hk t v hFound
      simp only
      rw [exec_eq_andThen,
        ← bind_pure (Teller.leave _ _ _ _ _ _ _)]
      refine h.leave hk (by decide) (exitTale_thrown
        (reads_localVar (hidden_fresh _ _) hFound)) _ _ ?_
      rw [andThen_nil]
      exact Sim.pure fun _ _ hm => ⟨rfl, hm⟩
  · intro cut _ _ hHard
    cases cut with
    | throw v => exact absurd rfl (hHard.1 v)
    | fault cause => exact absurd rfl (hHard.2 cause)
    | _ => trivial

------------------------------------------------------------
-- Methods
------------------------------------------------------------

/- The handler around the rest of a body. -/
def guardedRest
    (m : MethodDef)
    (inner : List Stmt)
    (number : Nat) : Stmt :=
  ⟨.try (inner ++ Instrument.endOfBody m)
    [rethrowing (fresh "exc" number)
      (fun o => .exit m.name (.exceptional o)) m.span],
    m.span⟩

/- The site of the body of a method. -/
def siteOf
    (cls : String)
    (m : MethodDef) : Site :=
  { cls := cls, method := m.name, ret := m.ret }

/- A super call stays in front of what a body becomes. -/
theorem Instrument.superFirst_ok
    {o : Options}
    {site : Site}
    {m : MethodDef}
    {body first rest : List Stmt}
    (h : Instrument.superFirst o site m body c
      = .ok ((first, rest), c')) :
    rest = (Teller.splitSuper m body).2 ∧
      Instrument.block o site (Teller.splitSuper m body).1 c
        = .ok (first, c') ∧
      (m.isConstructor = true → ∀ behind,
        startsWithSuper behind = false →
        startsWithSuper (first ++ behind)
          = startsWithSuper body) := by
  have hNone : ∀ {body : List Stmt},
      (pure (([] : List Stmt), body) :
        Instrument.Pass (List Stmt × List Stmt)) c
          = .ok ((first, rest), c') →
      first = [] ∧ rest = body ∧ c = c' := by
    intro body hPure
    rcases Instrument.pure_ok.mp hPure with ⟨hPair, hCount⟩
    rw [Prod.mk.injEq] at hPair
    exact ⟨hPair.1.symm, hPair.2.symm, hCount⟩
  unfold Instrument.superFirst at h
  split at h
  · rename_i signature args span rest'
    split at h
    · rename_i hConstructor
      rcases Instrument.bind_ok.mp h with ⟨ss, k, hFirst, hPure⟩
      rcases Instrument.pure_ok.mp hPure with ⟨hPair, rfl⟩
      rw [Prod.mk.injEq] at hPair
      rcases hPair with ⟨rfl, rfl⟩
      have hSplit : Teller.splitSuper m
          (⟨.superCall signature args, span⟩ :: rest')
          = ([⟨.superCall signature args, span⟩], rest') := by
        simp [Teller.splitSuper, hConstructor, startsWithSuper]
      rw [hSplit]
      refine ⟨rfl, ?_, fun _ behind _ => ?_⟩
      · simp only [Instrument.block]
        refine Instrument.bind_ok.mpr ⟨ss, k, hFirst, ?_⟩
        refine Instrument.bind_ok.mpr
          ⟨[], k, Instrument.pure_ok.mpr ⟨rfl, rfl⟩, ?_⟩
        exact Instrument.pure_ok.mpr ⟨List.append_nil _, rfl⟩
      · simp only [Instrument.stmt, Instrument.stmtForm] at hFirst
        rcases Instrument.bind_ok.mp hFirst with ⟨es, _, _, hPure⟩
        rcases Instrument.pure_ok.mp hPure with ⟨rfl, _⟩
        rfl
    · rename_i hOther
      rcases hNone h with ⟨rfl, rfl, rfl⟩
      have hSplit : Teller.splitSuper m
          (⟨.superCall signature args, span⟩ :: rest')
          = ([], ⟨.superCall signature args, span⟩ :: rest') := by
        simp [Teller.splitSuper, hOther]
      rw [hSplit]
      exact ⟨rfl, Instrument.pure_ok.mpr ⟨rfl, rfl⟩,
        fun hConstructor => absurd hConstructor hOther⟩
  · rename_i hNoSuper
    rcases hNone h with ⟨rfl, rfl, rfl⟩
    have hStart : startsWithSuper rest = false := by
      unfold startsWithSuper
      split
      · exact (hNoSuper _ _ _ _ rfl).elim
      · rfl
    have hSplit : Teller.splitSuper m rest = ([], rest) := by
      simp [Teller.splitSuper, hStart]
    rw [hSplit]
    refine ⟨rfl, Instrument.pure_ok.mpr ⟨rfl, rfl⟩, ?_⟩
    intro _ behind hBehind
    rw [hStart]
    exact hBehind

/- What the body of a method becomes. -/
theorem Instrument.methodBody_ok
    {o : Options}
    {cls : String}
    {m : MethodDef}
    {body body' : List Stmt}
    (h : Instrument.methodBody o cls m body c = .ok (body', c')) :
    ∃ first inner c₁ c₂,
      Instrument.block o (siteOf cls m)
          (Teller.splitSuper m body).1 c = .ok (first, c₁) ∧
        Instrument.block o (siteOf cls m)
          (Teller.splitSuper m body).2 c₁ = .ok (inner, c₂) ∧
        first ++
          [probeAt (.enter ⟨cls, m.name, m.signature⟩) m.span,
            guardedRest m inner c₂] = body' ∧
        (m.isConstructor = true →
          startsWithSuper body' = startsWithSuper body) := by
  simp only [Instrument.methodBody, Instrument.bind_ok,
    Instrument.guarded_ok, Instrument.pure_ok] at h
  rcases h with ⟨⟨first, rest⟩, c₁, hFirst, inner, c₂, hInner, _,
    _, ⟨rfl, rfl⟩, rfl, rfl⟩
  rcases Instrument.superFirst_ok hFirst with
    ⟨rfl, hBlock, hStarts⟩
  exact ⟨first, inner, c₁, c₂, hBlock, hInner, rfl,
    fun hConstructor => hStarts hConstructor _ rfl⟩

/- A told body agrees with what it becomes. -/
theorem Spliced.sim_toldBody
    (h : Spliced S X w p q n)
    (hk : Spare S n 7 k)
    (d : ClassDef)
    {m : MethodDef}
    {body body' : List Stmt}
    (hBody : passStmts Test.source body = true)
    (hPass : Instrument.methodBody X.options d.name m body c
      = .ok (body', c'))
    (hIn : X.teller.leavesOut d.name = false) :
    Sim S (Linked Joint.level (startShape m.ret since))
      (fun a b m n => a = b ∧ World Joint.level since m n)
      (worldCut since)
      (X.teller.runBody p (X.teller.runner p n) n d m body)
      (runAll (ExecTrace.exec w q k) body') := by
  rcases Instrument.methodBody_ok hPass with
    ⟨first, inner, c₁, c₂, hFirst, hInner, rfl, _⟩
  rcases Teller.passStmts_splitSuper m hBody with
    ⟨hFront, hRest⟩
  unfold Teller.runBody
  simp only [hIn, Bool.false_eq_true, if_false]
  rw [runAll_append]
  have hStart : Mirrors S (startShape m.ret since)
      (SameEnd (startShape m.ret since)) _ _ :=
    Mirrors.ofKeeps (h.keeps_block hk (by decide) hFront hFirst)
      rfl rfl
  refine (hStart.weaken (fun _ _ hm => hm)
    (fun _ _ _ _ hm => hm) worldCut_of_levelCut).bind
    fun a b => ?_
  intro k₁ k₂ ⟨hab, top, hm⟩
  subst hab
  cases a with
  | normal =>
    have hEnter := h.toAttuned.sim_enterProbe (j := 6)
      (s := { startShape m.ret since with top := top }) hk
      (by decide) ⟨d.name, m.name, m.signature⟩ m.span
    refine ((hEnter.weaken (fun _ _ hm => hm)
      (fun _ _ _ _ hm => hm) worldCut_of_levelCut).bind
      fun _ flow => ?_) k₁ k₂ hm
    intro k₁ k₂ ⟨hFlow, hm⟩
    subst hFlow
    change Outcome S _ _ _
      (runAll (ExecTrace.exec w q k) [guardedRest m inner c₂] k₂)
    rw [runAll_one]
    exact h.sim_guardedRest hk rfl hRest hInner k₁ k₂ ⟨top, hm⟩
  | _ => exact .ok ⟨rfl, hm.world⟩

/- A body that is not told agrees with itself. -/
theorem Spliced.sim_untoldBody
    (h : Spliced S X w p q n)
    (hk : Spare S n 7 k)
    (ret : Ty)
    {body : List Stmt}
    (hBody : passStmts Test.source body = true) :
    Sim S (Linked Joint.level (startShape ret since))
      (fun a b m n => a = b ∧ World Joint.level since m n)
      (worldCut since) (runAll (X.teller.exec p n none) body)
      (runAll (ExecTrace.exec w q k) body) := by
  have hKeeps : Keeps S (Bond.level fun _ => True) none
      (Flow.told none) (runAll (X.teller.exec p n none) body)
      (runAll (ExecTrace.exec w q k) body) := by
    induction body with
    | nil => exact Keeps.pure rfl
    | cons s rest ih =>
      simp only [passStmts, Bool.and_eq_true] at hBody
      exact (h.untoldExec k (hk.enough (by decide)) s
        hBody.1).followed (ih hBody.2)
  exact (Mirrors.ofKeeps (s := startShape ret since) hKeeps
    trivial rfl).weaken (fun _ _ hm => hm)
    (fun _ _ _ _ ⟨hab, _, hm⟩ => ⟨hab, hm.world⟩)
    worldCut_of_levelCut

/- The end of a body is watched on both sides. -/
theorem Attuned.sim_watchEnd
    (h : Attuned S X w p q n)
    {m m' : MethodDef}
    (hHeader : SameHeader m m')
    (flow : Flow) :
    Sim S (World Joint.level since)
      (fun a b m n => a = b ∧ World Joint.level since m n)
      (worldCut since)
      (do
        watchEnd X.observer m flow
        pure flow)
      (do
        watchEnd w m' flow
        pure flow) := by
  cases flow with
  | normal =>
    intro k k' hk
    have hWatches : Watches S Joint.level X.observer w
        (.ended m) (.ended m') :=
      h.follows.watches h.halts rfl fun k =>
        h.follows.coarse.ended m m' k hHeader
    simp only [watchEnd, watch, bind_apply]
    rcases hWatches since k k' hk with
      ⟨hu, hw⟩ | ⟨why, hu, hw, hHalts⟩ | ⟨why, hu, hStop⟩
    · rw [hu, hw]
      exact .ok ⟨rfl, hk⟩
    · rw [hu, hw]
      exact .alike (.stopped why hHalts) trivial
    · rw [hu]
      exact .first hStop
  | _ => exact Sim.pure fun _ _ hm => ⟨rfl, hm⟩

/- A body agrees with what it becomes, told or not. -/
theorem Spliced.bodies_agree
    (h : Spliced S X w p q n)
    (hk : Spare S n 7 k)
    {d d' : ClassDef}
    {m m' : MethodDef}
    (hFound : Found (splicedPairing X.options X.exclusions) (d, m)
      (d', m'))
    (self : Option Val) :
    Option.Rel
      (fun body body' =>
        BodiesAgree S (Bond.level fun _ => True) d.name m
          (do
            constructAbove p (X.teller.invoke p n) d m body self
            let flow ←
              X.teller.runBody p (X.teller.runner p n) n d m body
            watchEnd X.observer m flow
            pure flow)
          (do
            constructAbove q (ExecTrace.invoke w q k) d' m' body'
              self
            let flow ← runAll (ExecTrace.exec w q k) body'
            watchEnd w m' flow
            pure flow))
      m.body m'.body := by
  have hBecomes : Instrument.Becomes X.options X.exclusions d.name
      m m' := hFound.2.1
  have hPasses : m.passes Test.source = true := hFound.2.2
  simp only [MethodDef.passes, Bool.and_eq_true] at hPasses
  have hInvoke := h.invoke k (hk.enough (by decide))
  -- What is the same whether the body is told or not.
  have hWhole : ∀ {body body' : List Stmt},
      (m.isConstructor = true →
        startsWithSuper body' = startsWithSuper body) →
      (∀ since, Sim S
        (Linked Joint.level (startShape m.ret since))
        (fun a b m n => a = b ∧ World Joint.level since m n)
        (worldCut since)
        (X.teller.runBody p (X.teller.runner p n) n d m body)
        (runAll (ExecTrace.exec w q k) body')) →
      BodiesAgree S (Bond.level fun _ => True) d.name m
        (do
          constructAbove p (X.teller.invoke p n) d m body self
          let flow ←
            X.teller.runBody p (X.teller.runner p n) n d m body
          watchEnd X.observer m flow
          pure flow)
        (do
          constructAbove q (ExecTrace.invoke w q k) d' m' body'
            self
          let flow ← runAll (ExecTrace.exec w q k) body'
          watchEnd w m' flow
          pure flow) := by
    intro body body' hSuper hRun g since
    have hAbove := (agrees_constructAbove h.paired hInvoke hFound
      hSuper self g (startShape m.ret since) trivial).weaken
      (fun _ _ hm => hm) (fun _ _ _ _ hm => hm)
      Teller.bodyCut_of_cut
    refine hAbove.bind ?_
    rintro _ _ k₁ k₂ ⟨_, _, hm⟩
    refine ((hRun since).bind fun a b => ?_) k₁ k₂ hm
    rintro k₁ k₂ ⟨hab, hw⟩
    subst hab
    refine (h.sim_watchEnd hFound.2.1.header a k₁ k₂ hw).weaken
      (fun a b m n hPost => ⟨hPost.1, ?_⟩) fun _ _ _ hm => hm
    cases a.isEnd <;> exact hPost.2
  unfold Instrument.Becomes at hBecomes
  split at hBecomes
  · rename_i hOut
    subst hBecomes
    cases hBody : m'.body with
    | none => exact .none
    | some body =>
      rw [hBody] at hPasses
      refine .some (hWhole (fun _ => rfl) fun since => ?_)
      have hLeft : X.teller.leavesOut d.name = true := hOut
      unfold Teller.runBody
      simp only [hLeft, if_true]
      exact h.sim_untoldBody hk m'.ret hPasses.2
  · rename_i hIn
    rcases hBecomes with ⟨c, c', hMethod⟩
    unfold Instrument.method at hMethod
    cases hBody : m.body with
    | none =>
      rw [hBody] at hMethod
      rcases Instrument.pure_ok.mp hMethod with ⟨rfl, _⟩
      rw [hBody]
      exact .none
    | some body =>
      rw [hBody] at hMethod hPasses
      rcases Instrument.bind_ok.mp hMethod with
        ⟨body', k', hPass, hPure⟩
      rcases Instrument.pure_ok.mp hPure with ⟨rfl, _⟩
      rcases Instrument.methodBody_ok hPass with
        ⟨_, _, _, _, _, _, _, hSuper⟩
      exact .some (hWhole hSuper fun since =>
        h.sim_toldBody hk d hPasses.2 hPass
          (Bool.eq_false_iff.mpr hIn))

/- A method agrees with what it becomes. -/
theorem Spliced.agrees_perform
    (h : Spliced S X w p q n)
    (hk : Enough S (n + 1) k) :
    Invokers S (Bond.level fun _ => True)
      (splicedPairing X.options X.exclusions)
      (X.teller.invoke p (n + 1)) (ExecTrace.invoke w q k) := by
  intro d d' m m' hFound self args
  cases k with
  | zero => exact fun g s _ => Sim.behind hk.spare.behind
  | succ k =>
    have hPasses : m.passes Test.source = true := hFound.2.2
    simp only [MethodDef.passes, Bool.and_eq_true] at hPasses
    refine agrees_activate h.paired hFound (fun x hx => ?_) self
      args (h.bodies_agree hk.spare.inwards hFound self)
    have hAll := hPasses.1
    simp only [MethodDef.visibleParams, List.all_eq_true] at hAll
    simpa using hAll x hx

end Bodies

end ExecTrace
