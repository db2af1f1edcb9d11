import ExecTrace.Machine.Host
import ExecTrace.Proofs.CallAgreement
import ExecTrace.Proofs.Detached

/-
  Calls from the host. A host calls static methods on one machine
  as often as it likes, whatever the calls end with, as long as
  nothing defective happens. No call depends on variables, so
  what agrees on linked machines agrees between the calls of a
  host, where the variables play no role.

  Main declarations:
    * `HostCall` and `Call.hosted`
    * `Machine.Reaches` and `Machine.Serves`
    * `detached_hosted`
    * `Outcome.settled`
    * `Agrees.hosted`
-/

namespace ExecTrace

open Run

/- A static method that a host calls, with its arguments. -/
structure HostCall where
  cls : String
  method : String
  args : List Val

/- The run of a call from the host. -/
def Call.hosted
    (p : Program)
    (i : Invoker)
    (c : HostCall) : Run Val :=
  inFrame ⟨Machine.hostFrame, "call", false⟩
    (Call.onClass p i c.cls c.method c.args)

/- A machine that has run nothing. -/
def Machine.fresh (maxDepth : Nat) : Machine :=
  { maxDepth := maxDepth }

/- A machine that has run nothing, with a new recorder. -/
def Machine.recorded
    (maxDepth : Nat)
    (echo : Bool)
    (time : Timestamp) : Machine :=
  { maxDepth := maxDepth, recorder := some (.create echo time) }

/- Whether a call ends with a value or an exception. -/
def Completes : Except Interrupt Val → Prop
  | .ok _ => True
  | .error (.throw _) => True
  | .error _ => False

/- Whether a call ends with a value, an exception or a fault. -/
def Settles : Except Interrupt Val → Prop
  | .ok _ => True
  | .error (.throw _) => True
  | .error (.fault _) => True
  | .error _ => False

/- Whether a call completes can be decided. -/
instance : DecidablePred Completes
  | .ok _ => isTrue trivial
  | .error (.throw _) => isTrue trivial
  | .error (.fault _) => isFalse id
  | .error (.panic _) => isFalse id
  | .error .outOfFuel => isFalse id
  | .error (.stopped _) => isFalse id

/- Whether a call settles can be decided. -/
instance : DecidablePred Settles
  | .ok _ => isTrue trivial
  | .error (.throw _) => isTrue trivial
  | .error (.fault _) => isTrue trivial
  | .error (.panic _) => isFalse id
  | .error .outOfFuel => isFalse id
  | .error (.stopped _) => isFalse id

/-
  A host takes a machine to another one by calls, each with some
  fuel, that end in ways after which the host goes on.
-/
inductive Machine.Reaches
    (w : Observer)
    (p : Program)
    (goesOn : Except Interrupt Val → Prop) :
    Machine → Machine → Prop where
  | refl (m : Machine) : Machine.Reaches w p goesOn m m
  | call
      {m k k' : Machine}
      (fuel : Nat)
      (c : HostCall)
      {r : Except Interrupt Val}
      (h : Machine.Reaches w p goesOn m k)
      (hRun : Machine.request w p fuel c.cls c.method c.args k
        = (r, k'))
      (hEnd : goesOn r) : Machine.Reaches w p goesOn m k'

/-
  A machine serves some calls of a host, each with some fuel,
  that end in ways after which the host goes on.
-/
inductive Machine.Serves
    (w : Observer)
    (p : Program)
    (goesOn : Except Interrupt Val → Prop) :
    Machine → List HostCall → Machine → Prop where
  | nil (m : Machine) : Machine.Serves w p goesOn m [] m
  | cons
      {m k k' : Machine}
      {c : HostCall}
      {cs : List HostCall}
      (fuel : Nat)
      {r : Except Interrupt Val}
      (hRun : Machine.request w p fuel c.cls c.method c.args m
        = (r, k))
      (hEnd : goesOn r)
      (h : Machine.Serves w p goesOn k cs k') :
      Machine.Serves w p goesOn m (c :: cs) k'

/- A machine serves one call. -/
theorem Machine.Serves.one
    {w : Observer}
    {p : Program}
    {goesOn : Except Interrupt Val → Prop}
    {fuel : Nat}
    {m : Machine}
    (c : HostCall)
    (h : goesOn
      (Machine.request w p fuel c.cls c.method c.args m).1) :
    Machine.Serves w p goesOn m [c]
      (Machine.request w p fuel c.cls c.method c.args m).2 :=
  .cons fuel rfl h (.nil _)

/- A machine that serves calls reaches the one behind them. -/
theorem Machine.Reaches.serves
    {w : Observer}
    {p : Program}
    {goesOn : Except Interrupt Val → Prop}
    {cs : List HostCall}
    {m m' k : Machine}
    (h : Machine.Reaches w p goesOn m m')
    (hServes : Machine.Serves w p goesOn m' cs k) :
    Machine.Reaches w p goesOn m k := by
  induction hServes with
  | nil => exact h
  | cons fuel hRun hEnd _ ih => exact ih (h.call fuel _ hRun hEnd)

/- A call from the host is a request. -/
theorem Machine.request_eq_hosted
    (w : Observer)
    (p : Program)
    (fuel : Nat)
    (c : HostCall) :
    Machine.request w p fuel c.cls c.method c.args
      = Call.hosted p (invoke w p fuel) c :=
  rfl

------------------------------------------------------------
-- Calls without Variables
------------------------------------------------------------

section Detached

variable {p : Program}
variable {i : Invoker}

/- What a plain run does with a method is detached. -/
theorem detached_invoke
    (w : Observer)
    (p : Program)
    (fuel : Nat) : DetachedInvoker (invoke w p fuel) := by
  cases fuel with
  | zero => exact fun _ _ _ _ => .throw _
  | succ fuel => exact detached_activate _

/- A text is printed. -/
theorem detached_print
    (hi : DetachedInvoker i)
    (v : Val)
    (behind : String) : Detached (Call.print p i v behind) :=
  (detached_textOf hi "print" v).bind fun _ =>
    (Detached.modify fun _ _ => rfl).bind fun _ => .pure _

/- The greater or the less of two values. -/
theorem detached_extreme
    (method : String)
    (op : BinaryOp)
    (a b : Val) : Detached (Call.extreme method op a b) := by
  unfold Call.extreme
  cases Val.binary op a b with
  | ok v => exact .pure _
  | error e => exact .look (fun _ => .throw _) fun _ _ => rfl

/- The static methods that need no declaration. -/
theorem detached_builtinStatic?
    (hi : DetachedInvoker i)
    {cls method : String}
    {args : List Val}
    {x : Run Val}
    (hx : Call.builtinStatic? p i cls method args = some x) :
    Detached x := by
  unfold Call.builtinStatic? at hx
  split at hx
  · split at hx <;> cases hx
    · exact .pure _
    · exact .faultShowing _ _
  · cases hx
    exact detached_extreme _ _ _ _
  · cases hx
    exact detached_extreme _ _ _ _
  · cases hx
    exact (Detached.modify fun _ _ => rfl).bind fun _ => .pure _
  · cases hx
    exact detached_print hi _ _
  · cases hx
    exact detached_print hi _ _
  · cases hx
    exact (detached_textOf hi _ _).bind fun _ => .pure _
  · cases hx

/- A call of a method of a class. -/
theorem detached_onClass
    (hi : DetachedInvoker i)
    (cls method : String)
    (args : List Val) :
    Detached (Call.onClass p i cls method args) := by
  have hBuiltin : Detached
      ((Call.builtinStatic? p i cls method args).getD
        (fault (.noStaticMethod cls method args.length))) := by
    cases hFound : Call.builtinStatic? p i cls method args with
    | none => exact .throw _
    | some x => exact detached_builtinStatic? hi hFound
  unfold Call.onClass
  cases p.findMethod? cls method args.length with
  | none => exact hBuiltin
  | some found =>
    simp only
    split
    · exact hi _ _ _ _
    · exact hBuiltin

/- A call from the host does not depend on variables. -/
theorem detached_hosted
    (hi : DetachedInvoker i)
    (c : HostCall) : Detached (Call.hosted p i c) :=
  (detached_onClass hi _ _ _).inFrame _

end Detached

------------------------------------------------------------
-- Calls on Two Machines
------------------------------------------------------------

section Hosted

variable {S : Slack}
variable {B : Bond}
variable {M : Pairing}
variable {p q : Program}
variable {i j : Invoker}

/-
  Without an excuse on either side, both runs settle if one of
  them does, on related machines, and both complete or none.
-/
theorem Outcome.settled
    {K : Machine → Machine → Prop}
    {post : Val → Val → Machine → Machine → Prop}
    {cut : Cut}
    {r t : Except Interrupt Val}
    {m n : Machine}
    (h : Outcome S post cut (r, m) (t, n))
    (hEnd : Settles r ∨ Settles t)
    (hFirst : ∀ c, r = .error c → S.first c = false)
    (hSecond : ∀ d, t = .error d → S.second d = false)
    (hPost : ∀ a b m n, post a b m n → K m n)
    (hThrow : ∀ v m n, cut (.throw v) m n → K m n)
    (hFault : ∀ c m n, cut (.fault c) m n → K m n) :
    Settles r ∧ Settles t ∧ (Completes r ↔ Completes t) ∧
      K m n := by
  cases h with
  | ok h => exact ⟨trivial, trivial, .rfl, hPost _ _ _ _ h⟩
  | alike hAlike hCut =>
    cases hAlike with
    | throw v hv =>
      exact ⟨trivial, trivial, .rfl, hThrow v _ _ hCut⟩
    | fault c d =>
      exact ⟨trivial, trivial, .rfl, hFault c _ _ hCut⟩
    | panic text _ => rcases hEnd with hEnd | hEnd <;> cases hEnd
    | outOfFuel => rcases hEnd with hEnd | hEnd <;> cases hEnd
    | stopped why _ => rcases hEnd with hEnd | hEnd <;> cases hEnd
    | answered why text _ =>
      rcases hEnd with hEnd | hEnd <;> cases hEnd
  | first h =>
    rw [hFirst _ rfl] at h
    cases h
  | second h =>
    rw [hSecond _ rfl] at h
    cases h

/- Calls from the host agree if the methods do. -/
theorem agrees_hosted
    (hp : Paired M p q)
    (hi : Invokers S B M i j)
    (c : HostCall) :
    Agrees S B (Call.hosted p i c) (Call.hosted q j c) :=
  (agrees_onClass hp hi _ _ _).inFrame _ _

/- What agrees agrees without a look at the variables. -/
theorem Agrees.hosted
    {α : Type}
    {x y : Run α}
    (h : Agrees S B x y)
    (hx : Detached x)
    (hy : Detached y)
    (hRets : B.rets .void)
    (g : B.Ghost)
    (since : Heap) :
    Sim S (World (B.holds g) since)
      (fun a b m n => a = b ∧ World (B.holds g) since m n)
      (B.cut g fun J => World J since) x y := by
  intro m n hw
  have hLinked : Linked (B.holds g)
      { since := since, ret := .void }
      { m with locals := {} } { n with locals := {} } :=
    ⟨hw.locals _ _, ⟨rfl, rfl, rfl, rfl, Layered.refl [] []⟩⟩
  have hEnd := h g _ hRets _ _ hLinked
  -- Both runs are compared with variables that are empty.
  have hSame : x m = ((x { m with locals := {} }).1,
      { (x { m with locals := {} }).2 with locals := m.locals }) :=
    hx { m with locals := {} } m.locals
  have hSame' : y n = ((y { n with locals := {} }).1,
      { (y { n with locals := {} }).2 with locals := n.locals }) :=
    hy { n with locals := {} } n.locals
  rw [hSame, hSame']
  generalize x { m with locals := {} } = r at hEnd
  generalize y { n with locals := {} } = t at hEnd
  cases hEnd with
  | ok hPost =>
    exact .ok ⟨hPost.1, hPost.2.2.world.locals _ _⟩
  | @alike c d k k' hAlike hCut =>
    refine .alike hAlike ?_
    cases c with
    | throw v => exact (Linked.world hCut).locals _ _
    | fault cause => exact (Linked.world hCut).locals _ _
    | _ => trivial
  | first hFirst => exact .first hFirst
  | second hSecond => exact .second hSecond

end Hosted

end ExecTrace
