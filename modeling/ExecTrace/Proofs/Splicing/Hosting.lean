import ExecTrace.Proofs.Hosting
import ExecTrace.Proofs.Splicing.Runs

/-
  Calls from the host of an instrumented program. A call of the
  source program that tells what it does agrees with the call of
  the instrumented program, on machines with the same frames and
  the same recorder.

  Main declarations:
    * `Observer.Coarse.follows` and `Splice.fair_of_sound`
    * `Slack.lacking` and `World.level_self`
    * `Teller.Retellers.hosted`
    * `hosted_spliced`
-/

namespace ExecTrace

open Run

section Hosted

variable {S : Slack}
variable {X : Splice}
variable {w : Observer}
variable {p q : Program}

/- A coarse observer that sees no values is followed by itself. -/
theorem Observer.Coarse.follows
    (h : w.Coarse)
    (hValue : ∀ e v m, w (.value e v) m = none)
    (S : Slack) : w.Follows S w where
  coarse := h
  misses := fun x m why hOf hWhy => by
    cases x with
    | value e v => rw [hValue] at hWhy; cases hWhy
    | loaded e v => rw [h.loaded] at hWhy; cases hWhy
    | _ => cases hOf
  others := fun _ _ _ => rfl
  admits := fun e _ v m _ _ => hValue e v m
  void := fun e v m _ => hValue e v m

/- It is fair to call every action sound. -/
theorem Splice.fair_of_sound
    (h : ∀ a, X.sound a = true) : X.Fair w where
  plain := fun _ _ => h _
  unary := fun _ _ _ _ _ _ _ _ => h _
  strict := fun _ _ _ _ _ _ _ _ _ _ _ _ => h _
  shortCircuit := fun _ _ _ _ _ _ _ _ => h _
  compound := fun _ _ _ _ _ _ _ _ _ _ => h _
  step := fun _ _ _ _ _ _ _ _ _ _ _ _ => h _

/- Either the first run or the second one may lack fuel. -/
def Slack.lacking (first : Bool) : Slack :=
  { short := first, behind := !first }

/- A machine is level with itself. -/
theorem World.level_self
    (m : Machine) : World Joint.level {} m m where
  heap := rfl
  statics := rfl
  nextId := rfl
  output := rfl
  maxDepth := rfl
  joint := rfl
  grown :=
    { sizes := fun a ha => by simp [Heap.itemsOf] at ha
      fields := fun a name hn => by
        simp [Heap.fieldsOf, Bindings.get?] at hn }

/- A call from the host that two tellers tell. -/
theorem Teller.Retellers.hosted
    {B : Bond}
    {move : String → String → B.Ghost → B.Ghost}
    {into : Callee → B.Ghost → B.Ghost}
    {T U : Teller}
    {t : Test}
    {n k : Nat}
    (h : Teller.Retellers S B move into p T U t)
    (hPaced : Paced S n k)
    (c : HostCall)
    (g : B.Ghost) :
    Sim S (World (B.holds g) {})
      (fun a b m m' => a = b ∧ World (B.holds g) {} m m')
      (B.cut g fun J => World J {})
      (Call.hosted p (T.invoke p n) c)
      (Call.hosted p (U.invoke p k) c) :=
  (agrees_hosted (Teller.paired_same h.passes)
    (h.reruns hPaced).invoke c).hosted
    (detached_hosted (T.detached_invoke p n) c)
    (detached_hosted (U.detached_invoke p k) c) (h.rets .void) g {}

/- A telling call and the call of the instrumented program. -/
theorem hosted_spliced
    (hFollows : X.observer.Follows S w)
    (hFair : X.Fair w)
    (hPaired : Paired (splicedPairing X.options X.exclusions) p q)
    (hSharp : S.Sharp)
    (hHalts : S.halts = true)
    {fuel fuel' : Nat}
    (hFuel : Enough S fuel fuel')
    (c : HostCall) :
    Sim S (World Joint.level {})
      (fun a b m n => a = b ∧ World Joint.level {} m n)
      ((Bond.level fun _ => True).cut () fun J => World J {})
      (Call.hosted p (X.teller.invoke p fuel) c)
      (Call.hosted q (invoke w q fuel') c) := by
  have hSpliced : Spliced S X w p q fuel :=
    Splice.spliced hFollows hSharp hHalts hFair hPaired fuel
  exact (agrees_hosted hPaired (hSpliced.invoke fuel' hFuel)
    c).hosted
    (detached_hosted (Splice.detached_invoke _ p fuel) c)
    (detached_hosted (detached_invoke _ _ _) c) trivial () {}

end Hosted

end ExecTrace
