import ExecTrace.Instrument.Tree

/-
  This file instruments programs. The body of a method reports
  its start, then runs under a handler that reports an exception
  that leaves it; a method without a result also reports that
  its end was reached. A call of the constructor of the
  superclass stays in front.

  Key definitions include:
    * `Instrument.methodBody`
    * `Instrument.method`
    * `Instrument.classDef`
    * `instrument`
-/

namespace ExecTrace

namespace Instrument

/-
  The super call at the start of a constructor, instrumented,
  and the statements behind it.
-/
def superFirst
    (o : Options)
    (site : Site)
    (m : MethodDef) :
    List Stmt → Pass (List Stmt × List Stmt)
  | ⟨.superCall signature args, span⟩ :: rest =>
    if m.isConstructor then do
      let first ← stmt o site ⟨.superCall signature args, span⟩
      pure (first, rest)
    else pure ([], ⟨.superCall signature args, span⟩ :: rest)
  | body => pure ([], body)

/- The probe at the end of a method without a result. -/
def endOfBody (m : MethodDef) : List Stmt :=
  if m.ret = .void then
    [probeAt (.exit m.name .endOfBody) m.span.ending]
  else []

/- Instrument the body of a method of a class. -/
def methodBody
    (o : Options)
    (cls : String)
    (m : MethodDef)
    (body : List Stmt) : Pass (List Stmt) := do
  let site : Site := { cls := cls, method := m.name, ret := m.ret }
  let (first, rest) ← superFirst o site m body
  let inner ← block o site rest
  let run ← guarded (inner ++ endOfBody m)
    (fun exception => .exit m.name (.exceptional exception))
    m.span
  let enter := probeAt (.enter ⟨cls, m.name, m.signature⟩) m.span
  pure (first ++ [enter, run])

/- Instrument a method; an abstract one does not change. -/
def method
    (o : Options)
    (cls : String)
    (m : MethodDef) : Pass MethodDef :=
  match m.body with
  | none => pure m
  | some body => do
    let body ← methodBody o cls m body
    pure { m with body := some body }

/- Instrument a class, unless it is to be left alone. -/
def classDef
    (o : Options)
    (exclusions : List Pattern)
    (c : ClassDef) : Pass ClassDef :=
  if excludes exclusions c.name then pure c
  else do
    let methods ← c.methods.mapM (method o c.name)
    pure { c with methods := methods }

end Instrument

open Instrument in
/-
  The instrumented program: it does what the program does, and
  reports it.
-/
def instrument
    (o : Options)
    (p : Program) : Except Failure Program :=
  match o.exclusions? with
  | .error problem => .error (.badOption problem)
  | .ok exclusions =>
    match (p.classes.mapM (classDef o exclusions)).run 0 with
    | .ok (classes, _) => .ok ⟨classes⟩
    | .error f => .error f

open Instrument in
/- Instrument a program a number of times. -/
def instrumentTimes
    (o : Options) :
    Nat → Program → Except Failure Program
  | 0, p => .ok p
  | n + 1, p =>
    match instrument o p with
    | .ok p => instrumentTimes o n p
    | .error f => .error f

end ExecTrace
