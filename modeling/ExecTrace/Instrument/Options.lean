import ExecTrace.Problem
import ExecTrace.Text.Pattern.Reader

/-
  This file defines what instrumentation can be told: which
  actions are worth a probe, and which classes are to be left
  alone.

  Key definitions include:
    * `Instrument.Options`
    * `Instrument.Options.exclusions?`
    * `Instrument.excludes`
-/

namespace ExecTrace.Instrument

/-
  The options of instrumentation. A class is left alone if one
  of the patterns occurs in its name.
-/
structure Options where
  recordReads : Bool := true
  recordOperators : Bool := true
  excludeClasses : List String := []
  deriving DecidableEq, Repr

/- What is wrong with a pattern that cannot be understood. -/
def patternProblem (pattern : String) : Problem :=
  .configuration
    ("Invalid exclude_classes pattern '" ++ pattern ++ "'")

/- The pattern that a text stands for. -/
def exclusion? (pattern : String) : Except Problem Pattern :=
  match Pattern.ofText? pattern with
  | some p => .ok p
  | none => .error (patternProblem pattern)

/-
  The patterns of the classes to be left alone; the first one
  that cannot be understood is the problem.
-/
def Options.exclusions?
    (o : Options) : Except Problem (List Pattern) :=
  o.excludeClasses.mapM exclusion?

/- Whether one of some patterns occurs in the name of a class. -/
def excludes
    (patterns : List Pattern)
    (cls : String) : Bool :=
  patterns.any fun p => p.occursIn cls

end ExecTrace.Instrument
