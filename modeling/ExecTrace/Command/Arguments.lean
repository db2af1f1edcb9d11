import ExecTrace.Text.Json.Reader

/-
  This file reads the arguments of the command line: options in
  front of a verb, the verb, and the options and the log of the
  verb. Arguments are read from left to right, and the first
  mistake or request for help decides.

  Key definitions include:
    * `Command.Flag`
    * `Command.Verb`
    * `Command.Topic`
    * `Command.Stop`
    * `Command.Given`
    * `Command.Invocation`
    * `Command.Invocation.ofArguments`
-/

namespace ExecTrace.Command

------------------------------------------------------------
-- Flags and verbs
------------------------------------------------------------

/- The options. -/
inductive Flag where
  | verbose
  | config
  | depth
  | filter
  | json
  | help
  | version
  deriving DecidableEq, Repr

namespace Flag

/- The long name of an option. -/
def long : Flag → String
  | .verbose => "verbose"
  | .config => "config"
  | .depth => "depth"
  | .filter => "filter"
  | .json => "json"
  | .help => "help"
  | .version => "version"

/- The letter of an option. -/
def short? : Flag → Option Char
  | .verbose => some 'v'
  | .depth => some 'd'
  | .filter => some 'f'
  | .help => some 'h'
  | .version => some 'V'
  | .config | .json => none

/- Whether an option takes a value. -/
def takesValue : Flag → Bool
  | .config | .depth | .filter => true
  | _ => false

end Flag

/- What can be asked for. -/
inductive Verb where
  | show
  | check
  | stats
  | version
  deriving DecidableEq, Repr

namespace Verb

/- The word for a verb. -/
def word : Verb → String
  | .show => "show"
  | .check => "check"
  | .stats => "stats"
  | .version => "version"

/- Every verb, in order. -/
def all : List Verb :=
  [.show, .check, .stats, .version]

/- The verb for a word. -/
def ofWord? (s : String) : Option Verb :=
  all.find? fun v => v.word == s

/- The options of a verb. -/
def flags : Verb → List Flag
  | .show => [.depth, .filter, .verbose, .config, .help]
  | .check => [.verbose, .config, .help]
  | .stats => [.json, .verbose, .config, .help]
  | .version => [.verbose, .config, .help]

/- Whether a verb is about a log. -/
def takesLog : Verb → Bool
  | .version => false
  | _ => true

end Verb

/- The options in front of a verb. -/
def commonFlags : List Flag :=
  [.verbose, .config, .help, .version]

------------------------------------------------------------
-- Reading options
------------------------------------------------------------

/-
  What help can be asked for: the whole command, a verb, or help
  itself.
-/
inductive Topic where
  | everything
  | verb (verb : Verb)
  | help
  deriving DecidableEq, Repr

/- The topic of the options of a verb, or of those in front. -/
def Topic.ofVerb : Option Verb → Topic
  | some v => .verb v
  | none => .everything

/-
  Why reading arguments ends early: they are wrong, or help or
  the version is asked for.
-/
inductive Stop where
  | usage
  | help (topic : Topic)
  | version
  deriving DecidableEq, Repr

/- The number that a text spells, of at most 64 bits. -/
def number? (s : String) : Option Nat :=
  let cs :=
    match s.toList with
    | '+' :: cs => cs
    | cs => cs
  let n := Json.digitsValue cs
  if !cs.isEmpty && cs.all Char.isDigit && n < Nat.pow 2 64 then
    some n
  else none

/- Whether a value suits an option. -/
def Flag.accepts : Flag → String → Bool
  | .depth, value => (number? value).isSome
  | .config, value => !value.isEmpty
  | _, _ => true

/- Options with their values, and other words. -/
structure Given where
  options : List (Flag × String) := []
  words : List String := []
  deriving DecidableEq, Repr

namespace Given

/- Whether an option was given. -/
def has
    (g : Given)
    (f : Flag) : Bool :=
  g.options.any fun o => o.1 == f

/- The value of an option. -/
def value?
    (g : Given)
    (f : Flag) : Option String :=
  g.options.lookup f

/- Add an option, which can only be given once. -/
def add
    (verb : Option Verb)
    (g : Given)
    (f : Flag)
    (value : String) : Except Stop Given :=
  match f with
  | .help => .error (.help (.ofVerb verb))
  | .version => .error .version
  | f =>
    if g.has f || !f.accepts value then .error .usage
    else .ok { g with options := g.options ++ [(f, value)] }

end Given

/- An argument that is an option. -/
def isOption (arg : String) : Bool :=
  match arg.toList with
  | '-' :: _ :: _ => true
  | _ => false

/- A long option: its name and the value attached to it. -/
def splitLong
    (cs : List Char) : List Char × Option String :=
  match cs.dropWhile (· != '=') with
  | _ :: value => (cs.takeWhile (· != '='),
      some (String.ofList value))
  | [] => (cs, none)

/-
  The option of a long name, if it is one, and the value that is
  attached to it.
-/
def longFlag?
    (flags : List Flag)
    (cs : List Char) : Option (Flag × Option String) :=
  let (name, value) := splitLong cs
  (flags.find? fun f => f.long.toList == name).map fun f =>
    (f, value)

/- A value without the equals sign in front of it. -/
def withoutEquals : List Char → List Char
  | '=' :: cs => cs
  | cs => cs

/-
  Read a group of letters. The last one may be an option that
  takes a value: the letters behind it, or else the next
  argument, for which it is returned.
-/
def readLetters
    (verb : Option Verb)
    (flags : List Flag) :
    List Char → Given → Except Stop (Given × Option Flag)
  | [], g => .ok (g, none)
  | c :: rest, g =>
    match flags.find? fun f => f.short? == some c with
    | none => .error .usage
    | some f =>
      if f.takesValue then
        if rest.isEmpty then .ok (g, some f)
        else do
          let value := String.ofList (withoutEquals rest)
          let g ← g.add verb f value
          pure (g, none)
      else do
        let g ← g.add verb f ""
        readLetters verb flags rest g

/-
  Read one option, which is returned if its value has to be the
  next argument.
-/
def readOption
    (verb : Option Verb)
    (flags : List Flag)
    (arg : String)
    (g : Given) : Except Stop (Given × Option Flag) :=
  match arg.toList with
  | '-' :: '-' :: name =>
    match longFlag? flags name with
    | none => .error .usage
    | some (f, attached) =>
      match f.takesValue, attached with
      | true, some value => do
        let g ← g.add verb f value
        pure (g, none)
      | true, none => .ok (g, some f)
      | false, none => do
        let g ← g.add verb f ""
        pure (g, none)
      | false, some _ => .error .usage
  | '-' :: letters => readLetters verb flags letters g
  | _ => .error .usage

------------------------------------------------------------
-- Reading a verb
------------------------------------------------------------

/- A word of a verb: the path of its log, given once. -/
def readWord
    (verb : Verb)
    (arg : String)
    (g : Given) : Except Stop Given :=
  if verb.takesLog && g.words.isEmpty && !arg.isEmpty then
    .ok { g with words := [arg] }
  else .error .usage

/- Read words only. -/
def readWords
    (verb : Verb) :
    List String → Given → Except Stop Given
  | [], g => .ok g
  | arg :: rest, g => do
    let g ← readWord verb arg g
    readWords verb rest g

/- Read the arguments of a verb. -/
def readVerb
    (verb : Verb) :
    List String → Given → Except Stop Given
  | [], g => .ok g
  | arg :: rest, g =>
    if arg = "--" then readWords verb rest g
    else if isOption arg then
      match readOption (some verb) verb.flags arg g, rest with
      | .error s, _ => .error s
      | .ok (g, none), rest => readVerb verb rest g
      | .ok (_, some _), [] => .error .usage
      | .ok (g, some f), value :: rest =>
        if isOption value then .error .usage
        else do
          let g ← g.add (some verb) f value
          readVerb verb rest g
    else do
      let g ← readWord verb arg g
      readVerb verb rest g

/- Read the arguments of a request for help. -/
def readHelp : List String → Stop
  | [] => .help .everything
  | [word] =>
    if word = "help" then .help .help
    else
      match Verb.ofWord? word with
      | some v => .help (.verb v)
      | none => .usage
  | _ => .usage

------------------------------------------------------------
-- Invocations
------------------------------------------------------------

/-
  What the arguments ask for, with the options in front of the
  verb and those behind it.
-/
structure Invocation where
  verb : Verb
  before : Given
  behind : Given
  deriving DecidableEq, Repr

namespace Invocation

/- Read arguments up to the verb, and then the rest. -/
def read :
    List String → Given → Except Stop Invocation
  | [], _ => .error .usage
  | arg :: rest, g =>
    if arg = "--" then .error .usage
    else if isOption arg then
      match readOption none commonFlags arg g, rest with
      | .error s, _ => .error s
      | .ok (g, none), rest => read rest g
      | .ok (_, some _), [] => .error .usage
      | .ok (g, some f), value :: rest =>
        if isOption value then .error .usage
        else do
          let g ← g.add none f value
          read rest g
    else
      match Verb.ofWord? arg with
      | some verb => do
        let behind ← readVerb verb rest {}
        pure ⟨verb, g, behind⟩
      | none =>
        if arg = "help" then .error (readHelp rest)
        else .error .usage

/- The path of the configuration; the last one given counts. -/
def config? (i : Invocation) : Option String :=
  match i.behind.value? .config with
  | some path => some path
  | none => i.before.value? .config

/-
  Fill in the path of the configuration from a variable. An
  empty path is wrong even where it would not be used.
-/
def withVariable
    (path : String)
    (i : Invocation) : Except Stop Invocation :=
  if path.isEmpty then
    if i.before.has .config && i.behind.has .config then .ok i
    else .error .usage
  else if i.config?.isSome then .ok i
  else do
    let before ← i.before.add none .config path
    pure { i with before := before }

/-
  What the arguments ask for, given the variable with the path
  of the configuration, if it is set.
-/
def ofArguments
    (setPath : Option String)
    (args : List String) : Except Stop Invocation :=
  match read args {}, setPath with
  | .error s, _ => .error s
  | .ok i, none => .ok i
  | .ok i, some path => i.withVariable path

/- The path of the log. -/
def log? (i : Invocation) : Option String :=
  i.behind.words.head?

/- The depth limit. -/
def depth? (i : Invocation) : Option Nat :=
  (i.behind.value? .depth).bind number?

/- The pattern of the events to show. -/
def filter? (i : Invocation) : Option String :=
  i.behind.value? .filter

end Invocation

end ExecTrace.Command
