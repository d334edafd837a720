import RecordStore.CommandLine.Flag

/-!
# Reading the command line

The first argument is the verb; what follows belongs to it. Flags may stand before and after the
operands, and `--` ends them. From the first parameter of a query on, everything is a parameter.
Right before it an unknown flag is a parameter too, so that negative numbers can be given as they
are.

A flag whose value is a separate argument is settled only when something else comes up: what is wrong
with its value is reported then, and an unknown flag is reported before that.
-/

namespace RecordStore.CommandLine

/-- Why a command line is not carried out. Asking for help or for the version is among it. -/
inductive UsageError where
  | help
  | version
  | nothingGiven
  | unknownVerb
  | unknownArgument
  | missingArgument
  | invalidValue
  | tooManyValues
  | argumentConflict
  deriving DecidableEq, Repr

/-- What has been read of the arguments of a verb. A flag may wait for its value, or have one that
is still to be looked at. -/
structure Progress where
  given : List (Flag × String)
  waiting : Option (Flag × Option String)
  operands : List String

namespace Progress

def empty : Progress := ⟨[], none, []⟩

/-- The value given to a flag. -/
def value? (p : Progress) (f : Flag) : Option String := p.given.lookup f

/-- Gives a flag its value. -/
def give (p : Progress) (f : Flag) (value : String) : Except UsageError Progress :=
  if (p.value? f).isSome then .error .argumentConflict
  else if f.accepts value then .ok { p with given := p.given ++ [(f, value)] }
  else .error .invalidValue

/-- Settles the flag that waits. -/
def settle (p : Progress) : Except UsageError Progress :=
  match p.waiting with
  | none => .ok p
  | some (_, none) => .error .invalidValue
  | some (f, some value) => { p with waiting := none }.give f value

/-- Takes a flag that has no value. -/
def raise (p : Progress) (f : Flag) : Except UsageError Progress := do
  let p ← p.settle
  if f = .help then throw .help else p.give f "true"

/-- Takes a flag with its value. -/
def giveNow (p : Progress) (f : Flag) (value : String) : Except UsageError Progress := do
  (← p.settle).give f value

/-- Takes a flag whose value is the next argument. -/
def await (p : Progress) (f : Flag) : Except UsageError Progress := do
  return { ← p.settle with waiting := some (f, none) }

/-- Takes an operand or parameter. -/
def place (verb : Verb) (p : Progress) (arg : String) : Except UsageError Progress :=
  if !verb.takesParameters && verb.operands ≤ p.operands.length then .error .unknownArgument
  else do
    let p ← p.settle
    return { p with operands := p.operands ++ [arg] }

/-- Whether the next operand is a parameter. -/
def atParameters (verb : Verb) (p : Progress) : Bool :=
  verb.takesParameters && verb.operands ≤ p.operands.length

/-- Whether parameters have begun, so that only parameters can follow. -/
def inParameters (verb : Verb) (p : Progress) : Bool :=
  verb.takesParameters && verb.operands < p.operands.length

/-! ## Flags -/

/-- Takes a long flag, with its value behind `=` if it has one there; none if it is unknown and a
parameter can stand here. -/
def takeLong (verb : Verb) (p : Progress) (body : List Char) :
    Except UsageError (Option Progress) := do
  let name := body.takeWhile (· ≠ '=')
  let attached := body.drop name.length
  match verb.flagOfLong? (String.ofList name), attached with
  | none, _ => if p.atParameters verb then return none else throw .unknownArgument
  | some f, [] => if f.takesValue then return some (← p.await f) else return some (← p.raise f)
  | some f, _ :: value =>
    if f.takesValue then return some (← p.giveNow f (String.ofList value))
    else throw .tooManyValues

/-- Takes short flags one after the other, the last with what follows it as its value. -/
def takeCluster (verb : Verb) (p : Progress) : List Char → Except UsageError Progress
  | [] => .ok p
  | c :: cs =>
    match verb.flagOfShort? c with
    | none => .error .unknownArgument
    | some f =>
      if f.takesValue then
        match cs with
        | [] => p.await f
        | '=' :: value => p.giveNow f (String.ofList value)
        | value => p.giveNow f (String.ofList value)
      else do takeCluster verb (← p.raise f) cs

/-- Takes short flags; none if one is unknown and a parameter can stand here. -/
def takeShort (verb : Verb) (p : Progress) (cs : List Char) :
    Except UsageError (Option Progress) := do
  if p.atParameters verb && cs.any fun c => (verb.flagOfShort? c).isNone then return none
  else return some (← takeCluster verb p cs)

/-- Takes an argument that is a flag; none if it is not. -/
def takeFlag (verb : Verb) (p : Progress) (arg : String) :
    Except UsageError (Option Progress) :=
  match arg.toList with
  | '-' :: '-' :: body => takeLong verb p body
  | '-' :: c :: cs => takeShort verb p (c :: cs)
  | _ => .ok none

/-- Takes an argument that is no flag: the value of the flag that waits for one, or an operand. -/
def takePlain (verb : Verb) (p : Progress) (arg : String) : Except UsageError Progress :=
  match p.waiting with
  | some (f, none) => .ok { p with waiting := some (f, some arg) }
  | _ => p.place verb arg

/-- Takes all arguments; `ended` tells whether flags have ended. -/
def takeAll (verb : Verb) : Bool → Progress → List String → Except UsageError Progress
  | _, p, [] => p.settle
  | ended, p, arg :: args => do
    if ended || p.inParameters verb then takeAll verb ended (← p.place verb arg) args
    else if arg = "--" then takeAll verb true p args
    else
      match ← takeFlag verb p arg with
      | some p => takeAll verb false p args
      | none => takeAll verb false (← p.takePlain verb arg) args

/-- Sets a flag that is not given from the environment. -/
def fromEnvironment (environment : String → Option String) (p : Progress) (f : Flag) :
    Except UsageError Progress :=
  match p.value? f, f.environmentName?.bind environment with
  | none, some value => p.give f value
  | _, _ => .ok p

/-- Whether a flag without a value is set. -/
def isSet (p : Progress) (f : Flag) : Bool := ((p.value? f).bind boolOfName?).getD false

end Progress

/-! ## Invocations -/

/-- How the store is opened. -/
structure Settings where
  database : String
  compact : Bool
  lenient : Bool
  deferred : Bool
  deriving DecidableEq, Repr

/-- What the command line asks for. -/
inductive Invocation where
  | init (settings : Settings)
  | query (settings : Settings) (mode : Mode) (statement : String) (parameters : List Datum)
  | exec (settings : Settings) (script : String)
  | explain (settings : Settings) (statement : String)
  | start (settings : Settings) (address : String)
  deriving DecidableEq

/-- The value of a parameter: a JSON scalar, or else the text itself. -/
def parameter (text : String) : Datum :=
  match Datum.ofJson text with
  | .ok d => d
  | .error _ => .text text

/-- The settings of the flags given. -/
def Progress.settings (p : Progress) : Settings :=
  ⟨(p.value? .database).getD "./database.json", p.isSet .compact, p.isSet .lenient,
    p.isSet .deferred⟩

/-- What the arguments of a verb ask for. -/
def Invocation.ofProgress (verb : Verb) (p : Progress) : Except UsageError Invocation :=
  match verb, p.operands with
  | .init, _ => .ok (.init p.settings)
  | .start, _ => .ok (.start p.settings ((p.value? .address).getD "127.0.0.1:6969"))
  | _, [] => .error .missingArgument
  | .exec, script :: _ => .ok (.exec p.settings script)
  | .explain, statement :: _ => .ok (.explain p.settings statement)
  | .query, statement :: parameters =>
    .ok (.query p.settings (((p.value? .mode).bind Mode.ofName?).getD .all) statement
      (parameters.map parameter))

/-- Reads the arguments of a verb. -/
def readVerb (environment : String → Option String) (verb : Verb) (args : List String) :
    Except UsageError Invocation := do
  let p ← Progress.takeAll verb false .empty args
  Invocation.ofProgress verb (← verb.flags.foldlM (Progress.fromEnvironment environment) p)

/-- Reads the arguments of `help`: at most the name of a verb, or `help` itself. -/
def readHelp : List String → UsageError
  | [] => .help
  | [name] => if name = "help" || (Verb.ofName? name).isSome then .help else .unknownVerb
  | _ => .unknownVerb

/-- Reads flags that stand before the verb. -/
def readTopFlag : List Char → UsageError
  | '-' :: body =>
    let name := body.takeWhile (· ≠ '=')
    if name = "help".toList ∨ name = "version".toList then
      if name.length < body.length then .tooManyValues
      else if name = "help".toList then .help
      else .version
    else .unknownArgument
  | 'h' :: _ => .help
  | 'V' :: _ => .version
  | _ => .unknownArgument

/-- Reads a command line. -/
def read (environment : String → Option String) : List String → Except UsageError Invocation
  | [] => .error .nothingGiven
  | "--" :: [] => .error .nothingGiven
  | "--" :: name :: _ =>
    .error (if name = "help" || (Verb.ofName? name).isSome then .unknownArgument else .unknownVerb)
  | arg :: args =>
    match Verb.ofName? arg with
    | some verb => readVerb environment verb args
    | none =>
      if arg = "help" then .error (readHelp args)
      else
        match arg.toList with
        | '-' :: c :: cs => .error (readTopFlag (c :: cs))
        | _ => .error .unknownVerb

end RecordStore.CommandLine
