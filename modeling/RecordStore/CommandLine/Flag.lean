import RecordStore.Session

/-!
# Verbs and flags of the command line

A verb says what is to be done. It takes a fixed number of operands, and `query` takes parameters
after them. Each verb knows its flags, which have a long name and some of them a short one. A flag
that is not given may be set by a variable of the environment.

## Main results

- `Verb.ofName?_name`: a verb is found by its name.
- `Flag.long_injective`: flags differ in their long names.
-/

namespace RecordStore.CommandLine

/-- What the program is asked to do. -/
inductive Verb where
  | init
  | query
  | exec
  | explain
  | start
  deriving DecidableEq, Repr

/-- Something that can be set on the command line. -/
inductive Flag where
  | database
  | compact
  | lenient
  | deferred
  | mode
  | address
  | help
  deriving DecidableEq, Repr

namespace Flag

/-- The name after two hyphens. -/
def long : Flag → String
  | database => "database"
  | compact => "compact"
  | lenient => "lenient"
  | deferred => "deferred"
  | mode => "mode"
  | address => "address"
  | help => "help"

/-- The name after one hyphen. -/
def short? : Flag → Option Char
  | database => some 'd'
  | mode => some 'm'
  | address => some 'a'
  | help => some 'h'
  | compact | lenient | deferred => none

/-- Whether a value follows. -/
def takesValue : Flag → Bool
  | database | mode | address => true
  | compact | lenient | deferred | help => false

/-- The variable of the environment that stands in for a flag. -/
def environmentName? : Flag → Option String
  | database => some "CROWDSTORE_DATABASE"
  | compact => some "CROWDSTORE_COMPACT"
  | lenient => some "CROWDSTORE_LENIENT"
  | deferred => some "CROWDSTORE_DEFERRED"
  | address => some "CROWDSTORE_ADDRESS"
  | mode | help => none

theorem long_injective {f g : Flag} (h : f.long = g.long) : f = g := by
  revert h
  cases f <;> cases g <;> decide

end Flag

/-- The truth value of a word. -/
def boolOfName? (name : String) : Option Bool :=
  if name = "true" then some true else if name = "false" then some false else none

/-- Whether a flag can have a value. -/
def Flag.accepts (value : String) : Flag → Bool
  | database => !value.isEmpty
  | compact | lenient | deferred => (boolOfName? value).isSome
  | mode => (Mode.ofName? value).isSome
  | address | help => true

namespace Verb

def all : List Verb := [init, query, exec, explain, start]

def name : Verb → String
  | init => "init"
  | query => "query"
  | exec => "exec"
  | explain => "explain"
  | start => "start"

/-- The verb of a name. -/
def ofName? (name : String) : Option Verb := all.find? fun v => v.name == name

theorem ofName?_name (v : Verb) : ofName? v.name = some v := by cases v <;> decide

/-- The number of operands that have to be there. -/
def operands : Verb → Nat
  | init | start => 0
  | query | exec | explain => 1

/-- Whether parameters may follow the operands. -/
def takesParameters : Verb → Bool
  | query => true
  | init | exec | explain | start => false

/-- The flags of a verb. -/
def flags : Verb → List Flag
  | query => [.database, .compact, .lenient, .deferred, .mode, .help]
  | start => [.database, .compact, .lenient, .deferred, .address, .help]
  | init | exec | explain => [.database, .compact, .lenient, .deferred, .help]

/-- The flag with a long name. -/
def flagOfLong? (v : Verb) (name : String) : Option Flag := v.flags.find? fun f => f.long == name

/-- The flag with a short name. -/
def flagOfShort? (v : Verb) (c : Char) : Option Flag := v.flags.find? fun f => f.short? == some c

end Verb

end RecordStore.CommandLine
