import BrokerAgent.Options.Basic

/-!
# The command line

Options come from three places: the command line, variables of the environment for what is not
given there, and defaults. Arguments are taken from left to right. An option may be waiting for
its value; what it waits for is settled when the next known option begins, or at the end. The main
definition is `Options.ofArguments`.
-/

namespace BrokerAgent

/-- Why a command line was refused; asking for help counts as a refusal. -/
inductive Usage
  | unknownArgument
  /-- A value is missing or, where that is not allowed, empty. -/
  | missingValue
  /-- A value is none of those that its option takes. -/
  | unreadableValue
  /-- An option that is given once is given again. -/
  | repeatedOption
  /-- A value for an option that takes none. -/
  | unwantedValue
  | help
deriving DecidableEq, Repr

/-- The variables of the environment, as far as they are set. -/
structure Environment where
  config : Option String := none
  protocols : Option String := none
  addresses : Option String := none
  level : Option String := none
deriving DecidableEq, Repr

namespace CommandLine

/-- The options with a value. -/
inductive Setting
  | config
  | protocols
  | addresses
  | level
deriving DecidableEq, Repr

/-- The known options. -/
inductive Switch
  | setting (s : Setting)
  | print
  | help
deriving DecidableEq, Repr

/-- The option of a name. -/
def Switch.ofName? (name : List Char) : Option Switch :=
  match String.ofList name with
  | "config" => some (.setting .config)
  | "protocol" => some (.setting .protocols)
  | "address" => some (.setting .addresses)
  | "log-level" => some (.setting .level)
  | "print" => some .print
  | "help" => some .help
  | _ => none

/-- What an argument looks like: the end of the options, an option by its name with a value in the
same argument or not, letters after a single dash, or anything else. -/
inductive Argument
  | endOfOptions
  | long (name : List Char) (value : Option (List Char))
  | short (letters : List Char)
  | plain
deriving DecidableEq, Repr

/-- Looks at an argument. A single dash is like any other text. -/
def Argument.of (text : List Char) : Argument :=
  match text with
  | ['-', '-'] => .endOfOptions
  | '-' :: '-' :: rest =>
    match rest.dropWhile (· ≠ '=') with
    | [] => .long rest none
    | _ :: value => .long (rest.takeWhile (· ≠ '=')) (some value)
  | '-' :: c :: rest => .short (c :: rest)
  | _ => .plain

/-- The options that have been given so far. -/
structure Chosen where
  config : Option String := none
  protocols : Option (List String) := none
  addresses : Option (List String) := none
  level : Option Level := none
  print : Bool := false
deriving DecidableEq, Repr

/-- The items of a value, which is a list written with commas. There is always at least one. -/
def items (value : String) : List String :=
  (value.toList.splitOn ',').map String.ofList

/-- The file that a value names. -/
def configOf (value : String) : Except Usage String :=
  if value = "" then .error .missingValue else .ok value

/-- The level that a value names. -/
def levelOf (value : String) : Except Usage Level :=
  match Level.ofText? value with
  | some level => .ok level
  | none => .error .unreadableValue

/-- Takes an option with its value. Lists grow with each occurrence, other options are given once.
-/
def Chosen.set (c : Chosen) (s : Setting) (value : String) : Except Usage Chosen :=
  match s with
  | .protocols => .ok { c with protocols := some (c.protocols.getD [] ++ items value) }
  | .addresses => .ok { c with addresses := some (c.addresses.getD [] ++ items value) }
  | .config =>
    if c.config.isSome then .error .repeatedOption
    else (configOf value).map fun path => { c with config := some path }
  | .level =>
    if c.level.isSome then .error .repeatedOption
    else (levelOf value).map fun level => { c with level := some level }

/-- An option that waits: for its value, or with its value for the next option. -/
structure Pending where
  setting : Setting
  value : Option String
deriving DecidableEq, Repr

/-- Settles what waits. An option without its value is an error. -/
def settle (pending : Option Pending) (c : Chosen) : Except Usage Chosen :=
  match pending with
  | none => .ok c
  | some ⟨_, none⟩ => .error .missingValue
  | some ⟨s, some value⟩ => c.set s value

/-- Takes an option by its name. -/
def takeSwitch (switch : Switch) (value : Option String) (pending : Option Pending) (c : Chosen) :
    Except Usage (Option Pending × Chosen) :=
  match switch, value with
  | .setting s, none => do
    let c ← settle pending c
    return (some ⟨s, none⟩, c)
  | .setting s, some value => do
    let c ← settle pending c
    return (none, ← c.set s value)
  | _, some _ => .error .unwantedValue
  | .print, none => do
    let c ← settle pending c
    if c.print then .error .repeatedOption else return (none, { c with print := true })
  | .help, none => do
    let _ ← settle pending c
    .error .help

/-- Takes an argument before the end of the options. -/
def takeArgument (text : String) (pending : Option Pending) (c : Chosen) :
    Except Usage (Option Pending × Chosen) :=
  match Argument.of text.toList with
  | .long name value =>
    match Switch.ofName? name with
    | some switch => takeSwitch switch (value.map String.ofList) pending c
    | none => .error .unknownArgument
  | .short ('h' :: _) => takeSwitch .help none pending c
  | .short _ => .error .unknownArgument
  | _ =>
    match pending with
    | some ⟨s, none⟩ => .ok (some ⟨s, some text⟩, c)
    | _ => .error .unknownArgument

/-- Takes all arguments. Nothing may follow the end of the options. -/
def takeAll (pending : Option Pending) (c : Chosen) : List String → Except Usage Chosen
  | [] => settle pending c
  | text :: texts =>
    if text = "--" then if texts = [] then settle pending c else .error .unknownArgument
    else
      match takeArgument text pending c with
      | .error usage => .error usage
      | .ok (pending, c) => takeAll pending c texts

/-- Takes a variable for an option that was not given. -/
def fill {α : Type} (given : Option α) (inEnvironment : Option String)
    (read : String → Except Usage α) : Except Usage (Option α) :=
  match given, inEnvironment with
  | some a, _ => .ok (some a)
  | none, none => .ok none
  | none, some value => (read value).map some

/-- The options of the command line, the environment and the defaults together. -/
def complete (c : Chosen) (env : Environment) : Except Usage Options := do
  let config ← fill c.config env.config configOf
  let protocols ← fill c.protocols env.protocols fun value => .ok (items value)
  let addresses ← fill c.addresses env.addresses fun value => .ok (items value)
  let level ← fill c.level env.level levelOf
  let default : Options := {}
  return {
    config := config
    protocols := protocols.getD default.protocols
    addresses := addresses.getD default.addresses
    level := level.getD default.level
    print := c.print }

end CommandLine

/-- The options that a command line and an environment give. -/
def Options.ofArguments (arguments : List String) (env : Environment) : Except Usage Options := do
  CommandLine.complete (← CommandLine.takeAll none {} arguments) env

end BrokerAgent
