/-!
Command lines.  A command has a path and options of its own; the option for a settings file may
stand before the command or behind it.
-/

namespace DesignMarkup

/-- A command with its path and options. -/
inductive Command where
  | exportForest (path : String) (out : Option String)
  | generate (path : String) (outDir : Option String)
  | autoTag (path : String) (all descendants write : Bool)
  | check (path : String)
deriving DecidableEq, Repr

/-- What a command line asks for. -/
inductive Request where
  | version
  | run (config : Option String) (command : Command)
deriving DecidableEq, Repr

namespace Arguments

/-- The options of a command: those with a value and those without. -/
structure Grammar where
  valued : List String
  switches : List String

/-- What was given to a command. -/
structure Given where
  path : Option String := none
  values : List (String × String) := []
  switches : List String := []
deriving DecidableEq, Repr

/-- The option for a settings file. -/
def configOption : String :=
  "--config"

/-- An argument that names an option. -/
def isOption (arg : String) : Bool :=
  match arg.toList with
  | '-' :: _ :: _ => true
  | _ => false

/-- The name and value of an option that has its value attached. -/
def attached? (arg : String) : Option (String × String) :=
  match arg.toList.span (· ≠ '=') with
  | (name, '=' :: value) => some (String.ofList name, String.ofList value)
  | _ => none

/-- The path of a command may be given once and is not empty. -/
def Given.addPath (g : Given) (path : String) : Option Given :=
  if path = "" ∨ g.path.isSome then none else some { g with path := some path }

/-- An option may be given one value, which is not empty. -/
def Given.addValue (g : Given) (name value : String) : Option Given :=
  if value = "" ∨ (g.values.lookup name).isSome then none
  else some { g with values := g.values ++ [(name, value)] }

/-- A switch may be given once. -/
def Given.addSwitch (g : Given) (name : String) : Option Given :=
  if name ∈ g.switches then none else some { g with switches := g.switches ++ [name] }

/-- The arguments of a command.  After `--` nothing is an option any more. -/
def readCommand? (grammar : Grammar) : Given → List String → Option Given
  | g, [] => some g
  | g, "--" :: rest => rest.foldlM Given.addPath g
  | g, arg :: rest =>
      if arg ∈ grammar.switches then
        (g.addSwitch arg).bind fun g => readCommand? grammar g rest
      else if arg ∈ grammar.valued then
        match rest with
        | value :: rest =>
            if isOption value then none
            else (g.addValue arg value).bind fun g => readCommand? grammar g rest
        | [] => none
      else if isOption arg then
        match attached? arg with
        | some (name, value) =>
            if name ∈ grammar.valued then
              (g.addValue name value).bind fun g => readCommand? grammar g rest
            else none
        | none => none
      else (g.addPath arg).bind fun g => readCommand? grammar g rest

/-- The options of each command, and the command that was given. -/
def commands : List (String × Grammar × (Given → String → Command)) := [
  ("export", ⟨[configOption, "--out"], []⟩,
    fun g path => .exportForest path (g.values.lookup "--out")),
  ("generate", ⟨[configOption, "--out-dir"], []⟩,
    fun g path => .generate path (g.values.lookup "--out-dir")),
  ("auto-tag", ⟨[configOption], ["--all", "--descendants", "--write"]⟩,
    fun g path => .autoTag path (g.switches.contains "--all")
      (g.switches.contains "--descendants") (g.switches.contains "--write")),
  ("check", ⟨[configOption], []⟩, fun _ path => .check path)]

/-- The request for a command.  A settings file named behind the command counts more than one
named before it. -/
def readSubcommand? (outer : Given) (name : String) (args : List String) : Option Request := do
  let (grammar, make) ← commands.lookup name
  let given ← readCommand? grammar {} args
  let path ← given.path
  let config := (given.values.lookup configOption).or (outer.values.lookup configOption)
  return .run config (make given path)

/-- The short form of the option for the version, alone or before other letters. -/
def isVersionLetter (arg : String) : Bool :=
  match arg.toList with
  | '-' :: 'V' :: _ => true
  | _ => false

/-- The request of the arguments that come before a command and of the command. -/
def readFrom? : Given → List String → Option Request
  | _, [] => none
  | g, arg :: rest =>
      if arg = "--version" ∨ isVersionLetter arg then some .version
      else if arg = configOption then
        match rest with
        | value :: rest =>
            if isOption value then none else (g.addValue arg value).bind fun g => readFrom? g rest
        | [] => none
      else if isOption arg then
        match attached? arg with
        | some (name, value) =>
            if name = configOption then (g.addValue name value).bind fun g => readFrom? g rest
            else none
        | none => none
      else readSubcommand? g arg rest

/-- What a command line asks for, if it is well-formed. -/
def read? (args : List String) : Option Request :=
  readFrom? {} args

end Arguments
end DesignMarkup
