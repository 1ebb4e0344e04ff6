import DexGraft.Text.Cut

/-!
# Requests

What the command line asks for. Options may stand in any order, in their long or their short form; a
value may be attached to its option.
-/

namespace DexGraft.Command

inductive Request where
  | resolve (pool fingerprints : String) (json : Bool)
  | lookup (resources type name : String)
  | listing (pool method : String)
  | patch (pool resources config output : String) (patches : List String)
  | help (text : String)
  | version
deriving DecidableEq, Repr

/-- What an option takes. -/
inductive Taking where
  /-- Nothing. -/
  | flag
  /-- A text. -/
  | text
  /-- A text that is not empty. -/
  | path
deriving DecidableEq, Repr

structure OptionSpec where
  long : String
  short : Option Char := none
  taking : Taking := .path
  /-- What the value is called. -/
  value : String := "FILE"
  isRequired : Bool := true
  mayRepeat : Bool := false
  about : String
deriving DecidableEq, Repr

structure CommandSpec where
  name : String
  about : String
  options : List OptionSpec
deriving DecidableEq, Repr

namespace Spec

def pool : OptionSpec :=
  { long := "pool", short := some 'p', about := "Class pool JSON file" }

def resources : OptionSpec :=
  { long := "resources", short := some 'r'
    about := "Resource table: JSON, or an Android public.xml" }

def verbose : OptionSpec :=
  { long := "verbose", short := some 'v', taking := .flag, isRequired := false
    about := "Enable debug logging" }

def resolve : CommandSpec :=
  { name := "resolve"
    about := "Resolve a fingerprint set against a class pool"
    options := [
      pool, verbose,
      { long := "fingerprints", short := some 'f'
        about := "Fingerprint definitions JSON file" },
      { long := "json", taking := .flag, isRequired := false
        about := "Print results as JSON" }] }

def lookup : CommandSpec :=
  { name := "lookup"
    about := "Look up a resource id by type and name"
    options := [
      resources, verbose,
      { long := "type", short := some 't', taking := .text, value := "RESOURCE_TYPE"
        about := "Resource type, e.g. layout or string" },
      { long := "name", short := some 'n', taking := .text, value := "NAME"
        about := "Resource name" }] }

def listing : CommandSpec :=
  { name := "show"
    about := "Print a method as smali"
    options := [
      pool, verbose,
      { long := "method", short := some 'm', taking := .text, value := "METHOD"
        about := "Method descriptor, e.g. \"Lapp/Player;->seek(J)Z\"" }] }

def defaultConfig : String := "dexpatch.toml"

def patch : CommandSpec :=
  { name := "patch"
    about := "Run the built-in patches and save the patched pool"
    options := [
      pool, verbose, resources,
      { long := "config", short := some 'c', isRequired := false
        about := "Patch configuration TOML file [default: " ++ defaultConfig ++ "]" },
      { long := "output", short := some 'o', about := "Where to write the patched pool" },
      { long := "patch", taking := .text, value := "NAME", isRequired := false
        mayRepeat := true
        about := "Only run these patches (and what they depend on)" }] }

def commands : List CommandSpec := [resolve, lookup, listing, patch]

def help : OptionSpec :=
  { long := "help", short := some 'h', taking := .flag, isRequired := false
    about := "Print help" }

def version : OptionSpec :=
  { long := "version", short := some 'V', taking := .flag, isRequired := false
    about := "Print version" }

end Spec

/-! ## Help -/

namespace Help

def pad (width : Nat) (s : String) : String :=
  s ++ String.ofList (List.replicate (width - s.length) ' ')

def valueText (option : OptionSpec) : String :=
  if option.taking = .flag then "" else " <" ++ option.value ++ ">"

/-- An option as a list of options shows it. -/
def optionText (option : OptionSpec) : String :=
  (match option.short with
    | some c => String.ofList ['-', c, ',', ' ']
    | none => "    ") ++ "--" ++ option.long ++ valueText option

/-- Pairs of a thing and what it does, the latter in one column. -/
def columns (rows : List (String × String)) : String :=
  let width := (rows.map fun (front, _) => front.length).foldl max 0
  Text.join "" (rows.map fun (front, about) => "  " ++ pad width front ++ "  " ++ about ++ "\n")

def optionColumns (options : List OptionSpec) : String :=
  "Options:\n" ++ columns (options.map fun option => (optionText option, option.about))

def ofCommand (command : CommandSpec) : String :=
  let needed := command.options.filter (·.isRequired)
  let usage := needed.map fun option => " --" ++ option.long ++ valueText option
  command.about ++ "\n\nUsage: dexpatch " ++ command.name ++ " [OPTIONS]" ++ Text.join "" usage ++
    "\n\n" ++ optionColumns (command.options ++ [Spec.help])

def aboutHelp : String := "Print this message or the help of the given subcommand(s)"

def ofHelp : String :=
  aboutHelp ++ "\n\nUsage: dexpatch help [COMMAND]...\n\nArguments:\n" ++
    columns [("[COMMAND]...", "Print help for the subcommand(s)")]

def ofProgram : String :=
  let commands := Spec.commands.map fun command => (command.name, command.about)
  let helpRow := ("help", aboutHelp)
  "Locate methods in a class pool by fingerprint and patch them\n\n" ++
    "Usage: dexpatch [OPTIONS] <COMMAND>\n\nCommands:\n" ++ columns (commands ++ [helpRow]) ++
    "\n" ++ optionColumns [Spec.verbose, Spec.help, Spec.version]

end Help

def versionText : String := "dexpatch 0.2.0\n"

/-! ## Reading arguments -/

/-- Why there is no request: the arguments are wrong, or help was asked for in between. -/
inductive Stop where
  | usage
  | answer (request : Request)
deriving DecidableEq, Repr

/-- The options that were given, with their values, the first one first. -/
abbrev Given := List (OptionSpec × String)

/-- Adds an option, which may stand twice only if it is one of those that may. -/
def addGiven (given : Given) (option : OptionSpec) (value : String) : Except Stop Given :=
  if option.taking = .path ∧ value.isEmpty then .error .usage
  else if !option.mayRepeat && given.any (·.1.long == option.long) then .error .usage
  else .ok (given ++ [(option, value)])

/-- An option that takes nothing. -/
def addFlag (helpText : String) (given : Given) (option : OptionSpec) : Except Stop Given :=
  if option.long = Spec.help.long then .error (.answer (.help helpText))
  else if option.long = Spec.version.long then .error (.answer .version)
  else addGiven given option ""

/--
The short options of one argument: flags, and at most one option with a value at the end. The result
says which option still needs its value.
-/
def readShort (options : List OptionSpec) (helpText : String) (given : Given) :
    List Char → Except Stop (Given × Option OptionSpec)
  | [] => .ok (given, none)
  | c :: cs =>
    match options.find? (·.short == some c) with
    | none => .error .usage
    | some option =>
      if option.taking = .flag then do
        readShort options helpText (← addFlag helpText given option) cs
      else match cs with
        | [] => .ok (given, some option)
        | '=' :: value | value =>
          (addGiven given option (String.ofList value)).map (·, none)

/-- A long option. The result says whether it still needs its value. -/
def readLong (options : List OptionSpec) (helpText : String) (given : Given) (cs : List Char) :
    Except Stop (Given × Option OptionSpec) :=
  let (name, value) := match Text.cut? (· == '=') cs with
    | some (name, value) => (name, some value)
    | none => (cs, none)
  match options.find? (·.long.toList == name), value with
  | none, _ => .error .usage
  | some option, none =>
    if option.taking = .flag then (addFlag helpText given option).map (·, none)
    else .ok (given, some option)
  | some option, some value =>
    if option.taking = .flag then .error .usage
    else (addGiven given option (String.ofList value)).map (·, none)

/-- Whether an argument is one or several options. -/
def isOption : List Char → Bool
  | '-' :: _ :: _ => true
  | _ => false

/--
The options of a command and the argument at which they end, with what stands behind it. `waiting`
is an option whose value comes next.
-/
def readOptions (options : List OptionSpec) (helpText : String) (given : Given)
    (waiting : Option OptionSpec) : List String → Except Stop (Given × List String)
  | [] => if waiting.isSome then .error .usage else .ok (given, [])
  | argument :: rest =>
    match waiting, argument.toList with
    | some option, cs =>
      if isOption cs then .error .usage
      else do readOptions options helpText (← addGiven given option argument) none rest
    | none, ['-', '-'] => if rest.isEmpty then .ok (given, []) else .error .usage
    | none, '-' :: '-' :: cs => do
      let (given, waiting) ← readLong options helpText given cs
      readOptions options helpText given waiting rest
    | none, '-' :: c :: cs => do
      let (given, waiting) ← readShort options helpText given (c :: cs)
      readOptions options helpText given waiting rest
    | none, _ => .ok (given, argument :: rest)

def valuesOf (given : Given) (name : String) : List String :=
  (given.filter (·.1.long == name)).map (·.2)

/-- The value of an option that was given, or else the empty text. -/
def valueOf (given : Given) (name : String) : String := (valuesOf given name).headD ""

/-- The request of a command with its options. -/
def requestOf (command : CommandSpec) (given : Given) : Except Stop Request :=
  let value := valueOf given
  if command = Spec.resolve then
    .ok (.resolve (value "pool") (value "fingerprints") (given.any (·.1.long == "json")))
  else if command = Spec.lookup then
    .ok (.lookup (value "resources") (value "type") (value "name"))
  else if command = Spec.listing then .ok (.listing (value "pool") (value "method"))
  else if command = Spec.patch then
    .ok (.patch (value "pool") (value "resources")
      ((valuesOf given "config").headD Spec.defaultConfig) (value "output")
      (valuesOf given "patch"))
  else .error .usage

/-- A command with the arguments behind its name. -/
def readCommand (command : CommandSpec) (arguments : List String) : Except Stop Request := do
  let options := command.options ++ [Spec.help]
  let (given, rest) ← readOptions options (Help.ofCommand command) [] none arguments
  let isComplete := command.options.all fun option =>
    !option.isRequired || given.any (·.1.long == option.long)
  if !rest.isEmpty || !isComplete then .error .usage else requestOf command given

/-- Asks for help, about the program or about a command. -/
def readHelp : List String → Except Stop Request
  | [] => .ok (.help Help.ofProgram)
  | name :: rest =>
    match Spec.commands.find? (·.name == name) with
    | some command => if rest.isEmpty then .ok (.help (Help.ofCommand command)) else .error .usage
    | none => if name = "help" ∧ rest.isEmpty then .ok (.help Help.ofHelp) else .error .usage

def readArguments (arguments : List String) : Except Stop Request := do
  let options := [Spec.verbose, Spec.help, Spec.version]
  let (_, rest) ← readOptions options Help.ofProgram [] none arguments
  match rest with
  | [] => .error .usage
  | name :: rest =>
    match Spec.commands.find? (·.name == name) with
    | some command => readCommand command rest
    | none => if name = "help" then readHelp rest else .error .usage

/-- What the arguments ask for; nothing, if they are wrong. -/
def Request.ofArguments? (arguments : List String) : Option Request :=
  match readArguments arguments with
  | .ok request | .error (.answer request) => some request
  | .error .usage => none

end DexGraft.Command
