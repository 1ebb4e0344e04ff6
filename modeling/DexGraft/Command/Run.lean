import DexGraft.Command.FileTree
import DexGraft.Command.Request
import DexGraft.Patch.ConfigFile
import DexGraft.Patch.Standard.All
import DexGraft.Resource.PublicList
import DexGraft.Smali.Listing
import DexGraft.Storage.Fingerprint
import DexGraft.Storage.Resource
import DexGraft.Text.Visible

/-!
# Commands

What the program does on request. Files and output are reached through a console, so that a command
runs on a disk or in memory alike.
-/

namespace DexGraft.Command

open Text

/-- How a command reaches files and its output. -/
structure Console (m : Type → Type) where
  /-- The text of a file, if it can be read. -/
  read : String → m (Option String)
  /-- Writes a file, and says whether that was possible. -/
  write : String → String → m Bool
  print : String → m Unit

/-- Why a command ends early. -/
inductive Failure where
  /-- The message for the user. -/
  | message (text : String)
  /-- A register number beyond sixteen bits. -/
  | overflow
deriving DecidableEq, Repr

/-- The code with which the program ends. -/
def Failure.code : Failure → Nat
  | message _ => 1
  | overflow => 101

/-- The code for arguments that ask for nothing. -/
def usageCode : Nat := 2

/-! ## Colours -/

/-- A text between two control sequences, each with its number. -/
def styled (on off : Nat) (text : String) : String :=
  let sequence (n : Nat) := "\x1b[" ++ Numeral.decimal n ++ "m"
  sequence on ++ text ++ sequence off

def red : String → String := styled 31 39

def green : String → String := styled 32 39

def yellow : String → String := styled 33 39

def cyan : String → String := styled 36 39

def bold : String → String := styled 1 0

/-! ## Reports -/

/-- What became of one fingerprint. -/
structure ResolveReport where
  fingerprint : String
  /-- The descriptor of the method and what was found in it, or the error. -/
  outcome : Except Error (String × Scan)

namespace ResolveReport

def toJson (report : ResolveReport) : Json :=
  let found := report.outcome.toOption
  Json.record [
    ("fingerprint", some (.str report.fingerprint)),
    ("method", found.map fun (method, _) => .str method),
    ("pattern", found.bind fun (_, scan) => scan.window.map Window.toJson),
    ("strings", found.bind fun (_, scan) =>
      Json.unlessEmpty (fun s => .arr [.str s.string, .ofNat s.index]) scan.strings),
    ("error", match report.outcome with
      | .ok _ => none
      | .error e => some (.str e.message))]

/-- The lines about one fingerprint. -/
def text (report : ResolveReport) : String :=
  let name := bold report.fingerprint
  match report.outcome with
  | .error e => red "✗" ++ " " ++ name ++ " not found (" ++ e.message ++ ")\n"
  | .ok (method, scan) =>
    let window := match scan.window with
      | some window =>
        " [" ++ Numeral.decimal window.first ++ "..=" ++ Numeral.decimal window.last ++ "]"
      | none => ""
    let strings := scan.strings.map fun s =>
      "    " ++ Text.report s.string ++ " @ " ++ Numeral.decimal s.index ++ "\n"
    green "✓" ++ " " ++ name ++ " " ++ method ++ window ++ "\n" ++ join "" strings

end ResolveReport

/-- Searches fingerprints one after the other, and reports on each. -/
def resolveAll (pool : ClassPool) : ResolutionStore → List Fingerprint → List ResolveReport
  | _, [] => []
  | store, fingerprint :: rest =>
    let (result, store) := store.resolve fingerprint pool
    let outcome := do
      let resolution ← result
      .ok ((← pool.method resolution.method).descriptor, resolution.scan)
    ⟨fingerprint.name, outcome⟩ :: resolveAll pool store rest

def reportsText (reports : List ResolveReport) : String :=
  let resolved := reports.countP (·.outcome.isOk)
  join "" (reports.map ResolveReport.text) ++ "\nResolved " ++ Numeral.decimal resolved ++ "/" ++
    Numeral.decimal reports.length ++ " fingerprints\n"

/-- A number of 64 bits in base sixteen, with at least eight digits. -/
def idText (id : Int64) : String :=
  let digits := Numeral.digitsOf 14 id.toUInt64.toNat
  "0x" ++ String.ofList (List.replicate (8 - digits.length) '0' ++ digits)

def lookupText (mapping : ResourceMapping) (type : ResourceType) (name : String) : String :=
  let id := mapping.lookup type name
  let decimal := " (" ++ Numeral.signedDecimal id.toInt ++ ")\n"
  if id = missingId then red "NOT_FOUND" ++ " " ++ type.name ++ "/" ++ name ++ decimal
  else idText id ++ decimal

/-- What a run of patches has to say. -/
def patchText (applied : List String) (context : PatchContext) : String :=
  join "" (applied.map fun name => green "applied" ++ " " ++ name ++ "\n") ++
  join "" (context.resourceIds.missing.map fun (key, resource) =>
    yellow "missing" ++ " " ++ key ++ " (" ++ resource.type.name ++ "/" ++ resource.name ++
      ")\n") ++
  join "" (context.settings.preferences.map fun entry => cyan "preference" ++ " " ++ entry ++ "\n")

/-! ## Running -/

section Running

variable {m : Type → Type} [Monad m]

/-- A value, or a message that takes the place of the error. -/
def orFail {α : Type} (message : String) : Except Error α → ExceptT Failure m α
  | .ok value => pure value
  | .error e => throw (if e.isOverflow then .overflow else .message message)

/-- The text of a file in the form that `load` reads. -/
def loadFile {α : Type} (console : Console m) (what path : String)
    (load : String → Except Error α) : ExceptT Failure m α := do
  let result := match ← console.read path with
    | some text => load text
    | none => .error .file
  orFail s!"Failed to load {what} from {path}" result

def loadPool (console : Console m) (path : String) : ExceptT Failure m ClassPool :=
  loadFile console "class pool" path ClassPool.load

/-- Reads a list of public resources or a stored table, as the name of the file says. -/
def loadResources (console : Console m) (path : String) : ExceptT Failure m ResourceMapping := do
  let load :=
    if Path.hasExtension "xml" path then ResourceTable.ofPublicList else ResourceTable.load
  .ofTable <$> loadFile console "resources" path load

/-- The configuration in a file; the standard one, if there is none. -/
def loadConfig (console : Console m) (path : String) : ExceptT Failure m PatchConfig := do
  return ((← console.read path).bind PatchConfig.ofFile?).getD {}

def runResolve (console : Console m) (pool fingerprints : String) (json : Bool) :
    ExceptT Failure m Unit := do
  let pool ← loadPool console pool
  let set ← loadFile console "fingerprints" fingerprints FingerprintSet.load
  let built ← orFail "Invalid fingerprint definition" set.build
  let reports := resolveAll pool .empty built
  console.print
    (if json then (Json.arr (reports.map ResolveReport.toJson)).text ++ "\n"
     else reportsText reports)

def runLookup (console : Console m) (resources type name : String) :
    ExceptT Failure m Unit := do
  match ResourceType.ofName? (type.map Char.toLower) with
  | none => throw (.message s!"Unknown resource type '{type}'")
  | some type => console.print (lookupText (← loadResources console resources) type name)

def runListing (console : Console m) (pool descriptor : String) : ExceptT Failure m Unit := do
  let pool ← loadPool console pool
  let reference ←
    orFail s!"Invalid method descriptor '{descriptor}'" (MethodRef.parse descriptor)
  match (pool.findMethod? reference).bind pool.method? with
  | some method => console.print method.listing
  | none => throw (.message s!"Method {reference.text} is not in the pool")

def runPatch (console : Console m) (pool resources config output : String)
    (patches : List String) : ExceptT Failure m Unit := do
  let config ← loadConfig console config
  let pool ← loadPool console pool
  let resources ← loadResources console resources
  let runner := Patch.Standard.runner
  let run := if patches.isEmpty then runner.run else runner.runSelected patches
  let (result, context) := run.run.run { pool, resources, config }
  let applied ← orFail "Patching failed" result
  console.print (patchText applied context)
  if ← console.write output context.pool.save then console.print s!"Wrote {output}\n"
  else throw (.message s!"Failed to write patched pool to {output}")

def runRequest (console : Console m) : Request → ExceptT Failure m Unit
  | .resolve pool fingerprints json => runResolve console pool fingerprints json
  | .lookup resources type name => runLookup console resources type name
  | .listing pool method => runListing console pool method
  | .patch pool resources config output patches =>
    runPatch console pool resources config output patches
  | .help text => console.print text
  | .version => console.print versionText

end Running

/-! ## In memory -/

/-- What a command in memory has printed, and the files that it has left. -/
structure Session where
  files : FileTree
  printed : String := ""
deriving Repr

/-- The console of a session. -/
def Session.console : Console (StateM Session) where
  read path := do return (← get).files.read? path
  write path content := do
    let session ← get
    match session.files.write? path content with
    | some (.kept files) => do
      set { session with files }
      return true
    | some .printed => do
      set { session with printed := session.printed ++ content }
      return true
    | some .lost => return true
    | none => return false
  print text := modify fun session => { session with printed := session.printed ++ text }

/-- Runs the program in memory: the code with which it ends, its message, and what it has left. -/
def runInMemory (arguments : List String) (files : FileTree) : Nat × Option String × Session :=
  match Request.ofArguments? arguments with
  | none => (usageCode, none, { files })
  | some request =>
    let (result, session) := (runRequest Session.console request).run.run { files }
    match result with
    | .ok () => (0, none, session)
    | .error (.message text) => (Failure.code (.message text), some text, session)
    | .error .overflow => (Failure.code .overflow, none, session)

end DexGraft.Command
