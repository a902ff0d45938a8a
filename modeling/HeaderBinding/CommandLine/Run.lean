import HeaderBinding.CommandLine.Arguments
import HeaderBinding.Json.Printer
import HeaderBinding.Session.Build
import HeaderBinding.Session.Discovery
import HeaderBinding.Session.Reader
import HeaderBinding.Settings.Store

/-!
# Runs of the Program

A run as a function: from the words of the command line, the files and the environment to what is
written and which files there are afterwards.

A run is made of actions. An action may add to what has been written so far and may change files,
and when it fails, whatever it has written by then has been written. So that a failed run leaves its
output empty is not for the actions to promise. It depends on what is done before the first text is
printed.

A run that fails says on the other channel what went wrong, from the outermost attempt down to the
cause, and what may help. The log, which goes there too, is left out.

Settings that cannot be loaded end a run only if their file was asked for. Otherwise they are
reported and the built-in settings take their place.

## Main definitions

* `Surroundings`: What a run can see.
* `Progress`: What a run has left behind so far.
* `RunM`: An action of a run.
* `AssembleOptions.workplace`: What a run that assembles modules works with.
* `assembleModules`: The modules of a run in the order of their names on the command line.
* `showModules`: Printing them.
* `Invocation.run`: A run of what is asked for.
* `run`: A run of a command line.
-/

namespace HeaderBinding

namespace CommandLine

/-- What a run can see. -/
structure Surroundings where
  files : FileTree
  env : Dict String := .empty
  /-- The grammar of the headers' language, or why it cannot be loaded. -/
  grammar : Except String Grammar := .ok fun _ => none

/-- What a run has left behind so far. -/
structure Progress where
  output : String := ""
  /-- What is said besides the output. -/
  remarks : String := ""
  files : FileTree

/-- What a run leaves behind. -/
structure Outcome extends Progress where
  status : Nat

/-- Why a run failed. -/
inductive RunError where
  | settings (path : Path) (cause : SettingsError)
  | noHeaderDir
  /-- There is no session to read headers through. -/
  | session (cause : ParseError)
  | listing (dir : Path) (cause : ListingError)
  | module (cause : ModuleError)
  /-- A path that is no text was to be written as JSON. -/
  | pathNotText
  | template (cause : SaveError)
deriving DecidableEq, Inhabited, Repr

namespace RunError

/-- The messages from the outermost attempt down to the cause. -/
def chain : RunError → List String
  | settings path cause => ["Configuration error loading from " ++ path, cause.message]
  | noHeaderDir => ["No header prefix given; pass --prefix or set `prefix` in settings.toml"]
  | session cause => cause.message :: cause.source?.toList
  | listing dir cause =>
    ["Failed to list headers under " ++ dir, cause.message, cause.cause.message]
  | module cause => cause.chain
  | pathNotText => ["path contains invalid UTF-8 characters"]
  | template cause => ["Could not create configuration file: " ++ cause.message]

/-- Everything that is said about the failure. -/
def report (e : RunError) : String :=
  "Error: " ++ String.intercalate ": " e.chain ++ "\n" ++
    match e with
    | module cause =>
      "Status: " ++ cause.statusCode ++ "\n" ++
        String.join (cause.suggestions.map fun advice => "  - " ++ advice ++ "\n")
    | _ => ""

end RunError

/-- An action of a run. What it has left behind stays, also when it fails. -/
abbrev RunM := ExceptT RunError (StateM Progress)

namespace RunM

/-- Write to the output. -/
def print (text : String) : RunM Unit :=
  modify fun progress => { progress with output := progress.output ++ text }

/-- Say something besides the output. -/
def remark (text : String) : RunM Unit :=
  modify fun progress => { progress with remarks := progress.remarks ++ text }

/-- Leave other files behind. -/
def setFiles (files : FileTree) : RunM Unit :=
  modify fun progress => { progress with files }

/-- Go on with a result, if there is one. -/
def attempt {α : Type} (result : Except RunError α) : RunM α :=
  ExceptT.mk (pure result)

/-- The result of an action, and what is left behind once it is over. -/
def runFrom {α : Type} (action : RunM α) (progress : Progress) :
    Except RunError α × Progress :=
  action.run progress

end RunM

open RunM

/-- Names in one line, with their number in front. -/
def counted (label : String) (names : List String) : String :=
  "  " ++ label ++ " (" ++ toString names.length ++ "): " ++ String.intercalate ", " names ++ "\n"

/-- A module in a few lines. -/
def summary (m : BindingModule) : String :=
  "Module " ++ m.name ++ " (" ++ toString m.headers.length ++ " headers)\n" ++
    counted "classes" (m.classes.map (·.name)) ++
    (if m.classTemplates.isEmpty then ""
      else counted "class templates" (m.classTemplates.map (·.name))) ++
    "  typedefs: " ++ toString m.typedefs.length ++ ", enums: " ++ toString m.enums.length ++
    ", functions: " ++ toString m.functions.length ++
    ", operators: " ++ toString m.operators.length ++ "\n" ++
    "  depends on: " ++ String.intercalate ", " m.dependencies ++ "\n"

/-- Modules in full, as one JSON text. Each of them names the directory with the headers, and a path
    that is no text cannot be written. -/
def serialize (headerDir : Word) (modules : List BindingModule) : Except RunError String :=
  if headerDir.isText || modules.isEmpty then .ok (Json.arr (modules.map (·.toJson))).pretty
  else .error .pathNotText

/-- Print modules, in full or in a few lines each. -/
def showModules (json : Bool) (headerDir : Word) (modules : List BindingModule) : RunM Unit := do
  if json then print ((← attempt (serialize headerDir modules)) ++ "\n")
  else modules.forM fun m => print (summary m)

/-- What a run that assembles modules works with. -/
structure Workplace where
  settings : Settings
  /-- The directory with the headers. -/
  headerDir : Word
  session : ParserSession

/-- What a run works with under its settings, if there is anything to work with. A backend or a
    directory that is asked for replaces that of the settings. -/
def AssembleOptions.workplace (around : Surroundings) (settings : Settings)
    (options : AssembleOptions) : Except RunError Workplace := do
  let backend := options.backend.getD settings.parser.backend
  let settings := { settings with parser := { settings.parser with backend } }
  match options.headerDir <|> settings.headerDir.map .ofText with
  | none => .error .noHeaderDir
  | some headerDir =>
    let session ←
      (ParserSession.ofSettings around.files around.grammar settings.parser).mapError .session
    return { settings, headerDir, session }

/-- The modules of those names in order, up to the first that fails. -/
def assembleModules (files : FileTree) (settings : Settings) (headerDir : Path)
    (known : List String) : List String → ParserSession → RunM (List BindingModule)
  | [], _ => return []
  | name :: names, session => do
    let paths ← attempt <|
      (discoverHeaders files headerDir name settings.parser).mapError (.listing headerDir)
    let (result, session) := BindingModule.build name headerDir paths known settings session
    let m ← attempt (result.mapError .module)
    return m :: (← assembleModules files settings headerDir known names session)

/-- Assemble modules and print them. -/
def AssembleOptions.perform (around : Surroundings) (settings : Settings)
    (options : AssembleOptions) : RunM Unit := do
  let place ← attempt (options.workplace around settings)
  let known := place.settings.knownModules ++ options.known ++ options.modules
  let modules ← assembleModules around.files place.settings place.headerDir.shown known
    options.modules place.session
  showModules options.json place.headerDir modules

/-- The settings in full. -/
def showSettings (settings : Settings) : String :=
  "Current Configuration:\n" ++ String.ofList (List.replicate 50 '=') ++ "\n" ++
    settings.toToml.pretty ++ "\n"

/-- Carry a command out. -/
def Command.perform (around : Surroundings) (settings : Settings) : Command → RunM Unit
  | .init force => do
    setFiles (← attempt ((Settings.writeTemplate around.files force).mapError .template))
    print ("Created configuration file at: " ++ Settings.defaultPath ++
      "\nEdit this file to customize your settings.\n")
  | .config => print (showSettings settings)
  | .assemble options => options.perform around settings

/-- The settings of a run, and what is said about them. -/
def loadSettings (around : Surroundings) : Option Path → Except RunError (Settings × String)
  | some path => do
    let settings ← (Settings.load around.files around.env path).mapError (.settings path)
    return (settings, "")
  | none =>
    match Settings.loadDefault around.files around.env with
    | .ok settings => .ok (settings, "")
    | .error e => .ok ({}, "Configuration error: " ++ e.message ++ "\n")

/-- Carry out what is asked for. -/
def Invocation.perform (around : Surroundings) (invocation : Invocation) : RunM Unit := do
  let (settings, remarks) ← attempt (loadSettings around invocation.settingsFile)
  remark remarks
  invocation.command.perform around settings

/-- A run of what is asked for. -/
def Invocation.run (around : Surroundings) (invocation : Invocation) : Outcome :=
  let (result, progress) := (invocation.perform around).runFrom { files := around.files }
  match result with
  | .ok _ => { progress with status := 0 }
  | .error e => { progress with status := 1, remarks := progress.remarks ++ e.report }

/-- The program's name and version. -/
def versionLine : String := "cxxbind 0.1.0\n"

/-- How the program is used. -/
def usage : String := String.intercalate "\n" [
  "Assemble C++ headers into ordered, qualified binding modules",
  "",
  "Usage: cxxbind [OPTIONS] <COMMAND>",
  "",
  "Commands:",
  "  init [--force]          Set up .cxxbind directory with default configuration",
  "  config                  Display active settings",
  "  assemble <MODULES>...   Parse and assemble one or more modules",
  "      [--prefix <PREFIX>] [--known <KNOWN>]... [--parser tree-sitter|json] [--json]",
  "",
  "Options:",
  "  -c, --config <CONFIG>   Path to custom settings.toml file",
  "  -v, --verbose           Log progress to stderr (repeat for more detail)",
  "  -h, --help              Print help",
  "  -V, --version           Print version",
  ""]

/-- A run of a command line. -/
def run (around : Surroundings) (arguments : List Word) : Outcome :=
  match Invocation.ofArguments arguments with
  | .ok invocation => invocation.run around
  | .error .usage => { status := 2, remarks := usage, files := around.files }
  | .error .help => { status := 0, output := usage, files := around.files }
  | .error .version => { status := 0, output := versionLine, files := around.files }

end CommandLine

end HeaderBinding
