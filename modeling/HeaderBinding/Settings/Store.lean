import HeaderBinding.Files.FileTree
import HeaderBinding.Settings.Environment
import HeaderBinding.Settings.Toml
import HeaderBinding.Toml.Reader
import HeaderBinding.Toml.Writer

/-!
# Loading and Saving Settings

Settings are loaded from three layers: the built-in ones, a file, and the environment. A file that
is named by a relative path is looked for in the working directory and then in each directory above
it; a file that is nowhere adds nothing. Only the joined layers are checked, so a wrong value that a
later layer covers does no harm.

A file with a byte that is no text, or a text that follows no grammar, ends the loading.

## Main definitions

* `Settings.ofLayers`: The settings that layers give over the built-in ones.
* `Settings.load`: The settings of a file and the environment.
* `Settings.loadDefault`: The settings of the workspace.
* `Settings.save`: Writing settings to a file.
* `Settings.writeTemplate`: Writing a commented file to start from.
-/

namespace HeaderBinding

namespace FileTree

/-- The path of a place from the root. -/
def pathOf (location : Location) : Path :=
  "/" ++ String.intercalate "/" location.reverse

/-- A place and the places above it, up to the root. -/
def upwards : Location → List Location
  | [] => [[]]
  | name :: above => (name :: above) :: upwards above

/-- The working directory and the directories above it, up to the root. -/
def ancestors (t : FileTree) : List Location :=
  upwards t.workingDirectory

/-- The file a path leads to, from the working directory or else from one above it. -/
def findUpwards (t : FileTree) (path : Path) : Option Path :=
  if path.isAbsolute then if t.isFile path then some path else none
  else (t.ancestors.map fun dir => Path.join (pathOf dir) path).find? t.isFile

/-- How many parts two paths share in front. -/
def sharedLength : List String → List String → Nat
  | a :: as, b :: bs => if a = b then sharedLength as bs + 1 else 0
  | _, _ => 0

/-- An absolute path as it is seen from the working directory, if that has fewer parts. -/
def shown (t : FileTree) (path : Path) : Path :=
  let there := path.pieces.filter fun piece => piece ≠ "" ∧ piece ≠ "."
  let here := t.workingDirectory.reverse
  let shared := sharedLength here there
  let relative := List.replicate (here.length - shared) ".." ++ there.drop shared
  if relative.length ≤ there.length then String.intercalate "/" relative else path

end FileTree

/-- Why settings could not be saved. -/
inductive SaveError where
  /-- A path that is in no directory. -/
  | invalidPath
  | file (cause : FileError)
  /-- A file that is there already and should stay. -/
  | present
deriving DecidableEq, Inhabited, Repr

/-- What is said about the failure. -/
def SaveError.message : SaveError → String
  | invalidPath => "Invalid path"
  | file cause => cause.message
  | present => "Configuration file already exists. Use --force to overwrite"

namespace Settings

/-- The directory of a workspace's settings. -/
def directoryName : String := ".cxxbind"

/-- The name of a settings file. -/
def fileName : String := "settings.toml"

/-- The settings file of a workspace, seen from its top directory. -/
def defaultPath : Path := Path.join directoryName fileName

/-- The settings that layers give, each laid over the one before it and the first over the built-in
    settings. -/
def ofLayers (layers : List SettingValue) : Decoded Settings :=
  ofValue (layers.foldl .overlay (.ofToml .builtIn ({} : Settings).toToml))

/-- The layer of a settings file. -/
def fileLayer (files : FileTree) (path : Path) : Decoded SettingValue :=
  match files.findUpwards path with
  | none => .ok (.table .builtIn .empty)
  | some found =>
    let origin := .file (files.shown found)
    match files.readText found with
    | .error cause => .error { fault := .unreadable cause, origin }
    | .ok text =>
      match Toml.read? text with
      | none => .error { fault := .malformed, origin }
      | some value => .ok (.ofToml origin value)

/-- The settings of a file and of the environment. -/
def load (files : FileTree) (env : Dict String) (path : Path) : Decoded Settings := do
  ofLayers [← fileLayer files path, Environment.layer env]

/-- The settings file of the nearest directory with a directory for settings; without one, the file
    is looked for on its own. -/
def workspaceFile (files : FileTree) : Path :=
  match files.ancestors.find? fun dir =>
      files.isDirectory (Path.join (FileTree.pathOf dir) directoryName) with
  | some dir => Path.join (FileTree.pathOf dir) defaultPath
  | none => defaultPath

/-- The settings of the workspace and of the environment. -/
def loadDefault (files : FileTree) (env : Dict String) : Decoded Settings :=
  load files env (workspaceFile files)

/-- Write the text of a settings file, making the directories above it. -/
def write (files : FileTree) (path : Path) (text : String) : Except SaveError FileTree :=
  match path.parent? with
  | none => .error .invalidPath
  | some parent => Except.mapError SaveError.file do
    (← files.createDirectories parent).write path (.text text)

/-- Write settings to a file. -/
def save (settings : Settings) (files : FileTree) (path : Path) : Except SaveError FileTree :=
  write files path settings.toToml.pretty

/-- A settings file to start from. It says what each setting is for and holds the built-in ones. -/
def template : String := String.intercalate "\n" [
  "# cxxbind configuration file",
  "",
  "# Version of the configuration schema",
  "version = 1",
  "",
  "# Enable debug logging",
  "debug = false",
  "",
  "# Directory holding the module headers (e.g. $CONDA_PREFIX/include/opencascade)",
  "# prefix = \"/usr/include/opencascade\"",
  "",
  "# Every module name dependencies may resolve to",
  "known_modules = []",
  "",
  "[assembly]",
  "# What to do when two headers declare the same class, template or typedef:",
  "# \"overwrite\" (later header wins), \"reject\" (fail), \"merge\" (union the members)",
  "collision_policy = \"overwrite\"",
  "",
  "[parser]",
  "# \"tree-sitter\" reads headers directly, \"json\" reads <header>.json descriptors",
  "backend = \"tree-sitter\"",
  "",
  "# Extension of module headers",
  "header_extension = \"hxx\"",
  "",
  "# Macros removed before parsing",
  "strip_macros = [\"Standard_EXPORT\", \"Standard_API\", \"DEFINE_STANDARD_ALLOC\"]",
  "",
  "# Per-module overrides",
  "# [parser.modules.gp]",
  "# strip_macros = []",
  "# skip_headers = [\"gp_Mat.hxx\"]",
  ""]

/-- Write the file to start from below the working directory. A file that is there already is only
    replaced with `force`. -/
def writeTemplate (files : FileTree) (force : Bool) : Except SaveError FileTree :=
  if !force && files.holds defaultPath then .error .present
  else write files defaultPath template

end Settings

end HeaderBinding
