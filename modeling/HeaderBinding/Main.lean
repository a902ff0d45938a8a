import HeaderBinding.CommandLine.Run

/-!
# The Program

A run over the files of the system. The run itself is a function; here its surroundings are
collected and what it leaves behind is carried out.

Files are collected in two rounds. The first finds the settings, in the working directory and above
it. The settings then name the directories of headers and descriptors, which the second round adds.

No grammar of the headers' language is linked in, so headers are read from their descriptors.

## Main definitions

* `main`: The program.
-/

namespace HeaderBinding

namespace CommandLine

/-- What the bytes of a file hold. -/
def contentOf (bytes : ByteArray) : FileContent :=
  match String.fromUTF8? bytes with
  | some value => .text value
  | none => .binary

/-- The tree with a file at a path, or as it is if the file cannot be added. -/
def withFile (files : FileTree) (path : Path) (content : FileContent) : FileTree :=
  let added := do (← files.createDirectories (path.parent?.getD "")).write path content
  match added with
  | .ok files => files
  | .error _ => files

/-- The tree with a directory at a path, or as it is if the directory cannot be added. -/
def withDirectory (files : FileTree) (path : Path) : FileTree :=
  match files.createDirectories path with
  | .ok files => files
  | .error _ => files

/-- The variables in the text that the system keeps of them. -/
def variablesOfText (text : String) : Dict String :=
  .ofList ((Text.splitWhere (· == '\x00') text.toList).filterMap fun entry =>
    match entry.dropWhile (· != '=') with
    | '=' :: value => some (String.ofList (entry.takeWhile (· != '=')), String.ofList value)
    | _ => none)

/-- Add what stands at a path: a file with its content, or a directory with the files in it. -/
def collect (files : FileTree) (path : Path) : IO FileTree := do
  let place := (← IO.currentDir) / path
  if !(← place.pathExists) then return files
  if !(← place.isDir) then return withFile files path (contentOf (← IO.FS.readBinFile place))
  let mut files := withDirectory files path
  for entry in ← place.readDir do
    let inner := Path.join path entry.fileName
    files ←
      if ← entry.path.isDir then pure (withDirectory files inner)
      else do pure (withFile files inner (contentOf (← IO.FS.readBinFile entry.path)))
  return files

/-- Add what stands at several paths. -/
def collectAll (files : FileTree) (paths : List Path) : IO FileTree :=
  paths.foldlM collect files

/-- The paths at which a run looks for its settings. -/
def settingsPlaces (files : FileTree) (invocation : Invocation) : List Path :=
  let below (name : Path) := files.ancestors.map fun dir => Path.join (FileTree.pathOf dir) name
  below Settings.directoryName ++ (invocation.settingsFile.map below).getD []

/-- The directories in which a run looks for headers and descriptors. -/
def headerPlaces (settings : Settings) (invocation : Invocation) : List Path :=
  match invocation.command with
  | .assemble options =>
    (options.headerDir.map (·.shown) <|> settings.headerDir).toList ++
      settings.parser.descriptorDir.toList
  | _ => []

/-- Carry out what a run has added to the files it saw. -/
def carryOut (before after : FileTree) : IO Unit := do
  for (location, entry) in after.entries.reverse do
    if before.entries.lookup location != some entry then
      let place := (← IO.currentDir) / FileTree.pathOf location
      match entry with
      | .directory => IO.FS.createDirAll place
      | .file (.text value) => IO.FS.writeFile place value
      | .file .binary => pure ()

/-- The surroundings of a run, as far as it looks at them. -/
def surroundings (invocation : Invocation) : IO Surroundings := do
  let here ← IO.currentDir
  let location := (here.components.filter (!·.isEmpty)).reverse
  let start := withDirectory {} (FileTree.pathOf location)
  let start := { start with workingDirectory := location }
  let env ← try pure (variablesOfText (← IO.FS.readFile "/proc/self/environ"))
    catch _ => pure .empty
  let files ← collectAll start (settingsPlaces start invocation)
  match loadSettings { files, env } invocation.settingsFile with
  | .error _ => return { files, env }
  | .ok (settings, _) =>
    return { files := ← collectAll files (headerPlaces settings invocation), env }

end CommandLine

end HeaderBinding

open HeaderBinding CommandLine in
/-- A run of the program with the words of its command line. -/
def main (arguments : List String) : IO UInt32 := do
  let arguments := arguments.map Word.ofText
  let around ← match Invocation.ofArguments arguments with
    | .ok invocation => surroundings invocation
    | .error _ => pure { files := {} }
  let outcome := run around arguments
  (← IO.getStdout).putStr outcome.output
  (← IO.getStderr).putStr outcome.remarks
  carryOut around.files outcome.files
  return outcome.status.toUInt32
