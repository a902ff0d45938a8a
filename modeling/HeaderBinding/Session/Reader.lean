import HeaderBinding.Extraction.HeaderScope
import HeaderBinding.Files.FileTree
import HeaderBinding.Json.Reader
import HeaderBinding.Record.Json
import HeaderBinding.Session.Basic
import HeaderBinding.Session.Location
import HeaderBinding.Syntax.Macros

/-!
# The Two Backends

A header is read from its own text, through its syntax tree, or from the descriptor that another
tool has written about it.

The grammar of the headers' language is not part of this library. A `Grammar` is whatever gives the
syntax tree of a text; a text for which it gives none, or a tree that does not fit its text, leaves
the header without records. Loading the grammar can fail, and then there is no session. Descriptors
need no grammar.

## Main definitions

* `Grammar`: What gives texts their syntax trees.
* `readFromTree`: The records of a header from its syntax tree.
* `readDescriptor`: The records of a header from its descriptor.
* `Backend.reader`: The reader of a backend, if it can be set up.
* `ParserSession.ofSettings`: A session with the backend the settings choose.
-/

namespace HeaderBinding

/-- What gives texts their syntax trees. -/
abbrev Grammar := List Char → Option Syntax.Node

/-- How many containers may be nested in a descriptor. -/
def descriptorDepth : Nat := 127

/-- The records of a header from its syntax tree, once its macros are blanked out. -/
def readFromTree (files : FileTree) (grammar : Grammar) (request : ReadRequest) :
    Except ParseError Header := do
  let path := resolveHeaderPath request.path request.headerDir
  let text ← (files.readText path).mapError (.fileRead path)
  let code := stripMacros (request.settings.stripMacrosFor request.module) text.toList
  match grammar code with
  | none => .error (.aborted path)
  | some tree => (Extraction.extractHeader code path tree).mapError fun _ => .aborted path

/-- A header's record with its own place filled in where it says nothing. -/
def fillLocation (path : Path) (header : Header) : Header :=
  { header with
    path := if header.path.isEmpty then path else header.path
    shortName :=
      if header.shortName.isEmpty then (Header.ofPath path).shortName else header.shortName }

/-- The records of a header from its descriptor. -/
def readDescriptor (files : FileTree) (request : ReadRequest) : Except ParseError Header := do
  let path := resolveHeaderPath request.path request.headerDir
  let descriptor := descriptorPath request.settings path
  if !files.isFile descriptor then .error (.missingDescriptor path descriptor)
  let text ← (files.readText descriptor).mapError (.fileRead descriptor)
  match (Json.read? descriptorDepth text).bind Header.ofJson? with
  | none => .error (.invalidDescriptor descriptor)
  | some header => pure (fillLocation path header)

/-- A reader that looks at the last request alone. -/
def HeaderReader.ofLast (read : ReadRequest → Except ParseError Header) : HeaderReader
  | [] => .error (.aborted "")
  | request :: _ => read request

/-- The reader of a backend. `grammar` is the grammar, or why it cannot be loaded. -/
def Backend.reader (files : FileTree) (grammar : Except String Grammar) :
    Backend → Except ParseError HeaderReader
  | .treeSitter => do
    let grammar ← grammar.mapError fun reason =>
      .readerInit "tree-sitter" ("Failed to set C++ language: " ++ reason)
    return .ofLast (readFromTree files grammar)
  | .json => .ok (.ofLast (readDescriptor files))

/-- A session with the backend the settings choose. -/
def ParserSession.ofSettings (files : FileTree) (grammar : Except String Grammar)
    (settings : ParserSettings) : Except ParseError ParserSession := do
  return { backend := settings.backend, reader := ← settings.backend.reader files grammar }

end HeaderBinding
