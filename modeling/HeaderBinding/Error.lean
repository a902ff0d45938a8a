import HeaderBinding.Path

/-!
# Errors

What can go wrong between a directory of headers and an assembled module, as causes. The wording,
the status code and the advice that goes with each cause are functions of it.

## Main definitions

* `FileError`: Why a file could not be read, written or listed.
* `ParseError`: Why a header gave no records.
* `ModuleError`: Why a module could not be assembled.
* `ModuleError.message`, `ModuleError.statusCode`, `ModuleError.suggestions`: What is said about it.
-/

namespace HeaderBinding

/-- Why a file could not be read, written or listed. -/
inductive FileError where
  | notFound
  | alreadyExists
  | notADirectory
  | isADirectory
  /-- The bytes are no UTF-8 text. -/
  | invalidText
  /-- A name on the way has too many bytes. -/
  | nameTooLong
  /-- The path holds the character that ends a name for the system. -/
  | nulInName
  /-- A directory is missing that has none above it. -/
  | treeNotCreated
  /-- A cause that is known only by its wording. -/
  | other (reason : String)
deriving DecidableEq, Inhabited, Repr

/-- Why a header gave no records. -/
inductive ParseError where
  /-- The reader could not be set up. -/
  | readerInit (backend reason : String)
  | fileRead (path : Path) (cause : FileError)
  /-- The reader ended without a result. -/
  | aborted (path : Path)
  | missingDescriptor (header descriptor : Path)
  /-- The descriptor is no record of a header. -/
  | invalidDescriptor (path : Path)
deriving DecidableEq, Inhabited, Repr

/-- The kinds of declarations that are looked up by name. -/
inductive SymbolKind where
  | classType
  | classTemplate
  | typedef
deriving DecidableEq, Inhabited, Repr

/-- Why a module could not be assembled. -/
inductive ModuleError where
  | parse (cause : ParseError)
  /-- The classes that cannot be put behind all of their bases. -/
  | cycle (module : String) (classes : List String)
  /-- A name is declared again, in `header`, and redeclarations are rejected. -/
  | duplicateSymbol (module : String) (kind : SymbolKind) (name : String) (header : Path)
deriving DecidableEq, Inhabited, Repr

namespace FileError

/-- The system's wording. -/
def message : FileError → String
  | notFound => "No such file or directory (os error 2)"
  | alreadyExists => "File exists (os error 17)"
  | notADirectory => "Not a directory (os error 20)"
  | isADirectory => "Is a directory (os error 21)"
  | invalidText => "stream did not contain valid UTF-8"
  | nameTooLong => "File name too long (os error 36)"
  | nulInName => "file name contained an unexpected NUL byte"
  | treeNotCreated => "failed to create whole tree"
  | other reason => reason

end FileError

namespace SymbolKind

/-- The kind in words. -/
def word : SymbolKind → String
  | classType => "class"
  | classTemplate => "class template"
  | typedef => "typedef"

end SymbolKind

namespace ParseError

/-- What is said about the failure. -/
def message : ParseError → String
  | readerInit backend reason =>
    "Failed to initialize " ++ backend ++ " header parser: " ++ reason
  | fileRead path cause => "Failed to read header '" ++ path ++ "': " ++ cause.message
  | aborted path =>
    "Parser gave up on header '" ++ path ++ "' without producing a syntax tree"
  | missingDescriptor header descriptor =>
    "No header descriptor found for '" ++ header ++ "' (looked for '" ++ descriptor ++ "')"
  | invalidDescriptor path => "Invalid header descriptor '" ++ path ++ "'"

/-- The cause below the failure, which is said once more in a chain of messages. -/
def source? : ParseError → Option String
  | fileRead _ cause => some cause.message
  | _ => none

end ParseError

namespace ModuleError

/-- What is said about the failure. -/
def message : ModuleError → String
  | parse cause => cause.message
  | cycle module classes =>
    "Inheritance cycle in module '" ++ module ++ "' between classes: " ++
      String.intercalate ", " classes
  | duplicateSymbol module kind name header =>
    "Duplicate " ++ kind.word ++ " '" ++ name ++ "' in module '" ++ module ++
      "' (redeclared in '" ++ header ++ "')"

/-- A code for the kind of failure that does not change with its wording. -/
def statusCode : ModuleError → String
  | parse (.readerInit ..) => "PARSER_INIT_ERROR"
  | parse (.fileRead ..) => "FILE_READ_ERROR"
  | parse (.aborted ..) => "PARSE_ABORTED"
  | parse (.missingDescriptor ..) => "MISSING_DESCRIPTOR"
  | parse (.invalidDescriptor ..) => "INVALID_DESCRIPTOR"
  | cycle .. => "INHERITANCE_CYCLE"
  | duplicateSymbol .. => "DUPLICATE_SYMBOL"

/-- What the user may try. -/
def suggestions : ModuleError → List String
  | cycle .. =>
    ["Check the listed classes for base clauses that name each other",
      "CRTP bases are reported by name only; exclude the header or rename the base"]
  | duplicateSymbol .. =>
    ["Remove the duplicate header from the module",
      "Set assembly.collision_policy to \"overwrite\" or \"merge\" to accept redeclarations"]
  | parse (.missingDescriptor ..) =>
    ["Generate descriptors with the external parser first",
      "Set parser.descriptor_dir to the directory holding the .json descriptors"]
  | parse (.fileRead ..) =>
    ["Check that the header exists under the configured prefix",
      "Ensure you have read permissions for the header"]
  | parse _ => []

/-- The messages from the failure down to its last cause. -/
def chain (e : ModuleError) : List String :=
  match e with
  | parse cause => cause.message :: cause.source?.toList
  | e => [e.message]

end ModuleError

end HeaderBinding
