import HeaderBinding.Dict
import HeaderBinding.Files.FileTree
import HeaderBinding.Settings.Basic

/-!
# Finding the Headers of a Module

The headers of a module lie directly in one directory and are told by their names: the module's name
with the extension of headers behind it, or the module's name, an underscore, anything, and the
extension. Settings can leave single headers out.

What belongs to a module depends only on the names and kinds in a listing, and the answer is in
ascending order, so the order of the listing does not matter.

## Main definitions

* `isHeaderName`: The two shapes of names.
* `headersAmong`: The headers of a module in a listing.
* `discoverHeaders`: The headers of a module in a directory.
-/

namespace HeaderBinding

/-- A directory that could not be listed. -/
structure ListingError where
  path : Path
  cause : FileError
deriving DecidableEq, Inhabited, Repr

/-- What is said about the failure. -/
def ListingError.message (e : ListingError) : String :=
  "IO error for operation on " ++ e.path ++ ": " ++ e.cause.message

/-- A file of that name is a header of the module. -/
def isHeaderName (module extension fileName : String) : Bool :=
  fileName == module ++ "." ++ extension ||
    ((module ++ "_").toList.isPrefixOf fileName.toList &&
      ("." ++ extension).toList.isSuffixOf fileName.toList)

/-- The headers of a module in a listing, in ascending order. The listing gives the names in one
    directory, each with whether it is a file. -/
def headersAmong (settings : ParserSettings) (module : String) (listing : List (String × Bool)) :
    List String :=
  Dict.sortedNames ((listing.filter fun (name, isFile) =>
    isFile && isHeaderName module settings.headerExtension name &&
      !settings.skipsHeader module name).map (·.1))

/-- The names of a module's headers in a directory, in ascending order. A file has nothing in it. -/
def discoverHeaders (files : FileTree) (headerDir : Path) (module : String)
    (settings : ParserSettings) : Except ListingError (List Path) :=
  if files.isFile headerDir then .ok []
  else match files.list headerDir with
    | .ok listing =>
      .ok (headersAmong settings module (listing.map fun (name, e) => (name, e.isFile)))
    | .error cause => .error ⟨headerDir, cause⟩

end HeaderBinding
