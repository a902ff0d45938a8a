import HeaderBinding.Settings.Basic

/-!
# Where Headers and Descriptors Are

A header of a module is named relative to the directory of all headers. Its descriptor bears its
name with `.json` behind, and lies beside it or in a directory of its own.

## Main definitions

* `resolveHeaderPath`: The path of a header.
* `descriptorPath`: The path of its descriptor.
-/

namespace HeaderBinding

/-- The path of a header seen from the directory of all headers. -/
def resolveHeaderPath (path headerDir : Path) : Path :=
  if Path.isAbsolute path then path else Path.join headerDir path

/-- The path of the descriptor of a header. -/
def descriptorPath (settings : ParserSettings) (header : Path) : Path :=
  let name := (Path.fileName? header).getD "" ++ ".json"
  match settings.descriptorDir with
  | some dir => Path.join dir name
  | none => Path.withFileName header name

end HeaderBinding
