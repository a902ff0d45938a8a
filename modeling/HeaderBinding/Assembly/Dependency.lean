import HeaderBinding.Dict

/-!
# Dependencies on Other Modules

Headers are named after their module: `gp_Pnt.hxx` belongs to `gp`. So the module an included header
belongs to can be read off its file name. What does not follow the convention, or names a module
nobody knows, is no dependency.

## Main definitions

* `moduleNameOf?`: The module a header belongs to by its name.
* `resolveDependencies`: The other modules that a list of headers belongs to.
-/

namespace HeaderBinding

/-- The part of a path behind its last separator; both kinds of slash separate. -/
def lastPart (path : List Char) : List Char :=
  (path.reverse.takeWhile fun c => c != '/' && c != '\\').reverse

/-- The module a header belongs to: its file name up to the first dot, and of that the part up to
    the first underscore, unless nothing is left. -/
def moduleNameOf? (dependency : String) : Option String :=
  let name := ((lastPart dependency.toList).takeWhile (· != '.')).takeWhile (· != '_')
  if name.isEmpty then none else some (String.ofList name)

/-- The known modules, other than the module itself, that the dependencies belong to, in ascending
    order. -/
def resolveDependencies (module : String) (dependencies known : List String) : List String :=
  Dict.sortedNames ((dependencies.filterMap moduleNameOf?).filter fun name =>
    known.contains name && name != module)

end HeaderBinding
