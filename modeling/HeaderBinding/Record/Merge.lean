import HeaderBinding.Record.Signature

/-!
# Folding Redeclarations

A class may be declared in pieces: twice in one header, or in two headers of a module. `extend`
folds a later declaration into an earlier one. Lists without keys are appended; of two members with
one key the later replaces the earlier, in its place where order matters; nested classes are folded
in turn.

## Main definitions

* `replaceOrAppend`: Folding lists of methods that are told apart by a key.
* `ClassRecord.extend`: Folding a second declaration of a class into the first.
* `ClassTemplate.extend`: The same for class templates.
-/

namespace HeaderBinding

/-- Put `new` in the place of the first method with its key, if there is one. -/
def replaceFirst (key : Method → String) (new : Method) : List Method → Option (List Method)
  | [] => none
  | m :: ms =>
    if key m = key new then some (new :: ms) else (replaceFirst key new ms).map (m :: ·)

/-- Take every method of `incoming` into `members`, in the place of the first one with its key or
    else at the end. -/
def replaceOrAppend (key : Method → String) (members incoming : List Method) : List Method :=
  incoming.foldl (fun ms new => (replaceFirst key new ms).getD (ms ++ [new])) members

/-- Add the bases that are not there yet. -/
def addBases (bases new : List String) : List String :=
  new.foldl (fun bs base => if bs.contains base then bs else bs ++ [base]) bases

/-- Two comments one after the other, or the one there is. -/
def joinComments : Option String → Option String → Option String
  | some first, some second => some (first ++ second)
  | first, second => first.or second

namespace ClassRecord

/-- Fold a second declaration of the same class into the first. The name and the path stay those of
    the first. -/
def extend (c other : ClassRecord) : ClassRecord :=
  { c with
    comment := joinComments c.comment other.comment
    isAbstract := c.isAbstract || other.isAbstract
    superclasses := addBases c.superclasses other.superclasses
    methods := c.methods.union other.methods
    staticMethods := c.staticMethods.union other.staticMethods
    constructors := replaceOrAppend (·.fullName) c.constructors other.constructors
    destructors := replaceOrAppend (·.fullName) c.destructors other.destructors
    operators := replaceOrAppend (·.signatureKey) c.operators other.operators
    fields := c.fields ++ other.fields
    innerClasses := other.innerClasses.entries.attach.foldl (fun inner entry =>
      inner.insert entry.1.1 (match inner.find? entry.1.1 with
        | some first => first.extend entry.1.2
        | none => entry.1.2)) c.innerClasses
    typedefs := c.typedefs.union other.typedefs
    enums := c.enums ++ other.enums }
termination_by sizeOf other
decreasing_by
  have hentry := Dict.sizeOf_lt_of_mem entry.2
  cases other
  simp only [mk.sizeOf_spec] at *
  omega

end ClassRecord

namespace ClassTemplate

/-- Fold a second declaration of the same template into the first, which takes over its parameters
    only if it has none itself. -/
def extend (t other : ClassTemplate) : ClassTemplate :=
  { record := t.record.extend other.record
    typeParams := if t.typeParams.isEmpty then other.typeParams else t.typeParams }

end ClassTemplate

end HeaderBinding
