import HeaderBinding.Record.Signature
import HeaderBinding.Text.Word

/-!
# Inner Types in Signatures

A method that spells `Kind`, where `Kind` is an enumeration inside the class `Base`, has to be bound
as `Base::Kind`. `InnerTypes` holds the names a class declares in itself, and qualifies the types in
the signatures of a class: each whole word that is such a name gets the owner's name in front.

A word next to a scope mark, on either side, is part of a qualified name already and stays. So does
a name that a template parameter of the class with the signature hides.

A class sees its own names first, and after that the names of every other class of the module, so
that its own `Kind` wins over a `Kind` elsewhere.

## Main definitions

* `qualifyWord`: Qualifying one word in a text.
* `InnerTypes`: The names a class declares in itself.
* `InnerTypes.qualify?`: Qualifying all of them in one type.
* `InnerTypes.apply`: Qualifying them in the signatures of a class.
* `qualifyModule`: Qualifying all names in all classes of a module.
-/

namespace HeaderBinding

/-- The text in which `word` gets `qualifier` in front wherever it stands whole and unqualified.
    `before` is the text already passed, nearest character first; the next `skip` characters belong
    to an occurrence that has been dealt with. -/
def qualifyFrom (word qualifier : List Char) : Nat → List Char → List Char → List Char
  | _, _, [] => []
  | skip + 1, before, c :: rest => c :: qualifyFrom word qualifier skip (c :: before) rest
  | 0, before, c :: rest =>
    if Text.standsAt word before (c :: rest) then
      let marked := Text.scopeMark.isPrefixOf before ||
        Text.scopeMark.isPrefixOf ((c :: rest).drop word.length)
      (if marked then [] else qualifier) ++
        c :: qualifyFrom word qualifier (word.length - 1) (c :: before) rest
    else c :: qualifyFrom word qualifier 0 (c :: before) rest

/-- The text in which `word` gets `owner` and a scope mark in front wherever it stands whole and
    unqualified, if it does so anywhere. Each change lengthens the text, so comparing the two tells
    whether there was one. -/
def qualifyWord (word owner text : List Char) : Option (List Char) :=
  let result := qualifyFrom word (owner ++ Text.scopeMark) 0 [] text
  if result = text then none else some result

/-- The names of the types a class declares in itself. -/
structure InnerTypes where
  owner : String
  /-- The last parts of the names, each once and none empty. -/
  segments : List String
deriving DecidableEq, Inhabited, Repr

namespace InnerTypes

/-- The last part of a qualified name. -/
def unqualified (name : String) : String :=
  String.ofList (Text.lastSegment name.toList)

/-- The names of the types inside a class: nested classes, typedefs and named enumerations. -/
def declaredNames (c : ClassRecord) : List String :=
  c.innerClasses.keys ++ c.typedefs.keys ++
    (c.enums.filter (!·.anonymous)).map (·.name)

/-- Add the last part of a name, unless it is empty or there already. -/
def addSegment (segments : List String) (name : String) : List String :=
  let segment := unqualified name
  if segment.isEmpty || segments.contains segment then segments else segments ++ [segment]

/-- The inner types of a class. -/
def of (c : ClassRecord) : InnerTypes :=
  { owner := c.name, segments := (declaredNames c).foldl addSegment [] }

/-- The class declares no type in itself. -/
def isEmpty (s : InnerTypes) : Bool :=
  s.segments.isEmpty

/-- Qualify one name in a type. -/
def qualifySegment (s : InnerTypes) (type : Option String × String) (segment : String) :
    Option String × String :=
  match qualifyWord segment.toList s.owner.toList type.2.toList with
  | some changed => (some (String.ofList changed), String.ofList changed)
  | none => type

/-- The type with all names qualified, one after the other, if that changes it. Names of template
    parameters are left alone. -/
def qualify? (s : InnerTypes) (params : List String) (type : String) : Option String :=
  ((s.segments.filter (!params.contains ·)).foldl s.qualifySegment (none, type)).1

/-- The type with all names qualified. -/
def qualify (s : InnerTypes) (params : List String) (type : String) : String :=
  (s.qualify? params type).getD type

/-- The types a method mentions. -/
def mentionedTypes (m : Method) : List String :=
  m.args.filterMap (·.type) ++ m.returnType.toList

/-- Qualify the types of a method. -/
def applyMethod (s : InnerTypes) (params : List String) (m : Method) : Method :=
  { m with
    args := m.args.map fun a => { a with type := a.type.map (s.qualify params) }
    returnType := m.returnType.map (s.qualify params) }

/-- The number of types in the signatures of a class that change. -/
def changesIn (s : InnerTypes) (params : List String) (c : ClassRecord) : Nat :=
  (c.callables.flatMap mentionedTypes).countP fun type => (s.qualify? params type).isSome

/-- Qualify the types in the signatures of a class, and count those that change. -/
def apply (s : InnerTypes) (params : List String) (c : ClassRecord) : ClassRecord × Nat :=
  (c.mapCallables (s.applyMethod params), s.changesIn params c)

end InnerTypes

/-- Qualify the types of a class with its own inner types, then with those of every class of
    another name, and count the changes. -/
def qualifyClass (scopes : List InnerTypes) (params : List String) (c : ClassRecord) :
    ClassRecord × Nat :=
  let own := InnerTypes.of c
  (own :: scopes.filter (·.owner != own.owner)).foldl (fun (c, changed) scope =>
    let (c, more) := scope.apply params c
    (c, changed + more)) (c, 0)

/-- The inner types of every class of a module, those of the classes before those of the
    templates. -/
def moduleScopes (classes : List ClassRecord) (templates : List ClassTemplate) :
    List InnerTypes :=
  classes.map InnerTypes.of ++ templates.map fun t => InnerTypes.of t.record

/-- Qualify the types of a template, whose parameters hide names. -/
def qualifyTemplate (scopes : List InnerTypes) (t : ClassTemplate) : ClassTemplate × Nat :=
  let (record, changed) := qualifyClass scopes t.paramNames t.record
  ({ t with record }, changed)

/-- A module whose signatures have been qualified. -/
structure Qualified where
  classes : List ClassRecord
  templates : List ClassTemplate
  /-- How many times a type was changed. -/
  changed : Nat

/-- Qualify the inner types in all signatures of a module. -/
def qualifyModule (classes : List ClassRecord) (templates : List ClassTemplate) : Qualified :=
  let scopes := moduleScopes classes templates
  let classes := classes.map (qualifyClass scopes [])
  let templates := templates.map (qualifyTemplate scopes)
  { classes := classes.map (·.1)
    templates := templates.map (·.1)
    changed := (classes.map (·.2) ++ templates.map (·.2)).foldr (· + ·) 0 }

end HeaderBinding
