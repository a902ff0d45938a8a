import HeaderBinding.Settings.Basic

/-!
# Command Line Arguments

What the words behind the program's name ask for. There are two levels: the options of the program
itself up to the name of a command, and those of the command. Some options belong to both levels,
and then the command's level wins.

An option is spelled out behind two hyphens, or is a letter behind one. Letters that take no value
may share a hyphen. A value stands behind an equals sign, directly behind the letter, or is the next
word, unless that word is spelled like an option. Two hyphens alone end the options.

Words are read from left to right, and the first that is wrong, or that asks for help or for the
version, settles the matter.

The system hands words over as bytes. Names of commands, of options and of modules have to be text;
a path may be any bytes at all, and then a text is only what is shown of it.

## Main definitions

* `Word`: A word of the command line.
* `OptionShape`: What there is to know about an option.
* `Level.read`: The words of one level.
* `Invocation`: What a run is asked to do.
* `Invocation.ofArguments`: The invocation of a command line.
-/

namespace HeaderBinding

namespace CommandLine

/-- A word of the command line. -/
structure Word where
  /-- The word as it is shown. Bytes that are no text are replaced in it. -/
  shown : String
  /-- The bytes of the word are UTF-8 text, which is then what is shown. -/
  isText : Bool := true
deriving DecidableEq, Inhabited, Repr

namespace Word

/-- A text as a word. -/
def ofText (text : String) : Word := { shown := text }

/-- The text of a word, if it is one. -/
def text? (word : Word) : Option String :=
  if word.isText then some word.shown else none

/-- The end of a word as a word of its own. What is in front of it has been recognized, so it is
    text, and bytes that are none are all in the end. -/
def suffix (word : Word) (shown : List Char) : Word :=
  { word with shown := String.ofList shown }

end Word

/-- What is asked of the command that assembles modules. -/
structure AssembleOptions where
  modules : List String
  headerDir : Option Word := none
  /-- Module names that dependencies may resolve to, besides those of the settings. -/
  known : List String := []
  backend : Option Backend := none
  json : Bool := false
deriving DecidableEq, Inhabited, Repr

/-- What the program can do. -/
inductive Command where
  /-- Write a settings file to start from. -/
  | init (force : Bool)
  /-- Show the settings. -/
  | config
  /-- Assemble modules and show them. -/
  | assemble (options : AssembleOptions)
deriving DecidableEq, Inhabited, Repr

/-- What a run is asked to do. -/
structure Invocation where
  /-- A settings file to use instead of the workspace's. -/
  settingsFile : Option Path := none
  command : Command
deriving DecidableEq, Inhabited, Repr

/-- Why there is nothing to run. -/
inductive Stop where
  | usage
  | help
  | version
deriving DecidableEq, Inhabited, Repr

/-- What an option does. -/
inductive OptionKind where
  /-- It takes a value, which has to be acceptable. -/
  | value (accepts : Word → Bool)
  | flag
  /-- It ends the reading. -/
  | stop (reason : Stop)

/-- An option of a level. -/
structure OptionShape where
  name : String
  letter : Option Char := none
  kind : OptionKind
  repeatable : Bool := false

/-- The options and words that one level of the command line knows. -/
structure Level where
  options : List OptionShape
  commands : List String := []
  /-- Words that are no options are admitted. -/
  admitsWords : Bool := false

/-- What was read on one level. -/
structure Reading where
  /-- The options that were given, each with its value. -/
  given : List (String × Word) := []
  words : List String := []
  /-- The command that ended the level, and the words behind it. -/
  command : Option (String × List Word) := none
deriving Inhabited

namespace Reading

/-- The values of an option in their order. -/
def values (r : Reading) (name : String) : List Word :=
  (r.given.filter (·.1 == name)).map (·.2)

/-- The values of an option that are texts. -/
def texts (r : Reading) (name : String) : List String :=
  (r.values name).filterMap (·.text?)

/-- The option was given. -/
def has (r : Reading) (name : String) : Bool :=
  r.given.any (·.1 == name)

/-- The same reading with one more option. Most options may be given once only. -/
def give (r : Reading) (shape : OptionShape) (value : Word) : Except Stop Reading :=
  let accepted := match shape.kind with
    | .value accepts => accepts value
    | _ => true
  if accepted && (shape.repeatable || !r.has shape.name) then
    .ok { r with given := r.given ++ [(shape.name, value)] }
  else .error .usage

/-- The same reading with an option that takes no value. -/
def giveFlag (r : Reading) (shape : OptionShape) : Except Stop Reading :=
  r.give shape (.ofText "")

/-- The same reading with more words, which have to be texts. -/
def addWords (r : Reading) (words : List Word) : Except Stop Reading :=
  match words.mapM (·.text?) with
  | some texts => .ok { r with words := r.words ++ texts }
  | none => .error .usage

end Reading

/-- A word that is spelled like an option. A lone hyphen is not. -/
def looksLikeOption (word : Word) : Bool :=
  match word.shown.toList with
  | '-' :: _ :: _ => true
  | _ => false

/-- The parts in front of and behind the first equals sign. -/
def splitValue (cs : List Char) : String × Option (List Char) :=
  match cs.dropWhile (· != '=') with
  | '=' :: value => (String.ofList (cs.takeWhile (· != '=')), some value)
  | _ => (String.ofList cs, none)

/-- The letters of a word behind one hyphen, and the option among them that still needs a value. -/
def readLetters (level : Level) (word : Word) :
    List Char → Reading → Except Stop (Reading × Option OptionShape)
  | [], r => .ok (r, none)
  | c :: cs, r =>
    match level.options.find? (·.letter == some c) with
    | none => .error .usage
    | some shape =>
      match shape.kind with
      | .stop reason => .error reason
      | .flag => do readLetters level word cs (← r.giveFlag shape)
      | .value _ =>
        match cs with
        | [] => .ok (r, some shape)
        | '=' :: value => do return (← r.give shape (word.suffix value), none)
        | value => do return (← r.give shape (word.suffix value), none)

/-- An option that a word spells out, or the option that still needs a value. -/
def readName (level : Level) (word : Word) (cs : List Char) (r : Reading) :
    Except Stop (Reading × Option OptionShape) :=
  let (name, value) := splitValue cs
  match level.options.find? (·.name == name) with
  | none => .error .usage
  | some shape =>
    match shape.kind, value with
    | .value _, some value => do return (← r.give shape (word.suffix value), none)
    | .value _, none => .ok (r, some shape)
    | _, some _ => .error .usage
    | .flag, none => do return (← r.giveFlag shape, none)
    | .stop reason, none => .error reason

/-- The words of one level. `pending` is an option that takes the next word as its value. -/
def Level.read (level : Level) : Option OptionShape → List Word → Reading → Except Stop Reading
  | none, [], r => .ok r
  | some _, [], _ => .error .usage
  | some shape, word :: rest, r => do
    if looksLikeOption word then .error .usage
    else level.read none rest (← r.give shape word)
  | none, word :: rest, r =>
    match word.text?.filter level.commands.contains with
    | some name => .ok { r with command := some (name, rest) }
    | none =>
      match word.shown.toList with
      | ['-', '-'] => if rest.isEmpty || level.admitsWords then r.addWords rest else .error .usage
      | '-' :: '-' :: cs => do
        let (r, pending) ← readName level word cs r
        level.read pending rest r
      | '-' :: c :: cs => do
        let (r, pending) ← readLetters level word (c :: cs) r
        level.read pending rest r
      | _ => if level.admitsWords then do level.read none rest (← r.addWords [word])
        else .error .usage

/-- A path has at least one character and need not be text. -/
def acceptsPath (value : Word) : Bool := !value.shown.isEmpty

/-- The backend that a word names. -/
def backend? (value : Word) : Option Backend :=
  value.text?.bind fun word => Backend.words.lookup word

/-- The options of both levels. -/
def sharedOptions : List OptionShape := [
  { name := "config", letter := 'c', kind := .value acceptsPath },
  { name := "verbose", letter := 'v', kind := .flag, repeatable := true },
  { name := "help", letter := 'h', kind := .stop .help }]

/-- The level of the program itself. -/
def programLevel : Level where
  options := sharedOptions ++ [{ name := "version", letter := 'V', kind := .stop .version }]
  commands := ["init", "config", "assemble", "help"]

/-- The level of `init`. -/
def initLevel : Level where
  options := { name := "force", letter := 'f', kind := .flag } :: sharedOptions

/-- The level of `config`. -/
def configLevel : Level where
  options := sharedOptions

/-- The level of `assemble`. -/
def assembleLevel : Level where
  options := [
    { name := "prefix", letter := 'p', kind := .value acceptsPath },
    { name := "known", letter := 'k', kind := .value (·.isText), repeatable := true },
    { name := "parser", kind := .value fun word => (backend? word).isSome },
    { name := "json", kind := .flag }] ++ sharedOptions
  admitsWords := true

/-- The command of a name, from what was read on its level. -/
def commandOf (name : String) (rest : List Word) : Except Stop (Reading × Command) := do
  match name with
  | "init" =>
    let r ← initLevel.read none rest {}
    return (r, .init (r.has "force"))
  | "config" => return (← configLevel.read none rest {}, .config)
  | "assemble" =>
    let r ← assembleLevel.read none rest {}
    if r.words.isEmpty then .error .usage
    return (r, .assemble {
      modules := r.words
      headerDir := (r.values "prefix").head?
      known := r.texts "known"
      backend := (r.values "parser").head?.bind backend?
      json := r.has "json" })
  | _ =>
    if rest.all (·.text?.any programLevel.commands.contains) && rest.length ≤ 1 then .error .help
    else .error .usage

/-- The invocation of a command line. -/
def Invocation.ofArguments (arguments : List Word) : Except Stop Invocation := do
  let program ← programLevel.read none arguments {}
  match program.command with
  | none => .error .usage
  | some (name, rest) =>
    let (r, command) ← commandOf name rest
    let settingsFile := (r.values "config").head? <|> (program.values "config").head?
    return { settingsFile := settingsFile.map (·.shown), command }

end CommandLine

end HeaderBinding
