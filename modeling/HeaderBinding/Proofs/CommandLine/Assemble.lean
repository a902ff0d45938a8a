import HeaderBinding.Proofs.Assembly.Dependency
import HeaderBinding.Proofs.CommandLine.Output
import HeaderBinding.Proofs.Extraction.HeaderScope
import HeaderBinding.Proofs.Session.Reading

/-!
# Runs That Assemble Modules

A run that assembles modules shows all of them or nothing, and what it shows of a module is what a
run for this module alone shows.

That a failed run shows nothing is about the order of its steps. Printing cannot be taken back, so
everything that may fail has to come first: all modules are assembled, and written as one text,
before anything is printed (`prints_perform`).

The modules of a run share a session, the settings and the known module names. The session is no
link between them, since the backends have no memory. So the modules are assembled one by one
(`silent_assembleModules`), and it is known what that gives. Either all of them are there, in
order, or one could not be assembled (`mapM_eq_ok_iff`, `exists_mapM_eq_error_iff`).

The known names are a set for all that is asked of them. They hold every name of the run, wherever
it comes from, so a name may be asked for or passed as known besides (`ofHeaders_congr_known`).

## Main definitions

* `workplace`: What a run works with.
* `assembleModule`: Listing, reading and putting together one module.
* `assembled`: The modules of a run.
* `printed`: The text that a run prints.
* `outcome`: What a run leaves behind.
* `AssembleOptions.alone`: A run for one module, with other names passed as known.
* `including`: Two modules, of which the second includes a header of the first.

## Theorems

* `assembleModule_eq_ok_iff`: When a module is there.
* `silent_assembleModules`: The modules of a run are assembled one by one.
* `prints_perform`, `outcome_of_ok`, `outcome_of_error`: What a run has printed once it is over.
* `exists_assembled_eq_error_iff`: When not all modules of a run are there.
* `BindingModule.ofHeaders_congr_known`: Known names are a set.
* `assembled_alone`: A run for one of the modules.
* `Invocation.run_assemble`: What a run shows.
-/

namespace HeaderBinding

/-- Of the known names it only matters which they are. -/
theorem BindingModule.ofHeaders_congr_known (name : String) (headerDir : Path)
    (headers : List Header) {known other : List String} (policy : CollisionPolicy)
    (h : ∀ name, name ∈ known ↔ name ∈ other) :
    ofHeaders name headerDir headers known policy =
      ofHeaders name headerDir headers other policy := by
  simp only [ofHeaders, resolveDependencies_congr name _ h]

/-- A module bears the name it was asked for by. -/
theorem BindingModule.name_of_ofHeaders {name : String} {headerDir : Path} {headers : List Header}
    {known : List String} {policy : CollisionPolicy} {m : BindingModule}
    (h : ofHeaders name headerDir headers known policy = .ok m) : m.name = name := by
  rcases ofHeaders_cases name headerDir headers known policy with
    ⟨table, sorted, _, _, hok⟩ | ⟨e, _, _, herror⟩ | ⟨stuck, _, _, herror⟩
  · rw [hok] at h
    exact Except.ok.inj h ▸ rfl
  · exact absurd (herror.symm.trans h) (error_ne_ok _ m)
  · exact absurd (herror.symm.trans h) (error_ne_ok _ m)

namespace CommandLine

open RunM

section Place

variable (around : Surroundings) (settingsFile : Option Path) (options : AssembleOptions)

/-- What a run works with, if there is anything to work with. -/
def workplace : Except RunError Workplace := do
  let loaded ← loadSettings around settingsFile
  options.workplace around loaded.1

variable {around settingsFile options}

/-- The backends have no memory, so the session of a run has none. -/
theorem AssembleOptions.memoryless_of_workplace {settings : Settings} {place : Workplace}
    (h : options.workplace around settings = .ok place) : Memoryless place.session.reader := by
  unfold AssembleOptions.workplace at h
  dsimp only at h
  split at h
  · exact absurd h (error_ne_ok _ _)
  · rcases bind_eq_ok.mp h with ⟨session, hsession, heq⟩
    obtain rfl := pure_eq_ok.mp heq
    exact ParserSession.memoryless_of_ofSettings ((mapError_eq_ok_iff _ _ _).mp hsession)

theorem memoryless_of_workplace {place : Workplace}
    (h : workplace around settingsFile options = .ok place) : Memoryless place.session.reader := by
  rcases bind_eq_ok.mp h with ⟨loaded, _, hplace⟩
  exact AssembleOptions.memoryless_of_workplace hplace

end Place

section Modules

variable (files : FileTree) (place : Workplace) (known : List String)

/-- List the headers of a module, read them through a session that has read nothing yet, and put the
    module together. -/
def assembleModule (name : String) : Except RunError BindingModule := do
  let paths ← (discoverHeaders files place.headerDir.shown name place.settings.parser).mapError
    (.listing place.headerDir.shown)
  (BindingModule.build name place.headerDir.shown paths known place.settings
    place.session).1.mapError .module

variable {files place known}

/-- A module is there if its headers are listed and read one by one and can be put together. -/
theorem assembleModule_eq_ok_iff (hmemory : Memoryless place.session.reader) (name : String)
    (m : BindingModule) :
    assembleModule files place known name = .ok m ↔
      ∃ paths headers,
        discoverHeaders files place.headerDir.shown name place.settings.parser = .ok paths ∧
        List.Forall₂ (fun path header =>
          place.session.reader [⟨path, place.headerDir.shown, place.settings.parser, name⟩] =
            .ok header) paths headers ∧
        BindingModule.ofHeaders name place.headerDir.shown headers known
          place.settings.assembly.collisionPolicy = .ok m := by
  have hbuild := fun paths => BindingModule.build_eq_ok_iff place.headerDir.shown name paths known
    place.settings place.session hmemory m
  unfold assembleModule
  cases discoverHeaders files place.headerDir.shown name place.settings.parser with
  | error e =>
      simp only [Except.mapError, bind, Except.bind, reduceCtorEq, false_and, exists_false]
  | ok paths =>
      simp only [← mapM_eq_ok_iff, Except.ok.injEq, exists_and_left, exists_eq_left']
      exact (mapError_eq_ok_iff _ _ _).trans (hbuild paths)

theorem name_of_assembleModule (hmemory : Memoryless place.session.reader) {name : String}
    {m : BindingModule} (h : assembleModule files place known name = .ok m) : m.name = name := by
  rcases (assembleModule_eq_ok_iff hmemory name m).mp h with ⟨paths, headers, _, _, hm⟩
  exact BindingModule.name_of_ofHeaders hm

theorem assembleModule_congr {other : List String} (h : ∀ name, name ∈ known ↔ name ∈ other)
    (name : String) :
    assembleModule files place known name = assembleModule files place other name := by
  unfold assembleModule BindingModule.build
  simp only [BindingModule.ofHeaders_congr_known name place.headerDir.shown _ _ h]

/-- The modules of a run are assembled one by one, whatever its session has read before, and nothing
    is printed meanwhile. -/
theorem silent_assembleModules (names : List String) (session : ParserSession)
    (hmemory : Memoryless session.reader) (hreader : session.reader = place.session.reader) :
    Silent (assembleModules files place.settings place.headerDir.shown known names session)
      (names.mapM (assembleModule files place known)) := by
  induction names generalizing session with
  | nil => exact silent_pure []
  | cons name names ih =>
      rw [List.mapM_cons, assembleModules, assembleModule, bind_assoc]
      refine (silent_attempt _).bind fun paths _ => ?_
      -- The module is the one a fresh session gives, and the session can still be used as one.
      have hfirst := BindingModule.build_fst place.headerDir.shown name paths known place.settings
        session place.session hmemory hreader
      have hafter := BindingModule.build_reader place.headerDir.shown name paths known
        place.settings session hmemory
      rw [← hfirst]
      generalize BindingModule.build name place.headerDir.shown paths known place.settings
        session = built at hafter ⊢
      rcases built with ⟨result, after⟩
      refine (silent_attempt _).bind fun m _ => ?_
      exact (ih after (hafter ▸ hmemory) (hafter.trans hreader)).bind fun modules _ =>
        silent_pure (m :: modules)

end Modules

section Runs

variable (around : Surroundings) (settingsFile : Option Path) (options : AssembleOptions)

/-- The names that an included header may resolve to in a run. -/
def knownNames (settings : Settings) : List String :=
  settings.knownModules ++ options.known ++ options.modules

/-- The modules of a run, each assembled by itself. -/
def assembled : Except RunError (List BindingModule) := do
  let place ← workplace around settingsFile options
  options.modules.mapM (assembleModule around.files place (knownNames options place.settings))

/-- The text that a run prints under its settings, if it comes to that. -/
def AssembleOptions.printed (settings : Settings) : Except RunError String := do
  let place ← options.workplace around settings
  let modules ←
    options.modules.mapM (assembleModule around.files place (knownNames options place.settings))
  shown options.json place.headerDir modules

/-- The text that a run prints, if it comes to that. -/
def printed : Except RunError String := do
  let loaded ← loadSettings around settingsFile
  options.printed around loaded.1

/-- What a run leaves behind. -/
def outcome : Outcome :=
  Invocation.run around { settingsFile, command := .assemble options }

/-- What is asked of a run for one module, with other names passed as known. -/
def AssembleOptions.alone (name : String) (others : List String) : AssembleOptions :=
  { options with modules := [name], known := options.known ++ others }

/-- The text is printed when everything that may fail is done. -/
theorem AssembleOptions.prints_perform (settings : Settings) :
    Prints (options.perform around settings) (options.printed around settings) := by
  refine Prints.bind (silent_attempt _) fun place hplace => ?_
  have hmemory := AssembleOptions.memoryless_of_workplace hplace
  exact Prints.bind (silent_assembleModules options.modules place.session hmemory rfl)
    fun modules _ => prints_showModules options.json place.headerDir modules

/-- A run prints its text in the end, or it fails and prints nothing. -/
theorem prints_perform :
    Prints (Invocation.perform around { settingsFile, command := .assemble options })
      (printed around settingsFile options) := by
  refine Prints.bind (silent_attempt _) fun loaded _ => ?_
  rcases loaded with ⟨settings, remarks⟩
  -- What is said about the settings is not part of the output.
  have hremark := Prints.bind (silent_remark remarks) fun _ _ =>
    options.prints_perform around settings
  exact hremark

variable {around settingsFile options} {place : Workplace} {modules : List BindingModule}

theorem outcome_of_error {e : RunError} (h : printed around settingsFile options = .error e) :
    (outcome around settingsFile options).status = 1 ∧
      (outcome around settingsFile options).output = "" := by
  rcases (prints_perform around settingsFile options).error e h { files := around.files } with
    ⟨after, hrun, houtput⟩
  unfold outcome Invocation.run
  rw [hrun]
  exact ⟨rfl, houtput⟩

theorem outcome_of_ok {text : String} (h : printed around settingsFile options = .ok text) :
    (outcome around settingsFile options).status = 0 ∧
      (outcome around settingsFile options).output = text := by
  rcases (prints_perform around settingsFile options).ok text h { files := around.files } with
    ⟨after, hrun, houtput⟩
  unfold outcome Invocation.run
  rw [hrun]
  exact ⟨rfl, houtput.trans String.empty_append⟩

theorem assembled_of_workplace (h : workplace around settingsFile options = .ok place) :
    assembled around settingsFile options =
      options.modules.mapM
        (assembleModule around.files place (knownNames options place.settings)) := by
  rw [assembled, h]
  rfl

theorem printed_eq :
    printed around settingsFile options =
      workplace around settingsFile options >>= fun place =>
        options.modules.mapM
          (assembleModule around.files place (knownNames options place.settings)) >>=
        shown options.json place.headerDir := by
  rw [workplace, bind_assoc]
  rfl

/-- If not all modules of a run are there, there is nothing to print. -/
theorem printed_of_assembled_eq_error {e : RunError}
    (h : assembled around settingsFile options = .error e) :
    printed around settingsFile options = .error e := by
  rw [printed_eq]
  cases hplace : workplace around settingsFile options with
  | error e' =>
      rw [assembled, hplace] at h
      exact congrArg Except.error (Except.error.inj h)
  | ok place =>
      rw [assembled_of_workplace hplace] at h
      change options.modules.mapM _ >>= shown options.json place.headerDir = _
      rw [h]
      rfl

/-- Once all modules of a run are there, they only have to be shown. -/
theorem printed_of_assembled (hplace : workplace around settingsFile options = .ok place)
    (h : assembled around settingsFile options = .ok modules) :
    printed around settingsFile options = shown options.json place.headerDir modules := by
  rw [assembled_of_workplace hplace] at h
  rw [printed_eq, hplace]
  change options.modules.mapM _ >>= shown options.json place.headerDir = _
  rw [h]
  rfl

/-- The modules of a run are there if it has something to work with and each of them is there. -/
theorem assembled_eq_ok_iff (modules : List BindingModule) :
    assembled around settingsFile options = .ok modules ↔
      ∃ place, workplace around settingsFile options = .ok place ∧
        List.Forall₂ (fun name m =>
          assembleModule around.files place (knownNames options place.settings) name = .ok m)
          options.modules modules := by
  rw [assembled, bind_eq_ok]
  simp only [mapM_eq_ok_iff]

/-- They are not there if it has nothing to work with or any one of them is not there. -/
theorem exists_assembled_eq_error_iff :
    (∃ e, assembled around settingsFile options = .error e) ↔
      (∃ e, workplace around settingsFile options = .error e) ∨
      ∃ place, workplace around settingsFile options = .ok place ∧
        ∃ name ∈ options.modules, ∃ e,
          assembleModule around.files place (knownNames options place.settings) name =
            .error e := by
  cases h : workplace around settingsFile options with
  | error e =>
      rw [assembled, h]
      exact iff_of_true ⟨e, rfl⟩ (Or.inl ⟨e, rfl⟩)
  | ok place =>
      rw [assembled_of_workplace h, exists_mapM_eq_error_iff]
      constructor
      · exact fun hfail => Or.inr ⟨place, rfl, hfail⟩
      · rintro (⟨e, he⟩ | ⟨place', hsame, hfail⟩)
        · exact absurd he.symm (error_ne_ok e _)
        · obtain rfl := Except.ok.inj hsame
          exact hfail

/-- A run for one of the modules, with the other names passed as known, assembles this module as the
    run for all of them does. -/
theorem assembled_alone (h : workplace around settingsFile options = .ok place) {name : String}
    {others : List String} (hothers : ∀ other, other ∈ options.modules ↔
      other = name ∨ other ∈ others) :
    assembled around settingsFile (options.alone name others) =
      (assembleModule around.files place (knownNames options place.settings) name).map ([·]) := by
  -- What a run works with does not depend on the names that are asked for.
  have hplace : workplace around settingsFile (options.alone name others) = .ok place := h
  have hknown : ∀ other, other ∈ knownNames (options.alone name others) place.settings ↔
      other ∈ knownNames options place.settings := by
    intro other
    simp only [knownNames, AssembleOptions.alone, List.mem_append, List.mem_singleton, hothers]
    tauto
  rw [assembled_of_workplace hplace, show (options.alone name others).modules = [name] from rfl,
    List.mapM_cons, List.mapM_nil, assembleModule_congr hknown]
  cases assembleModule around.files place (knownNames options place.settings) name with
  | error e => rfl
  | ok m => rfl

/-- What a run shows once all of its modules are there. -/
theorem outcome_of_assembled (hplace : workplace around settingsFile options = .ok place)
    (h : assembled around settingsFile options = .ok modules) :
    (Writable options.json place.headerDir modules →
      (outcome around settingsFile options).status = 0 ∧
      shown options.json place.headerDir modules =
        .ok (outcome around settingsFile options).output) ∧
    (¬ Writable options.json place.headerDir modules →
      (outcome around settingsFile options).status = 1 ∧
      (outcome around settingsFile options).output = "") := by
  have hprinted := printed_of_assembled hplace h
  constructor
  · intro hwritable
    rcases exists_shown_of_writable hwritable with ⟨text, htext⟩
    rcases outcome_of_ok (hprinted.trans htext) with ⟨hstatus, houtput⟩
    exact ⟨hstatus, houtput ▸ htext⟩
  · intro hwritable
    rcases exists_error_of_not_writable hwritable with ⟨e, he⟩
    exact outcome_of_error (hprinted.trans he)

/-- A module of a run is there just as well if it is asked for alone. -/
theorem assembled_alone_of_ok (h : workplace around settingsFile options = .ok place)
    {name : String} {m : BindingModule}
    (hm : assembleModule around.files place (knownNames options place.settings) name = .ok m)
    {others : List String}
    (hothers : ∀ other, other ∈ options.modules ↔ other = name ∨ other ∈ others) :
    assembled around settingsFile (options.alone name others) = .ok [m] := by
  rw [assembled_alone h hothers, hm]
  rfl

/-- The names of the modules are those that were asked for, in their order. -/
theorem map_name_of_assembled (h : assembled around settingsFile options = .ok modules) :
    modules.map (·.name) = options.modules := by
  rcases (assembled_eq_ok_iff modules).mp h with ⟨place, hplace, hall⟩
  have hmemory := memoryless_of_workplace hplace
  refine Eq.symm ?_
  rw [← List.forall₂_eq_eq_eq, List.forall₂_map_right_iff]
  exact hall.imp fun name m hm => (name_of_assembleModule hmemory hm).symm

/-- In short, a run prints a summary of each of its modules. -/
theorem output_eq_join_summary (hplace : workplace around settingsFile options = .ok place)
    (h : assembled around settingsFile options = .ok modules) (hjson : options.json = false) :
    (outcome around settingsFile options).output = String.join (modules.map summary) := by
  have hwritable : Writable options.json place.headerDir modules :=
    fun htrue => absurd (hjson.symm.trans htrue) Bool.false_ne_true
  have hshown := ((outcome_of_assembled hplace h).1 hwritable).2
  rw [hjson] at hshown
  exact (Except.ok.inj hshown).symm

/-- In short, the output of a run is what runs for the modules alone print one after the other. -/
theorem output_eq_join_alone (hplace : workplace around settingsFile options = .ok place)
    (h : assembled around settingsFile options = .ok modules) (hjson : options.json = false)
    {others : String → List String} (hothers : ∀ name ∈ options.modules, ∀ other,
      other ∈ options.modules ↔ other = name ∨ other ∈ others name) :
    (outcome around settingsFile options).output =
      String.join (options.modules.map fun name =>
        (outcome around settingsFile (options.alone name (others name))).output) := by
  rw [output_eq_join_summary hplace h hjson]
  refine congrArg String.join (Eq.symm ?_)
  rw [assembled_of_workplace hplace, mapM_eq_ok_iff] at h
  rw [← List.forall₂_eq_eq_eq, List.forall₂_map_left_iff, List.forall₂_map_right_iff]
  refine ((List.forall₂_and_left _ _).mpr ⟨hothers, h⟩).imp fun name m hm => ?_
  -- A run for one module works with the same and prints the summary of this module.
  have hplace' : workplace around settingsFile (options.alone name (others name)) = .ok place :=
    hplace
  rw [output_eq_join_summary hplace' (assembled_alone_of_ok hplace hm.2 hm.1) hjson,
    List.map_singleton, String.join_cons, String.join_nil, String.append_empty]

end Runs

section Including

open Syntax Extraction

/-- The line of a header that includes one of another module. -/
def includeText : String := "#include \"gp_Pnt.hxx\"\n"

/-- The directive in that line. -/
def includeLine : Node :=
  { kind := "preproc_include", named := true, start := 0, stop := 22, fields := [("path", 1)]
    children := [leaf "#include" false 0 8, leaf "string_literal" true 9 21] }

/-- The tree of a header with nothing but directives. -/
def directives (stop : Nat) (children : List Node) : Node :=
  { kind := "translation_unit", named := true, start := 0, stop, fields := [], children }

/-- A grammar for the two headers: one is empty, the other is the line. -/
def directiveGrammar : Grammar := fun code =>
  some (if code.isEmpty then directives 0 [] else directives 22 [includeLine])

/-- Two modules with a header each, the second of which has this content. There are settings, but
    they cannot be read. -/
def including (second : FileContent) : Surroundings where
  files := { entries := [
    ([".cxxbind"], .directory),
    (["settings.toml", ".cxxbind"], .file .binary),
    (["inc"], .directory),
    (["gp_Pnt.hxx", "inc"], .file (.text "")),
    (["Geom_Curve.hxx", "inc"], .file second)] }
  grammar := .ok directiveGrammar

/-- The surroundings in which the second header includes the first. -/
def includingFirst : Surroundings := including (.text includeText)

/-- What is asked for: both modules. -/
def includingOptions : AssembleOptions :=
  { modules := ["gp", "Geom"], headerDir := some (.ofText "inc") }

/-- What the run works with: the built-in settings. -/
def includingPlace (second : FileContent) : Workplace where
  settings := {}
  headerDir := .ofText "inc"
  session :=
    { backend := .treeSitter
      reader := .ofLast (readFromTree (including second).files directiveGrammar) }

/-- The record of the header that is included. -/
def includedHeader : Header :=
  Header.ofPath "inc/gp_Pnt.hxx"

/-- The record of the header that includes it. -/
def includingHeader : Header :=
  (Header.ofPath "inc/Geom_Curve.hxx").withDependency "gp_Pnt.hxx"

/-- A module of one header that declares nothing. -/
def bareModule (name : String) (header : Header) (dependencies : List String) : BindingModule where
  name := name
  headerDir := "inc"
  headers := [header]
  classMap := .ofList []
  templateMap := .ofList []
  typedefMap := .empty
  enums := []
  functions := []
  operators := []
  dependencies := dependencies
  dependencyHeaders := header.dependencies

theorem readFromTree_included :
    readFromTree includingFirst.files directiveGrammar
      { path := "gp_Pnt.hxx", headerDir := "inc", settings := {}, module := "gp" } =
        .ok includedHeader := by
  have hextract : extractHeader [] "inc/gp_Pnt.hxx" (directives 0 []) = .ok includedHeader := by
    rw [extractHeader, directives, bind_eq_ok]
    refine ⟨{ header := includedHeader }, ?_, rfl⟩
    rw [Collector.visitScope]
    rfl
  change (extractHeader [] "inc/gp_Pnt.hxx" (directives 0 [])).mapError _ = _
  rw [hextract]
  rfl

theorem readFromTree_including :
    readFromTree includingFirst.files directiveGrammar
      { path := "Geom_Curve.hxx", headerDir := "inc", settings := {}, module := "Geom" } =
        .ok includingHeader := by
  have hextract : extractHeader includeText.toList "inc/Geom_Curve.hxx"
      (directives 22 [includeLine]) = .ok includingHeader := by
    rw [extractHeader, directives, bind_eq_ok]
    refine ⟨{ header := includingHeader }, ?_, rfl⟩
    rw [visitScope_cons, bind_eq_ok]
    refine ⟨_, rfl, ?_⟩
    rw [Collector.visitScope]
    rfl
  change (extractHeader includeText.toList "inc/Geom_Curve.hxx"
    (directives 22 [includeLine])).mapError _ = _
  rw [hextract]
  rfl

theorem workplace_including :
    workplace includingFirst none includingOptions = .ok (includingPlace (.text includeText)) :=
  rfl

/-- The run has both modules, and the second depends on the first. -/
theorem assembled_including : assembled includingFirst none includingOptions =
    .ok [bareModule "gp" includedHeader [], bareModule "Geom" includingHeader ["gp"]] := by
  have hmemory := memoryless_of_workplace workplace_including
  rw [assembled_of_workplace workplace_including, mapM_eq_ok_iff]
  refine .cons ?_ (.cons ?_ .nil)
  · rw [assembleModule_eq_ok_iff hmemory]
    exact ⟨["gp_Pnt.hxx"], _, rfl, .cons readFromTree_included .nil, rfl⟩
  · rw [assembleModule_eq_ok_iff hmemory]
    exact ⟨["Geom_Curve.hxx"], _, rfl, .cons readFromTree_including .nil, rfl⟩

/-- A second header that is no text cannot be read. -/
theorem exists_assembleModule_eq_error_including :
    ∃ e, assembleModule (including .binary).files (includingPlace .binary)
      (knownNames includingOptions (includingPlace .binary).settings) "Geom" = .error e :=
  ⟨_, rfl⟩

end Including

end CommandLine

end HeaderBinding
