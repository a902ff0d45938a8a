import HeaderBinding.Proofs.Toml.Tables
import HeaderBinding.Proofs.Toml.Values
import Mathlib.Data.List.Forall2

/-!
# Documents Read Back

A table that was written as a document reads as that table.

The tables this is about list the keys that have values of their own in front of the tables in them,
have no name twice, and go down as many levels as a header may have names (`LaidOut`). The parts of
their document are read one by one. Reading one takes its text off and puts its statements in front
of those of the rest, whatever the rest is (`Reads`), so the parts of a document only need to be put
together. What the statements then define is the matter of the tables.

## Main definitions

* `Reader.Reads`: The statements that a part of a document is read as.
* `Reader.LaidOut`: The tables this module is about.

## Theorems

* `Reader.exists_opening_key`: How a key begins.
* `Reader.readStatement_line`, `Reader.readStatement_header`: The lines of a document.
* `Reader.LaidOut.flat`: A table without tables in it.
* `Reader.reads_sections`: The parts of a table.
* `read?_pretty`: A document that was written.
-/

namespace HeaderBinding

namespace Toml

namespace Reader

section Keys

/-- How a key that was written begins. -/
theorem exists_opening_key (name : String) : ∃ c cs, (Writer.key name).toList = c :: cs ∧
    stays c = true ∧ c ≠ '[' ∧ c ≠ byteOrderMark := by
  have hbasic : ∃ c cs, (String.ofList (Writer.inForm name.toList .basic)).toList = c :: cs ∧
      stays c = true ∧ c ≠ '[' ∧ c ≠ byteOrderMark :=
    ⟨'"', _, String.toList_ofList, by decide, by decide, by decide⟩
  unfold Writer.key
  dsimp only
  split
  · next hbare =>
      rw [Bool.and_eq_true, Bool.not_eq_true', List.isEmpty_eq_false_iff] at hbare
      rcases List.exists_cons_of_ne_nil hbare.1 with ⟨c, cs, hcs⟩
      have hc : isBare c = true := List.all_eq_true.mp hbare.2 c (hcs ▸ List.mem_cons_self)
      refine ⟨c, cs, hcs, ?_, ne_of_isBare hc (by decide), ne_of_isBare hc (by decide)⟩
      simp only [stays, isBlank, Bool.and_eq_true, Bool.not_eq_true', Bool.or_eq_false_iff,
        beq_eq_false_iff_ne, bne_iff_ne]
      exact ⟨⟨⟨⟨ne_of_isBare hc (by decide), ne_of_isBare hc (by decide)⟩,
        ne_of_isBare hc (by decide)⟩, ne_of_isBare hc (by decide)⟩, ne_of_isBare hc (by decide)⟩
  · split
    · exact hbasic
    · split
      · exact ⟨'\'', _, String.toList_ofList, by decide, by decide, by decide⟩
      · exact hbasic

theorem skipBlanks_key (name : String) (rest : List Char) :
    skipBlanks ((Writer.key name).toList ++ rest) = (Writer.key name).toList ++ rest := by
  rcases exists_opening_key name with ⟨c, cs, hcs, hc, -⟩
  rw [hcs, List.cons_append, skipBlanks_cons hc]

theorem readKeyPart_skipBlanks (name : String) {e : Char} (he : isBare e = false)
    (cs : List Char) :
    readKeyPart (skipBlanks ((Writer.key name).toList ++ e :: cs)) =
      some (name.toList, e :: cs) := by
  rw [skipBlanks_key, readKeyPart_key name]
  exact fun c hc => Option.some.inj hc ▸ he

/-- A key with nothing behind it that goes on with it. -/
theorem readKeyParts_last (room : Nat) (name : String) {e : Char} (he : isBare e = false)
    {cs rest : List Char} (hrest : skipBlanks (e :: cs) = rest) (hdot : ∀ cs, rest ≠ '.' :: cs) :
    readKeyParts (room + 1) ((Writer.key name).toList ++ e :: cs) = some ([name], rest) := by
  rw [readKeyParts, readKeyPart_skipBlanks name he, Option.bind_eq_bind, Option.bind_some]
  dsimp only
  rw [hrest]
  split
  · next cs => exact absurd rfl (hdot cs)
  · rw [String.ofList_toList]
    rfl

/-- A key with another one behind a dot. -/
theorem readKeyParts_dot {room : Nat} (name : String) {cs rest : List Char} {parts : List String}
    (hparts : readKeyParts room cs = some (parts, rest)) :
    readKeyParts (room + 1) ((Writer.key name).toList ++ '.' :: cs) =
      some (name :: parts, rest) := by
  have hdot : skipBlanks ('.' :: cs) = '.' :: cs := skipBlanks_cons (by decide) cs
  have hpart := readKeyPart_skipBlanks name (e := '.') (by decide) cs
  simp only [readKeyParts, hpart, Option.bind_eq_bind, Option.bind_some, hdot, hparts,
    String.ofList_toList]
  rfl

theorem exists_opening_intercalate {path : List String} (hne : path ≠ []) :
    ∃ c cs, (String.intercalate "." (path.map Writer.key)).toList = c :: cs ∧ c ≠ '[' := by
  rcases path with _ | ⟨name, _ | ⟨second, path⟩⟩
  · exact absurd rfl hne
  · rcases exists_opening_key name with ⟨c, cs, hcs, -, hc, -⟩
    exact ⟨c, cs, hcs, hc⟩
  · rcases exists_opening_key name with ⟨c, cs, hcs, -, hc, -⟩
    rw [List.map_cons, List.map_cons, String.intercalate_cons_cons, String.toList_append,
      String.toList_append, hcs]
    exact ⟨c, _, rfl, hc⟩

/-- The names of a path with dots between them, in front of a bracket. -/
theorem readKeyParts_intercalate {room : Nat} {path : List String} (hne : path ≠ [])
    (hroom : path.length ≤ room) (rest : List Char) :
    readKeyParts room ((String.intercalate "." (path.map Writer.key)).toList ++ ']' :: rest) =
      some (path, ']' :: rest) := by
  induction path generalizing room with
  | nil => exact absurd rfl hne
  | cons name path ih =>
      rcases room with _ | room
      · exact absurd hroom (Nat.not_succ_le_zero _)
      · rcases path with _ | ⟨second, path⟩
        · exact readKeyParts_last room name (by decide) (skipBlanks_cons (by decide) rest)
            fun _ h => absurd (List.cons.inj h).1 (by decide)
        · rw [List.map_cons, List.map_cons, String.intercalate_cons_cons, ← List.map_cons,
            String.toList_append, String.toList_append, List.append_assoc, List.append_assoc]
          refine readKeyParts_dot name ?_
          exact ih (List.cons_ne_nil _ _) (Nat.le_of_succ_le_succ hroom)

end Keys

section Statements

theorem readTarget_key (name : String) (cs : List Char) :
    readTarget ((Writer.key name).toList ++ ' ' :: '=' :: cs) =
      some ([], name, skipBlanks cs) := by
  have hkey : readKey ((Writer.key name).toList ++ ' ' :: '=' :: cs) =
      some ([name], '=' :: cs) :=
    readKeyParts_last _ name (by decide) (skipBlanks_cons (c := '=') (by decide) cs)
      fun _ h => absurd (List.cons.inj h).1 (by decide)
  rw [readTarget, hkey]
  rfl

/-- The line of a key and its value. -/
theorem readStatement_line (name : String) {value : Toml} (h : Plain depthLimit value)
    (rest : List Char) :
    readStatement ((Writer.line name value).toList ++ rest) =
      some (.assignment [] name value, '\n' :: rest) := by
  rcases exists_opening h with ⟨d, hd, ds, hds⟩
  have hvalue := readValue_inline h (e := '\n') rfl rest
  have htarget := readTarget_key name (' ' :: ((Writer.inline value).toList ++ '\n' :: rest))
  have hblank : skipBlanks (' ' :: ((Writer.inline value).toList ++ '\n' :: rest)) =
      (Writer.inline value).toList ++ '\n' :: rest := by
    rw [hds]
    exact skipBlanks_cons (stays_of_mem_openings d hd).1 _
  have htext : (Writer.line name value).toList ++ rest = (Writer.key name).toList ++
      ' ' :: '=' :: ' ' :: ((Writer.inline value).toList ++ '\n' :: rest) := by
    rw [Writer.line]
    simp only [String.toList_append, List.append_assoc]
    rfl
  rcases exists_opening_key name with ⟨c, cs, hcs, -, hbracket, -⟩
  rw [htext]
  rw [hcs, List.cons_append] at htarget ⊢
  rw [readStatement, htarget, Option.bind_eq_bind, Option.bind_some]
  · dsimp only
    rw [hblank, hvalue]
    rfl
  · exact fun _ heq => hbracket (List.cons.inj heq).1
  · exact fun _ heq => hbracket (List.cons.inj heq).1

/-- The line of a header. -/
theorem readStatement_header {path : List String} {name : String}
    (hroom : (path ++ [name]).length ≤ depthLimit) (rest : List Char) :
    readStatement ('[' ::
      ((String.intercalate "." ((path ++ [name]).map Writer.key)).toList ++ ']' :: rest)) =
        some (.header path name, rest) := by
  have hne : path ++ [name] ≠ [] :=
    List.append_ne_nil_of_right_ne_nil path (List.cons_ne_nil name [])
  have hkey := readKeyParts_intercalate hne hroom rest
  rcases exists_opening_intercalate hne with ⟨c, cs, hcs, hc⟩
  rw [hcs, List.cons_append] at hkey ⊢
  rw [readStatement, readHeader, readKey, hkey]
  · simp only [Option.bind_eq_bind, Option.bind_some, List.dropLast_concat,
      List.getLast?_concat, List.isPrefixOf?, beq_self_eq_true, if_true]
    rfl
  · exact fun _ heq => hc (List.cons.inj heq).1

end Statements

/-- A part of a document is read as some statements, whatever stands behind it. -/
structure Reads (text : List Char) (statements : List Statement) : Prop where
  unmarked : text.head? ≠ some byteOrderMark
  run : ∃ count ≤ text.length, ∀ steps rest, readStatements (steps + count) (text ++ rest) =
    (readStatements steps rest).map (statements ++ ·)

namespace Reads

theorem nil : Reads [] [] :=
  ⟨by decide, 0, Nat.le_refl 0, fun steps rest => by
    rw [List.nil_append]
    exact Option.map_id_apply.symm⟩

theorem append {text text' : List Char} {statements statements' : List Statement}
    (h : Reads text statements) (h' : Reads text' statements') :
    Reads (text ++ text') (statements ++ statements') := by
  rcases h.run with ⟨count, hcount, hrun⟩
  rcases h'.run with ⟨count', hcount', hrun'⟩
  refine ⟨?_, count + count', ?_, fun steps rest => ?_⟩
  · cases text with
    | nil => exact h'.unmarked
    | cons c cs => exact h.unmarked
  · rw [List.length_append]
    exact Nat.add_le_add hcount hcount'
  · rw [List.append_assoc, Nat.add_comm count, ← Nat.add_assoc, hrun, hrun', Option.map_map]
    simp only [Function.comp_def, List.append_assoc]

/-- An empty line. -/
theorem newline : Reads ['\n'] [] :=
  ⟨by decide, 1, Nat.le_refl 1, fun steps rest => Option.map_id_apply.symm⟩

/-- A line with a statement. -/
theorem statement {c : Char} {text : List Char} {statement : Statement}
    (hhead : text.head? = some c) (hc : stays c = true) (hmark : c ≠ byteOrderMark)
    (hread : ∀ rest, readStatement (text ++ rest) = some (statement, '\n' :: rest)) :
    Reads text [statement] := by
  rcases List.head?_eq_some_iff.mp hhead with ⟨cs, rfl⟩
  refine ⟨fun h => hmark (Option.some.inj h), 1, Nat.succ_le_succ (Nat.zero_le _),
    fun steps rest => ?_⟩
  · have hline : lineEnd? (c :: (cs ++ rest)) = none := by
      rw [lineEnd?, skipBlanks_cons hc, skipComment_cons hc]
      exact newline?_cons hc _
    have hend : lineEnd? ('\n' :: rest) = some rest := rfl
    have hstatement := hread rest
    rw [List.cons_append] at hstatement ⊢
    rw [readStatements, hline, skipBlanks_cons hc, hstatement]
    · simp only [Option.bind_eq_bind, Option.bind_some, hend]
      cases readStatements steps rest <;> rfl
    · exact List.cons_ne_nil _ _

/-- The lines of keys with their values. -/
theorem lines {own : List (String × Toml)} (h : ∀ entry ∈ own, Plain depthLimit entry.2) :
    Reads (String.join (own.map fun entry => Writer.line entry.1 entry.2)).toList
      (assignments own) := by
  rw [String.toList_join]
  induction own with
  | nil => exact nil
  | cons entry own ih =>
      rw [List.forall_mem_cons] at h
      rcases exists_opening_key entry.1 with ⟨c, cs, hcs, hc, -, hmark⟩
      rw [List.map_cons, List.flatMap_cons, assignments, List.map_cons, ← List.singleton_append]
      refine append (statement ?_ hc hmark (readStatement_line entry.1 h.1)) (ih h.2)
      rw [Writer.line, String.toList_append, String.toList_append, String.toList_append, hcs]
      rfl

/-- The line of a header. -/
theorem header (path : List String) (name : String)
    (hroom : (path ++ [name]).length ≤ depthLimit) :
    Reads ("[" ++ String.intercalate "." ((path ++ [name]).map Writer.key) ++ "]\n").toList
      [.header path name] := by
  have htext : ∀ names, ("[" ++ names ++ "]\n").toList = '[' :: (names.toList ++ [']', '\n']) := by
    intro names
    rw [String.toList_append, String.toList_append]
    rfl
  refine statement (c := '[') (by rw [htext]; rfl) (by decide) (by decide) fun rest => ?_
  rw [htext, List.cons_append, List.append_assoc]
  exact readStatement_header hroom ('\n' :: rest)

/-- Parts with an empty line between them. -/
theorem intercalate {parts : List String} {blocks : List (List Statement)}
    (h : List.Forall₂ (fun part block => Reads part.toList block) parts blocks) :
    Reads (String.intercalate "\n" parts).toList blocks.flatten := by
  induction h with
  | nil => exact nil
  | @cons part block parts blocks hpart hparts ih =>
      cases hparts with
      | nil =>
          rw [List.flatten_cons, List.flatten_nil, List.append_nil]
          exact hpart
      | cons hsecond hparts =>
          rw [String.intercalate_cons_cons, String.toList_append, String.toList_append,
            List.flatten_cons]
          have hbreak := hpart.append newline
          rw [List.append_nil] at hbreak
          exact hbreak.append ih

/-- A whole document. -/
theorem read?_eq {text : String} {statements : List Statement}
    (h : Reads text.toList statements) : Toml.read? text = ofStatements? statements := by
  rcases h.run with ⟨count, hcount, hrun⟩
  -- No line is empty, so there are steps enough for all of them.
  have hall := hrun (text.toList.length + 1 - count) []
  have hnil : ∀ steps, readStatements steps [] = some [] := by
    intro steps
    rw [readStatements]
  rw [Nat.sub_add_cancel (Nat.le_succ_of_le hcount), hnil, List.append_nil, Option.map_some,
    List.append_nil] at hall
  have hmark := h.unmarked
  rw [Toml.read?]
  generalize text.toList = cs at hall hmark
  rcases cs with _ | ⟨c, cs⟩
  · exact congrArg (·.bind ofStatements?) hall
  · have hc : (c == byteOrderMark) = false :=
      beq_eq_false_iff_ne.mpr fun heq => hmark (congrArg some heq)
    dsimp only
    rw [hc, if_neg Bool.false_ne_true]
    exact congrArg (·.bind ofStatements?) hall

end Reads

/-- Tables with the keys that have values of their own in front, with no name twice, and with tables
    inside of them down to `room` levels. -/
inductive LaidOut : Nat → List (String × Toml) → Prop
  | intro {room : Nat} {own : List (String × Toml)}
    {tables : List (String × List (String × Toml))}
    (hnames : (own.map (·.1) ++ tables.map (·.1)).Nodup)
    (hown : ∀ entry ∈ own, Plain depthLimit entry.2)
    (htables : ∀ table ∈ tables, LaidOut room table.2) : LaidOut (room + 1) (laidOut own tables)

/-- A table without tables in it. -/
theorem LaidOut.flat {room : Nat} {own : List (String × Toml)} (hnames : (own.map (·.1)).Nodup)
    (hown : ∀ entry ∈ own, Plain depthLimit entry.2) : LaidOut (room + 1) own := by
  have hlaid : LaidOut (room + 1) (laidOut own []) :=
    LaidOut.intro (by rwa [List.map_nil, List.append_nil]) hown
      fun _ h => absurd h List.not_mem_nil
  rwa [laidOut, List.map_nil, List.append_nil] at hlaid

section Sections

/-- The parts of a document that an entry fills. -/
def inside (path : List String) : String × Toml → List String
  | (name, .table entries) => Writer.sections (path ++ [name]) entries
  | _ => []

/-- The line of an entry, unless it is a table. -/
def ownLine? : String × Toml → Option String
  | (_, .table _) => none
  | (name, value) => some (Writer.line name value)

/-- The line of a header. There is none for a whole document. -/
def headerLine (path : List String) : String :=
  if path.isEmpty then "" else "[" ++ String.intercalate "." (path.map Writer.key) ++ "]\n"

theorem isEmpty_concat (path : List String) (name : String) : (path ++ [name]).isEmpty = false := by
  rw [List.isEmpty_eq_false_iff]
  exact List.append_ne_nil_of_right_ne_nil path (List.cons_ne_nil name [])

theorem sections_eq (path : List String) (entries : List (String × Toml)) :
    Writer.sections path entries =
      if (entries.filterMap ownLine?).isEmpty &&
          !((entries.flatMap (inside path)).isEmpty && !path.isEmpty) then
        entries.flatMap (inside path)
      else (headerLine path ++ String.join (entries.filterMap ownLine?)) ::
        entries.flatMap (inside path) := by
  have hinside : ∀ f : {entry // entry ∈ entries} → List String,
      (∀ entry h, f ⟨entry, h⟩ = inside path entry) →
        entries.attach.flatMap f = entries.flatMap (inside path) := by
    intro f hf
    rw [List.flatMap_subtype hf, List.unattach_attach]
  rw [Writer.sections, hinside]
  · rfl
  · rintro ⟨name, value⟩ h
    cases value <;> rfl

variable {own : List (String × Toml)} (hown : ∀ entry ∈ own, Plain depthLimit entry.2)
  (tables : List (String × List (String × Toml)))
include hown

theorem filterMap_ownLine? : (laidOut own tables).filterMap ownLine? =
    own.map fun entry => Writer.line entry.1 entry.2 := by
  have hline : ∀ entry ∈ own, ownLine? entry = some (Writer.line entry.1 entry.2) := by
    rintro ⟨name, value⟩ h
    cases hown _ h <;> rfl
  have htables :
      (tables.map fun table => (table.1, Toml.table table.2)).filterMap ownLine? = [] := by
    rw [List.filterMap_map, List.filterMap_eq_nil_iff]
    exact fun _ _ => rfl
  rw [laidOut, List.filterMap_append, htables, List.append_nil, List.filterMap_congr hline]
  exact congrFun List.filterMap_eq_map own

theorem flatMap_inside (path : List String) : (laidOut own tables).flatMap (inside path) =
    tables.flatMap fun table => Writer.sections (path ++ [table.1]) table.2 := by
  have hnone : own.flatMap (inside path) = [] := by
    rw [List.flatMap_eq_nil_iff]
    rintro ⟨name, value⟩ h
    cases hown _ h <;> rfl
  rw [laidOut, List.flatMap_append, hnone, List.nil_append, List.flatMap_map]
  rfl

end Sections

/-- The parts of several tables are read as the statements that define them. -/
theorem reads_tables (path : List String) (tables : List (String × List (String × Toml)))
    (h : ∀ table ∈ tables, ∃ blocks,
      List.Forall₂ (fun part block => Reads part.toList block)
        (Writer.sections (path ++ [table.1]) table.2) blocks ∧
      Fills path table.1 table.2 blocks.flatten) :
    ∃ blocks, List.Forall₂ (fun part block => Reads part.toList block)
        (tables.flatMap fun table => Writer.sections (path ++ [table.1]) table.2) blocks ∧
      FillsAll path tables blocks.flatten := by
  induction tables with
  | nil => exact ⟨[], List.Forall₂.nil, FillsAll.nil path⟩
  | cons table tables ih =>
      rw [List.forall_mem_cons] at h
      rcases h with ⟨⟨first, hfirst, hfills⟩, hrest⟩
      rcases ih hrest with ⟨rest, hreads, hall⟩
      refine ⟨first ++ rest, List.rel_append hfirst hreads, ?_⟩
      rw [List.flatten_append]
      exact FillsAll.cons hfills hall

/-- The parts of a table are read as statements that define it. -/
theorem reads_sections {room : Nat} {entries : List (String × Toml)} (h : LaidOut room entries) :
    ∀ (path : List String) (name : String), path.length + room ≤ depthLimit →
    ∃ blocks, List.Forall₂ (fun part block => Reads part.toList block)
        (Writer.sections (path ++ [name]) entries) blocks ∧
      Fills path name entries blocks.flatten := by
  induction h with
  | @intro room own tables hnames hown htables ih =>
      intro path name hroom
      -- The tables inside have one name more in front of theirs, and one level less to go down.
      have hlength : (path ++ [name]).length = path.length + 1 := List.length_append
      rcases reads_tables (path ++ [name]) tables fun table htable =>
        ih table htable (path ++ [name]) table.1 (by omega) with ⟨blocks, hreads, hfills⟩
      rw [sections_eq, filterMap_ownLine? hown, flatMap_inside hown]
      split
      · next hnoHeader =>
          rw [Bool.and_eq_true, List.isEmpty_iff, List.map_eq_nil_iff] at hnoHeader
          obtain rfl := hnoHeader.1
          refine ⟨blocks, hreads, Fills.of_tables ?_ hnames hfills⟩
          rintro rfl
          rw [isEmpty_concat] at hnoHeader
          exact Bool.false_ne_true hnoHeader.2
      · refine ⟨(.header path name :: assignments own) :: blocks, List.Forall₂.cons ?_ hreads, ?_⟩
        · have hheader := Reads.header path name (by omega)
          have hlines := Reads.lines hown
          rw [headerLine, isEmpty_concat, if_neg Bool.false_ne_true, String.toList_append]
          exact hheader.append hlines
        · rw [List.flatten_cons]
          exact Fills.of_header hnames hfills

end Reader

/-- A document that was written reads as its table. -/
theorem read?_pretty {room : Nat} {entries : List (String × Toml)}
    (h : Reader.LaidOut room entries) (hroom : room ≤ Reader.depthLimit + 1) :
    read? (pretty (.table entries)) = some (.table entries) := by
  cases h with
  | @intro room own tables hnames hown htables =>
      have hdepth : ([] : List String).length + room ≤ Reader.depthLimit := by
        rw [List.length_nil]
        omega
      rcases Reader.reads_tables [] tables fun table htable =>
        Reader.reads_sections (htables table htable) [] table.1 hdepth with ⟨blocks, hreads, hfills⟩
      have hreads : Reader.Reads (pretty (.table (laidOut own tables))).toList
          (assignments own ++ blocks.flatten) := by
        rw [pretty, Reader.sections_eq, Reader.filterMap_ownLine? hown, Reader.flatMap_inside hown]
        split
        · next hempty =>
            rw [Bool.and_eq_true, List.isEmpty_iff, List.map_eq_nil_iff] at hempty
            obtain rfl := hempty.1
            exact Reader.Reads.intercalate hreads
        · have hlines := Reader.Reads.lines hown
          rw [← List.flatten_cons]
          refine Reader.Reads.intercalate (List.Forall₂.cons ?_ hreads)
          rw [Reader.headerLine, List.isEmpty_nil, if_pos rfl, String.empty_append]
          exact hlines
      rw [hreads.read?_eq, ofStatements?_of_fillsAll hnames hfills]

end Toml

end HeaderBinding
