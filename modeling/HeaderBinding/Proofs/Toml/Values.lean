import HeaderBinding.Proofs.Toml.Numbers
import HeaderBinding.Proofs.Toml.Strings
import HeaderBinding.Toml.Reader

/-!
# Values Read Back

A value that was written behind a key reads as itself, and the text behind it is left as it was.

This is about truth values, whole numbers without a sign, texts, and arrays of such values in any
depth the format admits (`Plain`). What tells them apart is their first character, which is never a
blank, the start of a comment or a closing bracket. So the blanks and line breaks that are dropped
in front of an item end where the item begins, and no item is taken for the end of its array.

An array of several items has a line for each of them. Reading takes the line break in front of an
item with the item, so the lines are grouped anew, each with the break before it (`rows`).

## Main definitions

* `Reader.Plain`: The values this module is about.
* `Reader.openings`: The characters that such a value begins with.
* `Reader.rows`: The items of an array, each on a line of its own.

## Theorems

* `Reader.exists_opening`: How a value begins.
* `Reader.readItems_rows`: The items of an array that were written.
* `Reader.readValue_inline`: A value that was written.
-/

namespace HeaderBinding

namespace Toml

namespace Reader

/-- Values without floats, dates and tables, with arrays down to `room` levels. -/
inductive Plain : Nat → Toml → Prop
  | bool {room : Nat} (value : Bool) : Plain room (.bool value)
  | nat {room n : Nat} (h : n < signBit) : Plain room (.int n)
  | str {room : Nat} (text : String) : Plain room (.str text)
  | arr {room : Nat} {items : List Toml} (h : ∀ item ∈ items, Plain room item) :
    Plain (room + 1) (.arr items)

theorem inline_arr (items : List Toml) :
    Writer.inline (.arr items) = Writer.bracket (items.map Writer.inline) := by
  rw [Writer.inline]
  exact congrArg Writer.bracket (List.attach_map_val (f := Writer.inline) ..)

theorem toList_inline_nat (n : Nat) : (Writer.inline (.int n)).toList = Nat.toDigits 10 n := by
  rw [Writer.inline]
  exact String.toList_ofList

section Lines

/-- A character that is not dropped in front of an item or a line. -/
def stays (c : Char) : Bool :=
  !isBlank c && c != '#' && c != '\n' && c != '\r'

variable {c : Char} (h : stays c = true)
include h

theorem ne_of_stays : isBlank c = false ∧ c ≠ '#' ∧ c ≠ '\n' ∧ c ≠ '\r' := by
  rw [stays, Bool.and_eq_true, Bool.and_eq_true, Bool.and_eq_true, Bool.not_eq_true',
    bne_iff_ne, bne_iff_ne, bne_iff_ne, and_assoc, and_assoc] at h
  exact h

theorem skipBlanks_cons (cs : List Char) : skipBlanks (c :: cs) = c :: cs :=
  List.dropWhile_cons_of_neg (by rw [(ne_of_stays h).1]; exact Bool.false_ne_true)

theorem skipComment_cons (cs : List Char) : skipComment (c :: cs) = c :: cs := by
  rw [skipComment]
  exact fun _ heq => (ne_of_stays h).2.1 (List.cons.inj heq).1

theorem newline?_cons (cs : List Char) : newline? (c :: cs) = none := by
  rw [newline?]
  · exact fun _ heq => (ne_of_stays h).2.2.1 (List.cons.inj heq).1
  · exact fun _ heq => (ne_of_stays h).2.2.2 (List.cons.inj heq).1

/-- Nothing is dropped in front of an item that stands there at once. -/
theorem skipLines_cons (steps : Nat) (cs : List Char) : skipLines steps (c :: cs) = c :: cs := by
  cases steps with
  | zero => rfl
  | succ steps =>
      rw [skipLines, skipBlanks_cons h, skipComment_cons h, newline?_cons h]

/-- The end of a line is dropped, and so are the blanks in front of what stands on the next one. -/
theorem skipLines_newline (indent : Nat) (cs : List Char) {text : List Char}
    (htext : text = '\n' :: (List.replicate indent ' ' ++ c :: cs)) :
    skipLines text.length text = c :: cs := by
  have hfirst : ∀ steps cs, skipLines (steps + 1) ('\n' :: cs) = skipLines steps cs :=
    fun _ _ => rfl
  have hskip : skipBlanks (List.replicate indent ' ' ++ c :: cs) = skipBlanks (c :: cs) := by
    refine List.dropWhile_append_of_pos fun d hd => ?_
    rw [List.eq_of_mem_replicate hd]
    rfl
  rw [htext, List.length_cons, hfirst, List.length_append, List.length_cons, ← Nat.add_assoc,
    skipLines, hskip, skipBlanks_cons h, skipComment_cons h, newline?_cons h]

end Lines

section Openings

/-- The characters that a value may begin with. -/
def openings : List Char :=
  ['t', 'f', '"', '\'', '[', '0', '1', '2', '3', '4', '5', '6', '7', '8', '9']

/-- A value begins with nothing that is dropped in front of it, nor with the end of an array. -/
theorem stays_of_mem_openings (c : Char) (h : c ∈ openings) : stays c = true ∧ c ≠ ']' := by
  have hall : openings.all (fun c => stays c && c != ']') = true := rfl
  simpa only [Bool.and_eq_true, bne_iff_ne] using List.all_eq_true.mp hall c h

theorem mem_openings_of_isDigit {c : Char} (h : c.isDigit = true) : c ∈ openings :=
  Text.forall_isDigit (p := (· ∈ openings)) (by decide) h

theorem exists_opening_string (text : String) :
    ∃ mark, (mark = '"' ∨ mark = '\'') ∧ ∃ cs, (Writer.string text).toList = mark :: cs := by
  rw [Writer.string, String.toList_ofList]
  cases Writer.formOf text.toList
  · exact ⟨_, Or.inl rfl, _, rfl⟩
  · exact ⟨_, Or.inr rfl, _, rfl⟩
  · exact ⟨_, Or.inl rfl, _, rfl⟩
  · exact ⟨_, Or.inr rfl, _, rfl⟩

theorem exists_opening_bracket (items : List String) :
    ∃ cs, (Writer.bracket items).toList = '[' :: cs := by
  unfold Writer.bracket
  split
  · exact ⟨_, rfl⟩
  · rw [String.toList_append, String.toList_append]
    exact ⟨_, rfl⟩
  · rw [String.toList_append, String.toList_append]
    exact ⟨_, rfl⟩

/-- How a value that was written begins. -/
theorem exists_opening {room : Nat} {value : Toml} (h : Plain room value) :
    ∃ c ∈ openings, ∃ cs, (Writer.inline value).toList = c :: cs := by
  cases h with
  | bool value =>
      rw [Writer.inline]
      cases value
      · exact ⟨'f', by decide, _, rfl⟩
      · exact ⟨'t', by decide, _, rfl⟩
  | nat h =>
      rw [toList_inline_nat]
      rcases List.exists_cons_of_ne_nil Nat.toDigits_ne_nil with ⟨c, cs, hcs⟩
      refine ⟨c, mem_openings_of_isDigit ?_, cs, hcs⟩
      exact Nat.isDigit_of_mem_toDigits (by decide) (by decide) (hcs ▸ List.mem_cons_self)
  | str text =>
      rw [Writer.inline]
      rcases exists_opening_string text with ⟨mark, hmark, cs, hcs⟩
      refine ⟨mark, ?_, cs, hcs⟩
      rcases hmark with rfl | rfl
      · decide
      · decide
  | arr h =>
      rw [inline_arr]
      exact ⟨'[', by decide, exists_opening_bracket _⟩

end Openings

section Items

/-- The items of an array, each on a line of its own behind the break of the line before. -/
def rows (items : List Toml) : List Char :=
  items.flatMap fun item =>
    '\n' :: (List.replicate 4 ' ' ++ (Writer.inline item).toList ++ [','])

theorem length_le_length_rows (items : List Toml) : items.length ≤ (rows items).length := by
  induction items with
  | nil => exact Nat.le_refl 0
  | cons item items ih =>
      rw [rows, List.flatMap_cons, List.length_append, List.length_cons, List.length_cons]
      exact Nat.le_trans (Nat.succ_le_succ ih) (by rw [rows]; omega)

/-- The lines of an array, grouped by their breaks. -/
theorem toList_bracket_rows (first second : Toml) (items : List Toml) :
    (Writer.bracket ((first :: second :: items).map Writer.inline)).toList =
      '[' :: (rows (first :: second :: items) ++ ['\n', ']']) := by
  -- The break behind a line is taken for that in front of the next.
  have hrows : ∀ items : List Toml, '\n' :: ((items.map Writer.inline).map fun item =>
      "    " ++ item ++ ",\n").flatMap String.toList = rows items ++ ['\n'] := by
    intro items
    induction items with
    | nil => rfl
    | cons item items ih =>
        rw [List.map_cons, List.map_cons, List.flatMap_cons, rows, List.flatMap_cons, ← rows,
          List.append_assoc, ← ih, String.toList_append, String.toList_append]
        simp only [List.append_assoc, List.cons_append]
        rfl
  have hbracket : Writer.bracket ((first :: second :: items).map Writer.inline) = "[\n" ++
      String.join (((first :: second :: items).map Writer.inline).map fun item =>
        "    " ++ item ++ ",\n") ++ "]" := rfl
  have hall := congrArg (fun lines => '[' :: (lines ++ [']'])) (hrows (first :: second :: items))
  rw [List.append_assoc] at hall
  rw [hbracket, String.toList_append, String.toList_append, String.toList_join]
  exact hall

section Steps

variable {read : List Char → Option (Toml × List Char)} {steps : Nat} {cs : List Char}

theorem readItems_end {rest : List Char} (hskip : skipLines cs.length cs = ']' :: rest) :
    readItems read (steps + 1) cs = some ([], rest) := by
  rw [readItems, hskip]
  rfl

variable {c : Char} {more : List Char} {item : Toml} {rest : List Char}
  (hskip : skipLines cs.length cs = c :: more) (hc : c ≠ ']')
include hskip hc

theorem readItems_last (hread : read (c :: more) = some (item, ']' :: rest)) :
    readItems read (steps + 1) cs = some ([item], rest) := by
  rw [readItems, hskip]
  split
  · next heq => exact absurd (List.cons.inj heq).1 hc
  · rw [hread, Option.bind_eq_bind, Option.bind_some]
    dsimp only
    rw [skipLines_cons (by decide)]
    rfl

theorem readItems_next {tail : List Char} {items : List Toml}
    (hread : read (c :: more) = some (item, ',' :: tail))
    (htail : readItems read steps tail = some (items, rest)) :
    readItems read (steps + 1) cs = some (item :: items, rest) := by
  rw [readItems, hskip]
  split
  · next heq => exact absurd (List.cons.inj heq).1 hc
  · have hcomma : skipLines (',' :: tail).length (',' :: tail) = ',' :: tail :=
      skipLines_cons (by decide) _ _
    simp only [hread, Option.bind_eq_bind, Option.bind_some, hcomma, htail]
    rfl

end Steps

variable {read : List Char → Option (Toml × List Char)}

/-- The items of an array that were written, each of which reads as itself. -/
theorem readItems_rows (rest : List Char) : ∀ (items : List Toml) (steps : Nat),
    items.length < steps →
    (∀ item ∈ items, ∃ c ∈ openings, ∃ cs, (Writer.inline item).toList = c :: cs) →
    (∀ item ∈ items, ∀ tail, read ((Writer.inline item).toList ++ ',' :: tail) =
      some (item, ',' :: tail)) →
    readItems read steps (rows items ++ '\n' :: ']' :: rest) = some (items, rest) := by
  intro items
  induction items with
  | nil =>
      rintro (_ | steps) hsteps _ _
      · exact absurd hsteps (Nat.lt_irrefl 0)
      · exact readItems_end (skipLines_newline rfl 0 rest rfl)
  | cons item items ih =>
      rintro (_ | steps) hsteps hopening hread
      · exact absurd hsteps (Nat.not_lt_zero _)
      · rw [List.forall_mem_cons] at hopening hread
        rcases hopening.1 with ⟨c, hc, cs, hcs⟩
        rcases stays_of_mem_openings c hc with ⟨hstays, hclosing⟩
        have hitem := hread.1 (rows items ++ '\n' :: ']' :: rest)
        rw [hcs, List.cons_append] at hitem
        refine readItems_next (skipLines_newline hstays 4 _ ?_) hclosing hitem
          (ih steps (Nat.lt_of_succ_lt_succ hsteps) hopening.2 hread.2)
        rw [rows, List.flatMap_cons, ← rows, hcs]
        simp only [List.append_assoc, List.cons_append, List.nil_append]

end Items

/-- What was written between the brackets of an array. -/
theorem readItems_bracket {room : Nat} {items : List Toml} (h : ∀ item ∈ items, Plain room item)
    {read : List Char → Option (Toml × List Char)}
    (hread : ∀ item ∈ items, ∀ e tail, isEnd e = true →
      read ((Writer.inline item).toList ++ e :: tail) = some (item, e :: tail))
    {text : List Char}
    (htext : (Writer.bracket (items.map Writer.inline)).toList = '[' :: text)
    (rest : List Char) :
    readItems read ((text ++ rest).length + 1) (text ++ rest) = some (items, rest) := by
  rcases items with _ | ⟨first, _ | ⟨second, items⟩⟩
  · obtain rfl : [']'] = text := (List.cons.inj htext).2
    exact readItems_end (skipLines_cons (by decide) _ _)
  · rcases exists_opening (h first List.mem_cons_self) with ⟨c, hc, cs, hcs⟩
    rcases stays_of_mem_openings c hc with ⟨hstays, hclosing⟩
    have hitem := hread first List.mem_cons_self ']' rest rfl
    rw [List.map_singleton, Writer.bracket, String.toList_append, String.toList_append, hcs]
      at htext
    obtain rfl : c :: cs ++ [']'] = text := (List.cons.inj htext).2
    rw [hcs, List.cons_append] at hitem
    rw [List.append_assoc]
    exact readItems_last (skipLines_cons hstays _ _) hclosing hitem
  · rw [toList_bracket_rows, List.cons.injEq] at htext
    rw [← htext.2, List.append_assoc]
    refine readItems_rows rest _ _ ?_ (fun item hitem => exists_opening (h item hitem))
      fun item hitem tail => hread item hitem ',' tail rfl
    have hle := length_le_length_rows (first :: second :: items)
    rw [List.length_append]
    omega

theorem readValue_scalar {room : Nat} {c : Char} {cs : List Char} (hbracket : c ≠ '[')
    (hbrace : c ≠ '\x7b') : readValue room (c :: cs) = readScalar (c :: cs) := by
  rw [readValue]
  · exact fun _ h => hbracket (List.cons.inj h).1
  · exact fun _ h => hbrace (List.cons.inj h).1

theorem readScalar_string {mark : Char} (hmark : mark = '"' ∨ mark = '\'') {cs rest : List Char}
    {text : String} (hread : readString (mark :: cs) = some (text.toList, rest)) :
    readScalar (mark :: cs) = some (.str text, rest) := by
  rw [readScalar, if_pos (by rwa [Bool.or_eq_true, beq_iff_eq, beq_iff_eq]), hread,
    Option.bind_eq_bind, Option.bind_some]
  dsimp only
  rw [String.ofList_toList]
  rfl

theorem readScalar_digit {c : Char} (hc : c.isDigit = true) (cs : List Char) :
    readScalar (c :: cs) = (readMoment (c :: cs) <|> readNumber (c :: cs)) := by
  have hwords : (c == '"' || c == '\'') = false ∧ (c == 't') = false ∧ (c == 'f') = false :=
    Text.forall_isDigit (p := fun c =>
      (c == '"' || c == '\'') = false ∧ (c == 't') = false ∧ (c == 'f') = false) (by decide) hc
  rw [readScalar, hwords.1, hwords.2.1, hwords.2.2]
  rfl

/-- A value that was written, with something behind it that may follow a value. -/
theorem readValue_inline {room : Nat} {value : Toml} (h : Plain room value) {e : Char}
    (he : isEnd e = true) (tail : List Char) :
    readValue room ((Writer.inline value).toList ++ e :: tail) = some (value, e :: tail) := by
  -- By induction on the value; the room goes down with the arrays.
  induction h generalizing e tail with
  | bool value =>
      rw [Writer.inline]
      cases value
      · exact (readValue_scalar (c := 'f') (by decide) (by decide)).trans rfl
      · exact (readValue_scalar (c := 't') (by decide) (by decide)).trans rfl
  | @nat room n h =>
      have hmoment : readMoment (Nat.toDigits 10 n ++ e :: tail) = none :=
        readMoment_digits Text.isDigit_of_mem_toDigits he
      have hnumber := readNumber_toDigits h he tail
      rw [toList_inline_nat]
      rcases List.exists_cons_of_ne_nil (Nat.toDigits_ne_nil (n := n) (b := 10)) with ⟨c, cs, hcs⟩
      have hc : c.isDigit = true :=
        Nat.isDigit_of_mem_toDigits (by decide) (by decide) (hcs ▸ List.mem_cons_self)
      have hbracket : c ≠ '[' ∧ c ≠ '\x7b' :=
        Text.forall_isDigit (p := fun c => c ≠ '[' ∧ c ≠ '\x7b') (by decide) hc
      rw [hcs, List.cons_append] at hmoment hnumber ⊢
      rw [readValue_scalar hbracket.1 hbracket.2, readScalar_digit hc, hmoment, hnumber]
      rfl
  | str text =>
      have hmarks : some e ≠ some '"' ∧ some e ≠ some '\'' :=
        of_isEnd (p := fun e => some e ≠ some '"' ∧ some e ≠ some '\'') (by decide) (by decide)
          (by decide) he
      have hstring : readString ((Writer.string text).toList ++ e :: tail) =
          some (text.toList, e :: tail) := readString_string text hmarks
      rw [Writer.inline]
      rcases exists_opening_string text with ⟨mark, hmark, cs, hcs⟩
      rw [hcs, List.cons_append] at hstring ⊢
      refine (readValue_scalar ?_ ?_).trans (readScalar_string hmark hstring)
      · rcases hmark with rfl | rfl <;> decide
      · rcases hmark with rfl | rfl <;> decide
  | @arr room items hitems ih =>
      rcases exists_opening_bracket (items.map Writer.inline) with ⟨text, htext⟩
      have hread := readItems_bracket hitems (fun item hitem e tail he => ih item hitem he tail)
        htext (e :: tail)
      rw [inline_arr, htext, List.cons_append, readValue, hread]
      rfl

end Reader

end Toml

end HeaderBinding
