import HeaderBinding.Proofs.Json.Numbers
import HeaderBinding.Proofs.Json.Strings
import HeaderBinding.Proofs.Json.Usable
import Mathlib.Data.List.TakeWhile

/-!
# JSON Text Read Back

A value that was written with one entry a line reads as itself (`read?_pretty`), whatever is in it,
as long as no part of it is unusable and the reader may open as many containers as it has to.

A value is read without looking at the indentation it stands at, so the statement about one value
(`ReadsBack`) is for every level. It is proved by induction on the value. The entries of a container
are taken one after the other, and a comma or the end of the line behind an entry tells the reader
where it ends.

The reader counts its steps, and it counts the containers it opens. Both are bounded by the length
of the text: every step and every container takes a character away. So one number is enough for
both, and in each lemma it goes down with the text that is left.

## Main definitions

* `Reader.textAt`, `Reader.memberAt`: A value and a member as they are written on a level.
* `Reader.lines`: The entries of a container, each on a line of its own.
* `Reader.ReadsBack`: A value reads as itself.

## Theorems

* `Reader.textAt_arr`, `Reader.textAt_obj`: Containers by their lines.
* `Reader.exists_opening`: How a value begins.
* `Reader.readItems_lines`, `Reader.readMembers_lines`: The entries of a container.
* `Reader.readsBack`: Every value without an unusable part reads as itself.
* `read?_pretty`: A whole text.
-/

namespace HeaderBinding

namespace Json

namespace Reader

/-- A value as it is written on a level. -/
def textAt (level : Nat) (j : Json) : List Char :=
  (j.prettyAt level).toList

/-- A member as it is written on a level. -/
def memberAt (level : Nat) (member : String × Json) : List Char :=
  (quote member.1 ++ ": " ++ member.2.prettyAt level).toList

/-- The break in front of a line, with the indentation of a level. -/
def breakAt (level : Nat) : List Char :=
  (newline level).toList

/-- The entries of a container, each on a line of its own, with a comma behind all but the last. -/
def lines (level : Nat) : List (List Char) → List Char
  | [] => []
  | [entry] => breakAt level ++ entry
  | entry :: next :: entries => breakAt level ++ entry ++ ',' :: lines level (next :: entries)

section Layout

variable (level : Nat)

theorem breakAt_eq : breakAt level = '\n' :: List.replicate (2 * level) ' ' := by
  rw [breakAt, newline, String.toList_append]
  exact congrArg ('\n' :: ·) String.toList_ofList

theorem length_breakAt : (breakAt level).length = 2 * level + 1 := by
  rw [breakAt_eq, List.length_cons, List.length_replicate]

/-- The lines of a container are its entries with what the layout puts between them. -/
theorem lines_map_toList (entry : String) (entries : List String) :
    lines level ((entry :: entries).map String.toList) =
      breakAt level ++ (String.intercalate ("," ++ newline level) (entry :: entries)).toList := by
  induction entries generalizing entry with
  | nil => rw [String.intercalate_singleton, List.map_singleton, lines]
  | cons next entries ih =>
      rw [String.intercalate_cons_cons, List.map_cons, List.map_cons, lines, ← List.map_cons,
        ih next]
      simp only [String.toList_append, List.append_assoc, breakAt]
      rfl

/-- What is no container looks the same on every level. -/
theorem textAt_scalar (j : Json) (harr : ∀ items, j ≠ .arr items)
    (hobj : ∀ members, j ≠ .obj members) : textAt level j = j.scalar.toList := by
  rw [textAt, prettyAt]
  · exact harr []
  · exact hobj []
  · exact harr
  · exact hobj

theorem textAt_arr_nil : textAt level (.arr []) = ['[', ']'] := by
  rw [textAt, prettyAt]
  rfl

theorem textAt_obj_nil : textAt level (.obj []) = ['\x7b', '\x7d'] := by
  rw [textAt, prettyAt]
  rfl

/-- A container that is not empty, between its brackets. -/
theorem toList_container (opening closing entry : String) (entries : List String) :
    (opening ++ newline (level + 1) ++
      String.intercalate ("," ++ newline (level + 1)) (entry :: entries) ++ newline level ++
        closing).toList =
      opening.toList ++ (lines (level + 1) ((entry :: entries).map String.toList) ++
        (breakAt level ++ closing.toList)) := by
  rw [lines_map_toList]
  simp only [String.toList_append, List.append_assoc, breakAt]

/-- A member starts with its key, and a colon and a blank stand in front of its value. -/
theorem memberAt_eq (member : String × Json) :
    memberAt level member =
      '"' :: (member.1.toList.flatMap escape ++ '"' :: ':' :: ' ' :: textAt level member.2) := by
  rw [memberAt, String.toList_append, String.toList_append, toList_quote, textAt]
  simp only [List.cons_append, List.append_assoc]
  rfl

theorem textAt_arr (item : Json) (items : List Json) :
    textAt level (.arr (item :: items)) =
      '[' :: (lines (level + 1) ((item :: items).map (textAt (level + 1))) ++
        (breakAt level ++ [']'])) := by
  have hitems : (item :: items).attach.map (fun entry => entry.1.prettyAt (level + 1)) =
      (item :: items).map (prettyAt (level + 1)) := List.attach_map_val ..
  rw [textAt, prettyAt]
  · refine (congrArg (fun entries => ("[" ++ newline (level + 1) ++
      String.intercalate ("," ++ newline (level + 1)) entries ++ newline level ++ "]").toList)
        hitems).trans ((toList_container level "[" "]" _ _).trans ?_)
    rw [← List.map_cons, List.map_map]
    rfl
  · exact List.cons_ne_nil _ _

theorem textAt_obj (member : String × Json) (members : List (String × Json)) :
    textAt level (.obj (member :: members)) =
      '\x7b' :: (lines (level + 1) ((member :: members).map (memberAt (level + 1))) ++
        (breakAt level ++ ['\x7d'])) := by
  have hmembers : (member :: members).attach.map (fun entry =>
      quote entry.1.1 ++ ": " ++ entry.1.2.prettyAt (level + 1)) =
      (member :: members).map fun entry =>
        quote entry.1 ++ ": " ++ entry.2.prettyAt (level + 1) :=
    List.attach_map_val (f := fun entry : String × Json =>
      quote entry.1 ++ ": " ++ entry.2.prettyAt (level + 1)) ..
  rw [textAt, prettyAt]
  · refine (congrArg (fun entries => ("\x7b" ++ newline (level + 1) ++
      String.intercalate ("," ++ newline (level + 1)) entries ++ newline level ++ "\x7d").toList)
        hmembers).trans ((toList_container level "\x7b" "\x7d" _ _).trans ?_)
    rw [← List.map_cons (f := fun entry : String × Json =>
      quote entry.1 ++ ": " ++ entry.2.prettyAt (level + 1)), List.map_map]
    rfl
  · exact List.cons_ne_nil _ _

end Layout

section Blanks

variable (level steps room : Nat) (cs : List Char)

theorem skipBlanks_breakAt : skipBlanks (breakAt level ++ cs) = skipBlanks cs := by
  refine List.dropWhile_append_of_pos fun c hc => ?_
  rw [breakAt_eq] at hc
  rcases List.mem_cons.mp hc with rfl | hc
  · rfl
  · rw [List.eq_of_mem_replicate hc]
    rfl

/-- A value is read alike wherever on its line it stands. -/
theorem readValue_breakAt :
    readValue steps room (breakAt level ++ cs) = readValue steps room cs := by
  cases steps with
  | zero => rfl
  | succ steps => simp only [readValue, skipBlanks_breakAt]

theorem readValue_blank : readValue steps room (' ' :: cs) = readValue steps room cs := by
  have hskip : skipBlanks (' ' :: cs) = skipBlanks cs := rfl
  cases steps with
  | zero => rfl
  | succ steps => simp only [readValue, hskip]

theorem readItems_breakAt :
    readItems steps room (breakAt level ++ cs) = readItems steps room cs := by
  cases steps with
  | zero => rfl
  | succ steps => simp only [readItems, readValue_breakAt]

theorem readMembers_breakAt :
    readMembers steps room (breakAt level ++ cs) = readMembers steps room cs := by
  cases steps with
  | zero => rfl
  | succ steps => simp only [readMembers, skipBlanks_breakAt]

theorem ends_breakAt : Ends (breakAt level ++ cs) := by
  rw [breakAt_eq]
  exact ends_newline _

end Blanks

section Openings

/-- The characters that a value may begin with. -/
def openings : List Char :=
  ['n', 't', 'f', '"', '[', '\x7b', '-', '0', '1', '2', '3', '4', '5', '6', '7', '8', '9']

/-- A value does not begin with a blank, nor with the end of an array. -/
theorem skipBlanks_of_mem_openings {c : Char} (h : c ∈ openings) (cs : List Char) :
    skipBlanks (c :: cs) = c :: cs ∧ c ≠ ']' := by
  have hall : openings.all (fun c =>
      !(c == ' ' || c == '\n' || c == '\t' || c == '\r') && c != ']') = true := rfl
  have hc := List.all_eq_true.mp hall c h
  rw [Bool.and_eq_true, Bool.not_eq_true', bne_iff_ne] at hc
  exact ⟨List.dropWhile_cons_of_neg (by rw [hc.1]; exact Bool.false_ne_true), hc.2⟩

/-- A number begins with a sign or a digit. -/
theorem mem_openings_of_number {c : Char} (h : c = '-' ∨ c.isDigit = true) : c ∈ openings := by
  rcases h with rfl | h
  · decide
  · exact Text.forall_isDigit (p := (· ∈ openings)) (by decide) h

/-- How a number that was written begins. -/
theorem exists_head_toString (value : Int) :
    ∃ c cs, (toString value).toList = c :: cs ∧ (c = '-' ∨ c.isDigit = true) := by
  rw [toList_toString]
  cases value with
  | negSucc n => exact ⟨'-', _, rfl, Or.inl rfl⟩
  | ofNat n =>
      rcases List.exists_cons_of_ne_nil (Nat.toDigits_ne_nil (n := n) (b := 10)) with ⟨c, cs, hcs⟩
      refine ⟨c, cs, hcs, Or.inr ?_⟩
      exact Nat.isDigit_of_mem_toDigits (by decide) (by decide) (hcs ▸ List.mem_cons_self)

/-- How a value that was written begins. -/
theorem exists_opening (level : Nat) {j : Json} (h : Whole j) :
    ∃ c ∈ openings, ∃ cs, textAt level j = c :: cs := by
  cases h with
  | null => exact ⟨'n', by decide, _, (textAt_scalar level .null nofun nofun).trans rfl⟩
  | bool value =>
      cases value with
      | false =>
          exact ⟨'f', by decide, _, (textAt_scalar level (.bool false) nofun nofun).trans rfl⟩
      | true =>
          exact ⟨'t', by decide, _, (textAt_scalar level (.bool true) nofun nofun).trans rfl⟩
  | int value =>
      rcases exists_head_toString value with ⟨c, cs, hcs, hc⟩
      exact ⟨c, mem_openings_of_number hc, cs,
        (textAt_scalar level (.int value) nofun nofun).trans hcs⟩
  | real digits exponent =>
      rcases exists_head_toString digits with ⟨c, cs, hcs, hc⟩
      refine ⟨c, mem_openings_of_number hc, cs ++ 'e' :: (toString exponent).toList,
        (textAt_scalar level (.real digits exponent) nofun nofun).trans ?_⟩
      rw [scalar, String.toList_append, String.toList_append, hcs, List.append_assoc]
      rfl
  | str text =>
      exact ⟨'"', by decide, _,
        (textAt_scalar level (.str text) nofun nofun).trans (toList_quote text)⟩
  | @arr items h =>
      cases items with
      | nil => exact ⟨'[', by decide, _, textAt_arr_nil level⟩
      | cons item items => exact ⟨'[', by decide, _, textAt_arr level item items⟩
  | @obj members h =>
      cases members with
      | nil => exact ⟨'\x7b', by decide, _, textAt_obj_nil level⟩
      | cons member members => exact ⟨'\x7b', by decide, _, textAt_obj level member members⟩

end Openings

/-- A value reads as itself on every level, in front of whatever may follow a value. The length of
    its text is enough steps and enough room. -/
def ReadsBack (j : Json) : Prop :=
  ∀ (level steps room : Nat) (rest : List Char), (textAt level j).length < steps →
    (textAt level j).length ≤ room → Ends rest →
    readValue steps room (textAt level j ++ rest) = some (j, rest)

section Entries

variable {level steps room : Nat} {cs rest tail : List Char}

/-- The last item of an array. -/
theorem readItems_last {item : Json}
    (hitem : readValue steps room cs = some (item, breakAt level ++ ']' :: rest)) :
    readItems (steps + 1) room cs = some ([item], rest) := by
  rw [readItems, hitem, Option.bind_eq_bind, Option.bind_some]
  dsimp only
  rw [skipBlanks_breakAt]
  rfl

/-- An item of an array in front of others. -/
theorem readItems_next {item : Json} {items : List Json}
    (hitem : readValue steps room cs = some (item, ',' :: tail))
    (htail : readItems steps room tail = some (items, rest)) :
    readItems (steps + 1) room cs = some (item :: items, rest) := by
  rw [readItems, hitem, Option.bind_eq_bind, Option.bind_some]
  change (readItems steps room tail).bind _ = _
  rw [htail]
  rfl

/-- A member of an object, which is the last one or has others behind it. -/
theorem readMembers_memberAt {inner : Nat} {member : String × Json}
    {members : List (String × Json)}
    (hvalue : readValue steps room (textAt inner member.2 ++ cs) = some (member.2, cs))
    (hrest : skipBlanks cs = '\x7d' :: rest ∧ members = [] ∨ ∃ tail,
      skipBlanks cs = ',' :: tail ∧ readMembers steps room tail = some (some members, rest)) :
    readMembers (steps + 1) room (memberAt inner member ++ cs) =
      some (some (member :: members), rest) := by
  have hkey := readString_quote member.1 (':' :: ' ' :: (textAt inner member.2 ++ cs))
  rw [memberAt_eq, List.cons_append, List.append_assoc, List.cons_append, List.cons_append,
    List.cons_append, readMembers]
  change (readString _).bind _ = _
  rw [hkey]
  change (readValue steps room (' ' :: _)).bind _ = _
  rw [readValue_blank, hvalue, Option.bind_some]
  dsimp only
  rcases hrest with ⟨hend, rfl⟩ | ⟨tail, hcomma, htail⟩
  · rw [hend]
    rfl
  · rw [hcomma]
    change (readMembers steps room tail).bind _ = _
    rw [htail]
    rfl

end Entries

section Lines

variable {level inner steps room : Nat} {rest : List Char}

/-- The items of an array on their lines, each of which reads as itself. -/
theorem readItems_lines (item : Json) (items : List Json)
    (h : ∀ entry ∈ item :: items, ReadsBack entry)
    (hsteps : (lines inner ((item :: items).map (textAt inner))).length < steps)
    (hroom : (lines inner ((item :: items).map (textAt inner))).length ≤ room) :
    readItems steps room
        (lines inner ((item :: items).map (textAt inner)) ++ (breakAt level ++ ']' :: rest)) =
      some (item :: items, rest) := by
  have hbreak := length_breakAt inner
  -- There is a break in front of every item, so reading it leaves steps enough for the rest.
  induction items generalizing item steps with
  | nil =>
      rw [List.map_singleton, lines, List.length_append] at hsteps hroom
      rw [List.map_singleton, lines, List.append_assoc, readItems_breakAt]
      obtain ⟨steps, rfl⟩ : ∃ n, steps = n + 1 := Nat.exists_eq_add_one.mpr (by omega)
      exact readItems_last (h item List.mem_cons_self inner steps room _ (by omega) (by omega)
        (ends_breakAt _ _))
  | cons next items ih =>
      rw [List.map_cons, List.map_cons, lines, ← List.map_cons, List.length_append,
        List.length_append, List.length_cons] at hsteps hroom
      rw [List.map_cons, List.map_cons, lines, ← List.map_cons, List.append_assoc,
        List.append_assoc, readItems_breakAt]
      obtain ⟨steps, rfl⟩ : ∃ n, steps = n + 1 := Nat.exists_eq_add_one.mpr (by omega)
      exact readItems_next (h item List.mem_cons_self inner steps room _ (by omega) (by omega)
        (ends_comma _)) (ih next (fun entry hentry => h entry (List.mem_cons_of_mem _ hentry))
          (by omega) (by omega))

/-- The members of an object on their lines, the value of each of which reads as itself. -/
theorem readMembers_lines (member : String × Json) (members : List (String × Json))
    (h : ∀ entry ∈ member :: members, ReadsBack entry.2)
    (hsteps : (lines inner ((member :: members).map (memberAt inner))).length < steps)
    (hroom : (lines inner ((member :: members).map (memberAt inner))).length ≤ room) :
    readMembers steps room (lines inner ((member :: members).map (memberAt inner)) ++
        (breakAt level ++ '\x7d' :: rest)) =
      some (some (member :: members), rest) := by
  have hbreak := length_breakAt inner
  have hvalue : ∀ entry, (textAt inner entry.2).length ≤ (memberAt inner entry).length := by
    intro entry
    rw [memberAt_eq]
    simp only [List.length_cons, List.length_append]
    omega
  have hfirst := hvalue member
  induction members generalizing member steps with
  | nil =>
      rw [List.map_singleton, lines, List.length_append] at hsteps hroom
      rw [List.map_singleton, lines, List.append_assoc, readMembers_breakAt]
      obtain ⟨steps, rfl⟩ : ∃ n, steps = n + 1 := Nat.exists_eq_add_one.mpr (by omega)
      refine readMembers_memberAt (h member List.mem_cons_self inner steps room _ (by omega)
        (by omega) (ends_breakAt _ _)) (Or.inl ⟨?_, rfl⟩)
      rw [skipBlanks_breakAt]
      rfl
  | cons next members ih =>
      rw [List.map_cons, List.map_cons, lines, ← List.map_cons, List.length_append,
        List.length_append, List.length_cons] at hsteps hroom
      rw [List.map_cons, List.map_cons, lines, ← List.map_cons, List.append_assoc,
        List.append_assoc, readMembers_breakAt]
      obtain ⟨steps, rfl⟩ : ∃ n, steps = n + 1 := Nat.exists_eq_add_one.mpr (by omega)
      exact readMembers_memberAt (h member List.mem_cons_self inner steps room _ (by omega)
        (by omega) (ends_comma _)) (Or.inr ⟨_, rfl, ih next
          (fun entry hentry => h entry (List.mem_cons_of_mem _ hentry)) (by omega) (by omega)
            (hvalue next)⟩)

end Lines

section Values

/-- A value that begins like a number is one. -/
theorem readValue_number (steps room : Nat) {c : Char} (hc : c = '-' ∨ c.isDigit = true)
    (cs : List Char) : readValue (steps + 1) room (c :: cs) = readNumber (c :: cs) := by
  have hother : c ≠ '\x7b' ∧ c ≠ '[' ∧ c ≠ '"' ∧ c ≠ 't' ∧ c ≠ 'f' ∧ c ≠ 'n' := by
    rcases hc with rfl | hc
    · decide
    · exact Text.forall_isDigit (p := fun c =>
        c ≠ '\x7b' ∧ c ≠ '[' ∧ c ≠ '"' ∧ c ≠ 't' ∧ c ≠ 'f' ∧ c ≠ 'n') (by decide) hc
  rcases hother with ⟨hbrace, hbracket, hquote, ht, hf, hn⟩
  rw [readValue, (skipBlanks_of_mem_openings (mem_openings_of_number hc) cs).1]
  split
  · next h => exact absurd (List.cons.inj h).1 hbrace
  · next h => exact absurd (List.cons.inj h).1 hbracket
  · next h => exact absurd (List.cons.inj h).1 hquote
  · next h => exact absurd (List.cons.inj h).1 ht
  · next h => exact absurd (List.cons.inj h).1 hf
  · next h => exact absurd (List.cons.inj h).1 hn
  · rfl

/-- An array that is not closed at once is read by its items. -/
theorem readValue_bracket {steps room : Nat} {cs more rest : List Char} {c : Char}
    {items : List Json} (hskip : skipBlanks cs = c :: more) (hc : c ≠ ']') (hroom : room ≠ 0)
    (hitems : readItems steps (room - 1) (c :: more) = some (items, rest)) :
    readValue (steps + 1) room ('[' :: cs) = some (.arr items, rest) := by
  have hbracket : skipBlanks ('[' :: cs) = '[' :: cs := rfl
  simp only [readValue, hbracket, hskip]
  split
  · next h => exact absurd (List.cons.inj h).1 hc
  · rw [hitems, Option.bind_eq_bind, Option.bind_some, container, if_neg hroom]
    rfl

/-- An object that is not closed at once is read by its members. -/
theorem readValue_brace {steps room : Nat} {cs more rest : List Char} {c : Char}
    {members : List (String × Json)} (hskip : skipBlanks cs = c :: more) (hc : c ≠ '\x7d')
    (hroom : room ≠ 0)
    (hmembers : readMembers steps (room - 1) (c :: more) = some (some members, rest)) :
    readValue (steps + 1) room ('\x7b' :: cs) = some (.obj members, rest) := by
  have hbrace : skipBlanks ('\x7b' :: cs) = '\x7b' :: cs := rfl
  simp only [readValue, hbrace, hskip]
  split
  · next h => exact absurd (List.cons.inj h).1 hc
  · rw [hmembers, Option.bind_eq_bind, Option.bind_some, Option.elim_some, container,
      if_neg hroom]
    rfl

/-- A container that is closed at once needs room all the same. -/
theorem container_of_length {room : Nat} {a b : Char} (hroom : [a, b].length ≤ room) (j : Json) :
    container room j = j :=
  if_neg (Nat.ne_of_gt (Nat.lt_of_lt_of_le Nat.zero_lt_two hroom))

/-- The lines of a container start with a break and the first entry. -/
theorem exists_lines_cons (level : Nat) (entry : List Char) (entries : List (List Char)) :
    ∃ tail, lines level (entry :: entries) = breakAt level ++ (entry ++ tail) := by
  cases entries with
  | nil => exact ⟨[], by rw [lines, List.append_nil]⟩
  | cons next entries => exact ⟨_, by rw [lines, List.append_assoc]⟩

theorem readsBack_arr {item : Json} {items : List Json} (hitem : Whole item)
    (h : ∀ entry ∈ item :: items, ReadsBack entry) : ReadsBack (.arr (item :: items)) := by
  intro level steps room rest hsteps hroom _
  rw [textAt_arr, List.length_cons, List.length_append] at hsteps hroom
  obtain ⟨steps, rfl⟩ : ∃ n, steps = n + 1 := Nat.exists_eq_add_one.mpr (by omega)
  have hread : readItems steps (room - 1) (lines (level + 1)
      ((item :: items).map (textAt (level + 1))) ++ (breakAt level ++ ']' :: rest)) =
        some (item :: items, rest) := readItems_lines item items h (by omega) (by omega)
  -- The first item stands behind the first break, and it does not close the array.
  rcases exists_opening (level + 1) hitem with ⟨c, hc, cs, hcs⟩
  rcases exists_lines_cons (level + 1) (textAt (level + 1) item)
    (items.map (textAt (level + 1))) with ⟨tail, hlines⟩
  rcases skipBlanks_of_mem_openings hc (cs ++ tail ++ (breakAt level ++ ']' :: rest)) with
    ⟨hskip, hclosing⟩
  rw [List.map_cons, hlines, hcs, List.append_assoc, readItems_breakAt] at hread
  rw [textAt_arr, List.map_cons, hlines, hcs]
  simp only [List.cons_append, List.append_assoc, List.nil_append] at hread hskip ⊢
  refine readValue_bracket ?_ hclosing (by omega) hread
  rw [skipBlanks_breakAt, hskip]

theorem readsBack_obj {member : String × Json} {members : List (String × Json)}
    (h : ∀ entry ∈ member :: members, ReadsBack entry.2) :
    ReadsBack (.obj (member :: members)) := by
  intro level steps room rest hsteps hroom _
  rw [textAt_obj, List.length_cons, List.length_append] at hsteps hroom
  obtain ⟨steps, rfl⟩ : ∃ n, steps = n + 1 := Nat.exists_eq_add_one.mpr (by omega)
  have hread : readMembers steps (room - 1) (lines (level + 1)
      ((member :: members).map (memberAt (level + 1))) ++ (breakAt level ++ '\x7d' :: rest)) =
        some (some (member :: members), rest) :=
    readMembers_lines member members h (by omega) (by omega)
  rcases exists_lines_cons (level + 1) (memberAt (level + 1) member)
    (members.map (memberAt (level + 1))) with ⟨tail, hlines⟩
  rw [List.map_cons, hlines, memberAt_eq, List.append_assoc, readMembers_breakAt] at hread
  rw [textAt_obj, List.map_cons, hlines, memberAt_eq]
  simp only [List.cons_append, List.append_assoc, List.nil_append] at hread ⊢
  refine readValue_brace ?_ (by decide) (by omega) hread
  rw [skipBlanks_breakAt]
  rfl

/-- What is no container does not need more than one step. -/
theorem readsBack_scalar {j : Json} (harr : ∀ items, j ≠ .arr items)
    (hobj : ∀ members, j ≠ .obj members)
    (h : ∀ steps room rest, Ends rest →
      readValue (steps + 1) room (j.scalar.toList ++ rest) = some (j, rest)) : ReadsBack j := by
  intro level steps room rest hsteps _ hrest
  obtain ⟨steps, rfl⟩ : ∃ n, steps = n + 1 := Nat.exists_eq_add_one.mpr (by omega)
  rw [textAt_scalar level j harr hobj]
  exact h steps room rest hrest

/-- A value without an unusable part reads as itself. -/
theorem readsBack {j : Json} (h : Whole j) : ReadsBack j := by
  -- By induction on the value; the first entry of a container is needed apart for its beginning.
  induction h with
  | null => exact readsBack_scalar nofun nofun fun _ _ _ _ => rfl
  | bool value =>
      cases value with
      | false => exact readsBack_scalar nofun nofun fun _ _ _ _ => rfl
      | true => exact readsBack_scalar nofun nofun fun _ _ _ _ => rfl
  | int value =>
      refine readsBack_scalar nofun nofun fun steps room rest hrest => ?_
      have hread := readNumber_int hrest value
      rcases exists_head_toString value with ⟨c, cs, hcs, hc⟩
      rw [scalar]
      rw [hcs, List.cons_append] at hread ⊢
      rw [readValue_number steps room hc, hread]
  | real digits exponent =>
      refine readsBack_scalar nofun nofun fun steps room rest hrest => ?_
      have hread := readNumber_real hrest digits exponent
      rcases exists_head_toString digits with ⟨c, cs, hcs, hc⟩
      rw [scalar]
      rw [String.toList_append, String.toList_append, hcs, List.cons_append, List.cons_append,
        List.cons_append] at hread ⊢
      rw [readValue_number steps room hc, hread]
  | str text =>
      refine readsBack_scalar nofun nofun fun steps room rest _ => ?_
      rw [scalar, toList_quote, List.cons_append, List.append_assoc]
      change (readString _).bind _ = _
      rw [List.singleton_append, readString_quote]
      rfl
  | @arr items h ih =>
      cases items with
      | cons item items => exact readsBack_arr (h item List.mem_cons_self) ih
      | nil =>
          intro level steps room rest hsteps hroom _
          rw [textAt_arr_nil] at hsteps hroom ⊢
          obtain ⟨steps, rfl⟩ : ∃ n, steps = n + 1 := Nat.exists_eq_add_one.mpr (by omega)
          exact congrArg (fun j => some (j, rest)) (container_of_length hroom _)
  | @obj members h ih =>
      cases members with
      | cons member members => exact readsBack_obj ih
      | nil =>
          intro level steps room rest hsteps hroom _
          rw [textAt_obj_nil] at hsteps hroom ⊢
          obtain ⟨steps, rfl⟩ : ∃ n, steps = n + 1 := Nat.exists_eq_add_one.mpr (by omega)
          exact congrArg (fun j => some (j, rest)) (container_of_length hroom _)

end Values

end Reader

/-- A text that was written reads as its value, whatever line breaks stand behind it. A reader that
    may open as many containers as the text has characters may open enough. -/
theorem read?_pretty {j : Json} (h : Whole j) {room : Nat} (hroom : j.pretty.length ≤ room)
    {tail : String} (htail : ∀ c ∈ tail.toList, c = '\n') :
    read? room (j.pretty ++ tail) = some j := by
  have hends : Reader.Ends tail.toList := fun c hc => Or.inr (htail c (List.mem_of_mem_head? hc))
  have hskip : Reader.skipBlanks tail.toList = [] := by
    refine List.dropWhile_eq_nil_iff.mpr fun c hc => ?_
    rw [htail c hc]
    rfl
  have hlength : (j.pretty ++ tail).toList.length = j.pretty.length + tail.length := by
    rw [String.toList_append, List.length_append, String.length_toList, String.length_toList]
  have hread : Reader.readValue (2 * (j.pretty ++ tail).toList.length + 2) room
      (j.pretty.toList ++ tail.toList) = some (j, tail.toList) := by
    refine Reader.readsBack h 0 _ room tail.toList ?_ ?_ hends
    · change j.pretty.toList.length < _
      rw [hlength, String.length_toList]
      omega
    · change j.pretty.toList.length ≤ _
      rw [String.length_toList]
      exact hroom
  rw [String.toList_append] at hread
  simp only [read?, String.toList_append, hread, hskip, List.isEmpty_nil, if_true]

end Json

end HeaderBinding
