import HeaderBinding.Toml.Writer
import Mathlib.Data.List.Basic

/-!
# Strings Read Back

A string that was written reads as itself, whatever characters are in it and in whichever of the
four forms it stands.

Reading takes one spelled character at a time: one that stands for itself, an escape of one letter,
or an escape with a number (`Spelled`). Each is a lemma about reading, and a text is an induction
over its characters. The closing marks are where this needs care. In a long form they are three, and
up to two more in front of them belong to the string, so the last characters of the string may be
read together with the end. Marks inside a string come in runs of at most two, which is why no run
is taken for an end.

A bare string leaves open what follows. An empty one is two marks, and a third would open a long
form, so nothing that begins with a mark may follow.

## Main definitions

* `Reader.Spelled`: The spellings of a character in a basic string.
* `Reader.NoMark`: A text that does not begin with a mark.

## Theorems

* `Reader.spelled_escape`: How a character is written.
* `Reader.readBasic_basicBody`, `Reader.readLongBasic_body`: Basic strings.
* `Reader.readLiteral_append`, `Reader.readLongLiteral_append`: Literal strings.
* `Reader.readString_string`: A string that was written.
* `Reader.readKeyPart_key`: A part of a key that was written.
-/

namespace HeaderBinding

namespace Toml

namespace Reader

open Writer

/-- The spellings of a character in a basic string. -/
inductive Spelled (c : Char) : List Char → Prop
  | plain (hvisible : isVisible c = true) (hmark : c ≠ '"') (hescape : c ≠ '\\') : Spelled c [c]
  | letter (d : Char) (h : shortEscape? d = some c) : Spelled c ['\\', d]
  | code (digits : List Char) (hlength : digits.length = 4) (h : Text.codePoint? digits = some c) :
    Spelled c ('\\' :: 'u' :: digits)

/-- The characters that need a number are written with four digits of it. -/
theorem codePoint?_hexText : ∀ n < 128, needsCode (Char.ofNat n) = true →
    let digits := (Text.hexText n).map Char.toUpper
    (List.replicate (4 - digits.length) '0' ++ digits).length = 4 ∧
      Text.codePoint? (List.replicate (4 - digits.length) '0' ++ digits) = some (Char.ofNat n) := by
  decide

theorem isVisible_of_needsCode {c : Char} (hcode : needsCode c = false) (hline : c ≠ '\n') :
    isVisible c = true := by
  unfold needsCode at hcode
  unfold isVisible
  grind

/-- A character is written in one of its spellings. -/
theorem spelled_escape (c : Char) : Spelled c ((escape? c).getD [c]) := by
  unfold escape?
  split
  · exact .letter 'b' rfl
  · exact .letter 't' rfl
  · exact .letter 'n' rfl
  · exact .letter 'f' rfl
  · exact .letter 'r' rfl
  · exact .letter '"' rfl
  · exact .letter '\\' rfl
  · next hline _ _ hmark hescape =>
    split
    · next hcode =>
      have hlt : c.toNat < 128 := by
        unfold needsCode at hcode
        grind
      have hdigits := codePoint?_hexText c.toNat hlt
      rw [Char.ofNat_toNat] at hdigits
      exact .code _ (hdigits hcode).1 (hdigits hcode).2
    · next hcode =>
      exact .plain (isVisible_of_needsCode (Bool.not_eq_true _ ▸ hcode) hline) hmark hescape

section Basic

variable {c : Char} {spelling : List Char}

/-- A letter that stands for a character is none of those that announce a number. -/
theorem ne_of_shortEscape? {d e : Char} (h : shortEscape? d = some c) (he : shortEscape? e = none) :
    d ≠ e := by
  rintro rfl
  exact absurd (he.symm.trans h) (Option.some_ne_none c).symm

/-- A spelled character is read first. -/
theorem readBasic_spelled (h : Spelled c spelling) (rest : List Char) :
    readBasic (spelling ++ rest) = before? (some c) (readBasic rest) := by
  cases h with
  | plain hvisible hmark hescape =>
      rw [List.singleton_append, readBasic]
      · rw [visibleBefore?, hvisible, if_pos rfl]
      · exact hmark
      all_goals
        intros
        exact hescape ‹c = '\\'›
  | letter d h =>
      rw [List.cons_append, List.singleton_append, readBasic]
      · rw [h]
      all_goals
        intros
        exact absurd ‹d = _› (ne_of_shortEscape? h rfl)
  | code digits hlength h =>
      rcases List.length_eq_four.mp hlength with ⟨_, _, _, _, rfl⟩
      change readBasic ('\\' :: 'u' :: _ :: _ :: _ :: _ :: rest) = _
      rw [readBasic, h]

theorem endsLine_of_shortEscape? {d : Char} (h : shortEscape? d = some c) (rest : List Char) :
    endsLine (d :: rest) = false := by
  have hblank : isBlank d = false := by
    rw [isBlank, Bool.or_eq_false_iff, beq_eq_false_iff_ne, beq_eq_false_iff_ne]
    exact ⟨ne_of_shortEscape? h rfl, ne_of_shortEscape? h rfl⟩
  rw [endsLine, skipBlanks, List.dropWhile_cons_of_neg (Bool.eq_false_iff.mp hblank), newline?]
  · rfl
  · intro _ heq
    exact ne_of_shortEscape? h rfl (List.cons.inj heq).1
  · intro _ heq
    exact ne_of_shortEscape? h rfl (List.cons.inj heq).1

/-- A spelled character of a long string is read first. -/
theorem readLongBasic_spelled (h : Spelled c spelling) (rest : List Char) :
    readLongBasic false (spelling ++ rest) = before? (some c) (readLongBasic false rest) := by
  cases h with
  | plain hvisible hmark hescape =>
      have hline : c ≠ '\n' := by
        rintro rfl
        exact absurd hvisible (by decide)
      have hreturn : c ≠ '\r' := by
        rintro rfl
        exact absurd hvisible (by decide)
      rw [List.singleton_append, readLongBasic]
      · rw [Bool.false_and, if_neg Bool.false_ne_true, visibleBefore?, hvisible, if_pos rfl]
      · exact fun _ h => absurd h hmark
      · exact fun _ h => absurd h hreturn
      · exact hline
      all_goals
        intros
        exact hescape ‹c = '\\'›
  | letter d h =>
      rw [List.cons_append, List.singleton_append, readLongBasic]
      · rw [endsLine_of_shortEscape? h, if_neg Bool.false_ne_true, h]
      all_goals
        intros
        exact absurd ‹d = _› (ne_of_shortEscape? h rfl)
  | code digits hlength h =>
      rcases List.length_eq_four.mp hlength with ⟨_, _, _, _, rfl⟩
      change readLongBasic false ('\\' :: 'u' :: _ :: _ :: _ :: _ :: rest) = _
      rw [readLongBasic, h]

theorem readBasic_basicBody (cs rest : List Char) :
    readBasic (basicBody cs ++ '"' :: rest) = some (cs, rest) := by
  unfold basicBody
  induction cs with
  | nil => rfl
  | cons c cs ih =>
      rw [List.flatMap_cons, List.append_assoc, readBasic_spelled (spelled_escape c), ih]
      rfl

/-- Marks behind the closing three, at most two, are what the string ends with. -/
theorem closeLong_replicate {mark : Char} {n : Nat} (hn : n ≤ 2) {rest : List Char}
    (hrest : rest.head? ≠ some mark) :
    closeLong mark (List.replicate n mark ++ rest) = (List.replicate n mark, rest) := by
  have hfirst : ∀ a cs, rest = a :: cs → (a == mark) = false := by
    rintro a cs rfl
    exact beq_eq_false_iff_ne.mpr fun heq => hrest (congrArg some heq)
  rcases n with _ | _ | _ | n
  · rcases rest with _ | ⟨a, _ | ⟨b, cs⟩⟩
    · rfl
    · simp only [List.replicate_zero, List.nil_append, closeLong, hfirst a _ rfl,
        Bool.false_eq_true, if_false]
    · simp only [List.replicate_zero, List.nil_append, closeLong, hfirst a _ rfl,
        Bool.false_eq_true, if_false]
  · rcases rest with _ | ⟨a, cs⟩
    · simp only [List.replicate_succ, List.replicate_zero, List.append_nil, closeLong,
        beq_self_eq_true, if_true]
    · simp only [List.replicate_succ, List.replicate_zero, List.cons_append, List.nil_append,
        closeLong, beq_self_eq_true, if_true, hfirst a _ rfl, Bool.false_eq_true, if_false]
  · simp only [List.replicate_succ, List.replicate_zero, List.cons_append, List.nil_append,
      closeLong, beq_self_eq_true, if_true]
  · omega

/-- A quotation mark in a long string belongs to it unless two others follow. -/
theorem readLongBasic_mark {text : List Char} (h : ∀ rest, text ≠ '"' :: '"' :: rest) :
    readLongBasic false ('"' :: text) = before? (some '"') (readLongBasic false text) := by
  rw [readLongBasic]
  · rfl
  · exact fun rest _ => h rest
  all_goals
    intros
    exact absurd ‹ '"' = _› (by decide)

/-- The spelling of a character starts with one that can be seen, and is no mark. -/
theorem Spelled.head?_cases (h : Spelled c spelling) (rest : List Char) :
    ∃ d, (spelling ++ rest).head? = some d ∧ isVisible d = true ∧ d ≠ '"' := by
  cases h with
  | plain hvisible hmark _ => exact ⟨c, rfl, hvisible, hmark⟩
  | letter | code => exact ⟨'\\', rfl, by decide, by decide⟩

/-- A long string starts with a quotation mark only if its text does, and not behind two others. -/
theorem head?_longBasicBody {run : Nat} {d : Char} (h : d ≠ '"' ∨ run = 2) (cs rest : List Char) :
    (longBasicBody run (d :: cs) ++ rest).head? ≠ some '"' := by
  by_cases hmark : d = '"'
  · obtain rfl := h.resolve_left (not_not_intro hmark)
    rw [hmark, longBasicBody, if_pos rfl]
    exact fun h => absurd (Option.some.inj h) (by decide)
  · by_cases hline : d = '\n'
    · rw [hline, longBasicBody]
      exact fun h => absurd (Option.some.inj h) (by decide)
    · rw [longBasicBody]
      · rw [List.append_assoc]
        rcases (spelled_escape d).head?_cases (longBasicBody 0 cs ++ rest) with ⟨e, he, _, hmark⟩
        exact fun h => hmark (Option.some.inj (he.symm.trans h))
      · exact hline
      · exact hmark

/-- Behind a quotation mark no two others follow, but at the end of the string. -/
theorem longBasicBody_ne_marks {run : Nat} (hrun : run < 2) {d : Char} {cs : List Char}
    (hend : ¬ (run = 0 ∧ d = '"' ∧ cs = [])) {rest : List Char} (tail : List Char) :
    longBasicBody (run + 1) (d :: cs) ++ rest ≠ '"' :: '"' :: tail := by
  intro heq
  by_cases hfirst : d ≠ '"' ∨ run + 1 = 2
  · exact head?_longBasicBody hfirst cs rest (heq ▸ rfl)
  · rw [not_or, Classical.not_not] at hfirst
    obtain rfl : run = 0 := by omega
    rcases cs with _ | ⟨e, cs⟩
    · exact hend ⟨rfl, hfirst.1, rfl⟩
    · rw [hfirst.1, longBasicBody, if_neg (by decide), List.cons_append] at heq
      exact head?_longBasicBody (Or.inr rfl) cs rest (congrArg List.head? (List.cons.inj heq).2)

/-- A long basic string reads as its text. -/
theorem readLongBasic_body (cs : List Char) {run : Nat} (hrun : run ≤ 2) {rest : List Char}
    (hrest : rest.head? ≠ some '"') :
    readLongBasic false (longBasicBody run cs ++ '"' :: '"' :: '"' :: rest) = some (cs, rest) := by
  -- The induction is over the characters; `run` counts the marks right in front of them.
  induction cs generalizing run with
  | nil => exact congrArg some (closeLong_replicate (Nat.zero_le 2) hrest)
  | cons c cs ih =>
      by_cases hmark : c = '"'
      · by_cases htwo : run = 2
        · rw [hmark, htwo, longBasicBody, if_pos rfl, List.append_assoc,
            readLongBasic_spelled (.letter '"' rfl), ih (Nat.zero_le 2)]
          rfl
        · rw [hmark, longBasicBody, if_neg htwo, List.cons_append]
          -- The marks at the end of the string are read with the closing ones.
          rcases cs with _ | ⟨d, cs⟩
          · exact congrArg some (closeLong_replicate (show 1 ≤ 2 by decide) hrest)
          · by_cases hend : run = 0 ∧ d = '"' ∧ cs = []
            · rcases hend with ⟨rfl, rfl, rfl⟩
              exact congrArg some (closeLong_replicate (show 2 ≤ 2 by decide) hrest)
            · rw [readLongBasic_mark (longBasicBody_ne_marks (by omega) hend), ih (by omega)]
              rfl
      · by_cases hline : c = '\n'
        · rw [hline, longBasicBody, List.cons_append, readLongBasic]
          rw [if_neg Bool.false_ne_true, ih (Nat.zero_le 2)]
          rfl
        · rw [longBasicBody]
          · rw [List.append_assoc, readLongBasic_spelled (spelled_escape c), ih (Nat.zero_le 2)]
            rfl
          · exact hline
          · exact hmark

end Basic

section Literal

/-- A literal string reads as its text. -/
theorem readLiteral_append {cs : List Char} (h : ∀ c ∈ cs, isVisible c = true ∧ c ≠ '\'')
    (rest : List Char) : readLiteral (cs ++ '\'' :: rest) = some (cs, rest) := by
  induction cs with
  | nil => rfl
  | cons c cs ih =>
      rw [List.forall_mem_cons] at h
      rw [List.cons_append, readLiteral]
      · rw [visibleBefore?, h.1.1, if_pos rfl, ih h.2]
        rfl
      · exact h.1.2

theorem le_longestRun (mark : Char) (run : Nat) (cs : List Char) :
    run ≤ longestRun mark run cs := by
  induction cs generalizing run with
  | nil => exact Nat.le_refl run
  | cons c cs ih =>
      rw [longestRun]
      split
      · exact Nat.le_trans (Nat.le_succ run) (ih (run + 1))
      · exact Nat.le_max_left _ _

/-- Marks come in runs of two at most, so behind one no two others follow, but at the end. -/
theorem append_ne_marks {run : Nat} {d : Char} {cs : List Char}
    (hrun : longestRun '\'' (run + 1) (d :: cs) ≤ 2) (hend : ¬ (d = '\'' ∧ cs = []))
    {rest : List Char} (tail : List Char) : (d :: cs) ++ rest ≠ '\'' :: '\'' :: tail := by
  intro heq
  rcases List.cons.inj heq with ⟨rfl, hbehind⟩
  rcases cs with _ | ⟨e, cs⟩
  · exact hend ⟨rfl, rfl⟩
  · obtain rfl := (List.cons.inj hbehind).1
    have hle := le_longestRun '\'' (run + 1 + 1 + 1) cs
    simp only [longestRun, beq_self_eq_true, if_true] at hrun
    omega

/-- A long literal string reads as its text. -/
theorem readLongLiteral_append {cs : List Char} (h : ∀ c ∈ cs, isVisible c = true ∨ c = '\n')
    {run : Nat} (hrun : longestRun '\'' run cs ≤ 2) {rest : List Char}
    (hrest : rest.head? ≠ some '\'') :
    readLongLiteral (cs ++ '\'' :: '\'' :: '\'' :: rest) = some (cs, rest) := by
  induction cs generalizing run with
  | nil => exact congrArg some (closeLong_replicate (Nat.zero_le 2) hrest)
  | cons c cs ih =>
      rw [List.forall_mem_cons] at h
      rw [List.cons_append]
      by_cases hmark : c = '\''
      · rw [hmark] at hrun ⊢
        rw [longestRun, if_pos (beq_self_eq_true _)] at hrun
        -- The marks at the end of the string are read with the closing ones.
        rcases cs with _ | ⟨d, cs⟩
        · exact congrArg some (closeLong_replicate (show 1 ≤ 2 by decide) hrest)
        · by_cases hend : d = '\'' ∧ cs = []
          · rcases hend with ⟨rfl, rfl⟩
            exact congrArg some (closeLong_replicate (show 2 ≤ 2 by decide) hrest)
          · rw [readLongLiteral, ih h.2 hrun]
            · rfl
            · exact fun tail _ => append_ne_marks hrun hend tail
            all_goals
              intros
              exact absurd ‹ '\'' = _› (by decide)
      · rw [longestRun, if_neg (by rw [beq_iff_eq]; exact hmark)] at hrun
        have hrest := ih h.2 (Nat.le_trans (Nat.le_max_right _ _) hrun)
        by_cases hline : c = '\n'
        · rw [hline, readLongLiteral, hrest]
          rfl
        · have hvisible := h.1.resolve_right hline
          rw [readLongLiteral, hrest]
          · rw [visibleBefore?, hvisible, if_pos rfl]
            rfl
          · exact fun _ heq => absurd heq hmark
          · rintro _ rfl
            exact absurd hvisible (by decide)
          · exact hline

end Literal

/-- A text that does not begin with a mark of a string. -/
def NoMark (rest : List Char) : Prop :=
  rest.head? ≠ some '"' ∧ rest.head? ≠ some '\''

/-- A form that can hold a text. -/
def Fits (cs : List Char) : Form → Prop
  | .basic | .longBasic => True
  | .literal => ∀ c ∈ cs, isVisible c = true ∧ c ≠ '\''
  | .longLiteral => (∀ c ∈ cs, isVisible c = true ∨ c = '\n') ∧ longestRun '\'' 0 cs ≤ 2

theorem ne_of_contains_eq_false {cs : List Char} {mark : Char} (h : cs.contains mark = false) :
    ∀ c ∈ cs, c ≠ mark := by
  rintro c hc rfl
  exact Bool.false_ne_true (h.symm.trans (List.contains_iff_mem.mpr hc))

/-- The form of a text can hold it. -/
theorem fits_formOf (cs : List Char) : Fits cs (formOf cs) := by
  have hvisible : (!cs.any needsCode) = true → ∀ c ∈ cs, isVisible c = true ∨ c = '\n' := by
    intro hcodes c hc
    rw [Bool.not_eq_true', List.any_eq_false] at hcodes
    by_cases hline : c = '\n'
    · exact Or.inr hline
    · exact Or.inl (isVisible_of_needsCode (Bool.not_eq_true _ ▸ hcodes c hc) hline)
  unfold formOf
  dsimp only
  split
  · trivial
  · split
    · next hliteral =>
      rw [Bool.and_eq_true, Bool.and_eq_true, Bool.not_eq_true' (cs.contains _),
        Bool.not_eq_true' (cs.contains _)] at hliteral
      rcases hliteral with ⟨⟨hcodes, hmarks⟩, hlines⟩
      intro c hc
      exact ⟨(hvisible hcodes c hc).resolve_right (ne_of_contains_eq_false hlines c hc),
        ne_of_contains_eq_false hmarks c hc⟩
    · split
      · trivial
      · split
        · next hlong =>
          rw [Bool.and_eq_true, decide_eq_true_iff] at hlong
          exact ⟨hvisible hlong.1, hlong.2⟩
        · split
          · trivial
          · trivial

/-- What is dropped behind the opening marks of a long form is the line break that was put there. -/
theorem dropNewline_opening {lines : Bool} {text : List Char}
    (h : lines = false → ∃ c, text.head? = some c ∧ isVisible c = true) :
    dropNewline ((if lines then ['\n'] else []) ++ text) = text := by
  cases lines with
  | true => rfl
  | false =>
      rcases h rfl with ⟨c, hc, hvisible⟩
      rcases List.head?_eq_some_iff.mp hc with ⟨rest, rfl⟩
      rw [if_neg Bool.false_ne_true, List.nil_append, dropNewline, newline?]
      · rfl
      · rintro _ heq
        rw [(List.cons.inj heq).1] at hvisible
        exact absurd hvisible (by decide)
      · rintro _ heq
        rw [(List.cons.inj heq).1] at hvisible
        exact absurd hvisible (by decide)

/-- A long string starts with something that can be seen, unless with a line break. -/
theorem exists_head?_longBasicBody {cs : List Char} (h : cs.contains '\n' = false)
    (rest : List Char) :
    ∃ c, (longBasicBody 0 cs ++ '"' :: rest).head? = some c ∧ isVisible c = true := by
  cases cs with
  | nil => exact ⟨'"', rfl, by decide⟩
  | cons d cs =>
      have hline : d ≠ '\n' := ne_of_contains_eq_false h d List.mem_cons_self
      by_cases hmark : d = '"'
      · exact ⟨'"', by rw [hmark]; rfl, by decide⟩
      · rw [longBasicBody]
        · rw [List.append_assoc]
          rcases (spelled_escape d).head?_cases (longBasicBody 0 cs ++ '"' :: rest) with
            ⟨e, he, hvisible, _⟩
          exact ⟨e, he, hvisible⟩
        · exact hline
        · exact hmark

/-- A string in a form that can hold it reads as its text. -/
theorem readString_inForm {cs : List Char} {form : Form} (h : Fits cs form) {rest : List Char}
    (hrest : NoMark rest) : readString (inForm cs form ++ rest) = some (cs, rest) := by
  cases form with
  | basic =>
      change readString ('"' :: (basicBody cs ++ ['"'] ++ rest)) = _
      rw [List.append_assoc, List.singleton_append, readString]
      · exact readBasic_basicBody cs rest
      -- Two more marks would have opened a long form.
      · intro tail heq
        cases cs with
        | nil => exact hrest.1 (congrArg List.head? (List.cons.inj heq).2)
        | cons c cs =>
            rw [basicBody, List.flatMap_cons, List.append_assoc] at heq
            rcases (spelled_escape c).head?_cases (basicBody cs ++ '"' :: rest) with
              ⟨d, hd, _, hmark⟩
            exact hmark (Option.some.inj (hd.symm.trans (congrArg List.head? heq)))
  | literal =>
      change readString ('\'' :: (cs ++ ['\''] ++ rest)) = _
      rw [List.append_assoc, List.singleton_append, readString]
      · exact readLiteral_append h rest
      · intro tail heq
        cases cs with
        | nil => exact hrest.2 (congrArg List.head? (List.cons.inj heq).2)
        | cons c cs => exact (h c List.mem_cons_self).2 (List.cons.inj heq).1
  | longBasic =>
      rw [inForm, List.append_assoc, List.append_assoc, List.append_assoc]
      change readLongBasic false (dropNewline ((if cs.contains '\n' then ['\n'] else []) ++
        (longBasicBody 0 cs ++ '"' :: '"' :: '"' :: rest))) = _
      rw [dropNewline_opening fun hlines => exists_head?_longBasicBody hlines _]
      exact readLongBasic_body cs (Nat.zero_le 2) hrest.1
  | longLiteral =>
      rw [inForm, List.append_assoc, List.append_assoc, List.append_assoc]
      change readLongLiteral (dropNewline ((if cs.contains '\n' then ['\n'] else []) ++
        (cs ++ '\'' :: '\'' :: '\'' :: rest))) = _
      rw [dropNewline_opening]
      · exact readLongLiteral_append h.1 h.2 hrest.2
      · intro hlines
        cases cs with
        | nil => exact ⟨'\'', rfl, by decide⟩
        | cons c cs =>
            have hline := ne_of_contains_eq_false hlines c List.mem_cons_self
            exact ⟨c, rfl, (h.1 c List.mem_cons_self).resolve_right hline⟩

/-- A string that was written reads as itself. -/
theorem readString_string (text : String) {rest : List Char} (hrest : NoMark rest) :
    readString ((string text).toList ++ rest) = some (text.toList, rest) := by
  rw [string, String.toList_ofList]
  exact readString_inForm (fits_formOf _) hrest

theorem ne_of_isBare {c d : Char} (hc : isBare c = true) (hd : isBare d = false) : c ≠ d := by
  rintro rfl
  exact Bool.false_ne_true (hd.symm.trans hc)

/-- A bare word is read up to what can not go on in it. -/
theorem readKeyPart_bare {word : List Char} (hne : word ≠ [])
    (hbare : ∀ c ∈ word, isBare c = true) {rest : List Char}
    (hrest : ∀ c, rest.head? = some c → isBare c = false) :
    readKeyPart (word ++ rest) = some (word, rest) := by
  have htake : rest.takeWhile isBare = [] ∧ rest.dropWhile isBare = rest := by
    cases rest with
    | nil => exact ⟨rfl, rfl⟩
    | cons c rest =>
        have hc : ¬ isBare c = true := Bool.eq_false_iff.mp (hrest c rfl)
        exact ⟨List.takeWhile_cons_of_neg hc, List.dropWhile_cons_of_neg hc⟩
  cases word with
  | nil => exact absurd rfl hne
  | cons c word =>
      have hc : isBare c = true := hbare c List.mem_cons_self
      rw [List.cons_append, readKeyPart]
      · rw [← List.cons_append, List.takeWhile_append_of_pos hbare,
          List.dropWhile_append_of_pos hbare, htake.1, htake.2, List.append_nil]
        rfl
      · exact fun _ heq => ne_of_isBare hc (by decide) (List.cons.inj heq).1
      · exact fun _ heq => ne_of_isBare hc (by decide) (List.cons.inj heq).1

/-- A part of a key that was written reads as itself. -/
theorem readKeyPart_key (text : String) {rest : List Char}
    (hrest : ∀ c, rest.head? = some c → isBare c = false) :
    readKeyPart ((key text).toList ++ rest) = some (text.toList, rest) := by
  have hbasic : readKeyPart ((String.ofList (inForm text.toList .basic)).toList ++ rest) =
      some (text.toList, rest) := by
    rw [String.toList_ofList]
    change readBasic (basicBody text.toList ++ ['"'] ++ rest) = _
    rw [List.append_assoc]
    exact readBasic_basicBody text.toList rest
  unfold key
  dsimp only
  split
  · next hbare =>
    rw [Bool.and_eq_true, Bool.not_eq_true', List.isEmpty_eq_false_iff, List.all_eq_true] at hbare
    exact readKeyPart_bare hbare.1 hbare.2 hrest
  · split
    · exact hbasic
    · split
      · next hliteral =>
        rw [Bool.and_eq_true, Bool.not_eq_true', Bool.not_eq_true', Bool.or_eq_false_iff]
          at hliteral
        rw [String.toList_ofList]
        change readLiteral (text.toList ++ ['\''] ++ rest) = _
        rw [List.append_assoc]
        refine readLiteral_append (fun c hc => ⟨isVisible_of_needsCode ?_ ?_, ?_⟩) rest
        · exact Bool.not_eq_true _ ▸ List.any_eq_false.mp hliteral.1.1 c hc
        · exact ne_of_contains_eq_false hliteral.1.2 c hc
        · exact ne_of_contains_eq_false hliteral.2 c hc
      · exact hbasic

end Reader

end Toml

end HeaderBinding
