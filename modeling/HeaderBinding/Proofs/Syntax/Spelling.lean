import HeaderBinding.Proofs.Syntax.Macros
import HeaderBinding.Proofs.Text.Splitting
import HeaderBinding.Syntax.Spelling

/-!
# Words of a Spelling

What the spelling of a type keeps of the text it is made from.

A type is spelled by evening out the blanks and putting a space in front of every run of pointer and
reference marks. Neither touches a word: blanks and marks belong to no word, and a character that
belongs to no word cuts a text in two whose words are those of the two parts
(`Text.wholeWords_append_cons`). So a spelling has the words of its text, in order and as often as
they stand there (`wholeWords_spellType`).

## Main definitions

* `Text.wholeWords`: The words of a text, each as long as it can be.

## Theorems

* `Text.wholeWords_append_cons`: Words on both sides of a character that belongs to none.
* `Text.isWordChar_of_isBlank`: Blanks belong to no word.
* `wholeWords_spellType`: The spelling of a type has the words of the text.
-/

namespace HeaderBinding

namespace Text

/-- The words of a text, each as long as it can be. -/
def wholeWords (text : List Char) : List (List Char) :=
  (pieces text).filter (Identifier ·)

/-- An empty text has no words. -/
theorem wholeWords_nil : wholeWords [] = [] :=
  rfl

/-- A character that belongs to no word is passed over. -/
theorem wholeWords_cons (c : Char) (rest : List Char) (hc : isWordChar c = false) :
    wholeWords (c :: rest) = wholeWords rest := by
  have hnot : ¬ Identifier [c] := by
    intro hword
    have hin := hword.2 c (List.mem_singleton_self c)
    rw [hc] at hin
    exact Bool.false_ne_true hin
  rw [wholeWords, pieces_cons c rest hc, List.filter_cons_of_neg (by rwa [decide_eq_true_eq]),
    wholeWords]

/-- A word that cannot be longer is one of the words. -/
theorem wholeWords_word (word rest : List Char) (hword : Identifier word) (hrest : EndsWord rest) :
    wholeWords (word ++ rest) = word :: wholeWords rest := by
  rw [wholeWords, pieces_word word rest hword hrest,
    List.filter_cons_of_pos (by rwa [decide_eq_true_eq]), wholeWords]

/-- The words of a text that ends a word are those in front of it and its own. -/
theorem wholeWords_append (front rest : List Char) (hrest : EndsWord rest) :
    wholeWords (front ++ rest) = wholeWords front ++ wholeWords rest := by
  refine words_induction (fun front =>
    wholeWords (front ++ rest) = wholeWords front ++ wholeWords rest) rfl ?_ ?_ front
  · intro c front hc ih
    rw [List.cons_append, wholeWords_cons c _ hc, wholeWords_cons c _ hc, ih]
  · intro word front hword hfront ih
    -- The word may be the last thing of the front, and then the rest has to end it.
    have hends : EndsWord (front ++ rest) := by
      cases front with
      | nil => exact hrest
      | cons c front => exact (endsWord_cons c _).mpr ((endsWord_cons c front).mp hfront)
    rw [List.append_assoc, wholeWords_word word _ hword hends, wholeWords_word word _ hword hfront,
      ih, List.cons_append]

/-- Words on both sides of a character that belongs to none. -/
theorem wholeWords_append_cons (front : List Char) (c : Char) (rest : List Char)
    (hc : isWordChar c = false) :
    wholeWords (front ++ c :: rest) = wholeWords front ++ wholeWords rest := by
  rw [wholeWords_append front _ ((endsWord_cons c rest).mpr hc), wholeWords_cons c rest hc]

/-- What has no word character in it adds no word and goes on with none. -/
theorem wholeWords_append_marks (front rest : List Char)
    (hrest : ∀ c ∈ rest, isWordChar c = false) : wholeWords (front ++ rest) = wholeWords front := by
  induction rest generalizing front with
  | nil => rw [List.append_nil]
  | cons c rest ih =>
      rw [List.forall_mem_cons] at hrest
      have hnone : wholeWords rest = [] := ih [] hrest.2
      rw [wholeWords_append_cons front c rest hrest.1, hnone, List.append_nil]

/-- A word is its own only word. -/
theorem wholeWords_identifier (word : List Char) (hword : Identifier word) :
    wholeWords word = [word] := by
  have happend := wholeWords_word word [] hword endsWord_nil
  rw [List.append_nil] at happend
  exact happend

/-- The code points of the blanks. -/
def blankCodes : List Nat :=
  List.range' 9 5 ++ [0x20, 0x85, 0xA0, 0x1680] ++ List.range' 0x2000 11 ++
    [0x2028, 0x2029, 0x202F, 0x205F, 0x3000]

/-- Blanks belong to no word. -/
theorem isWordChar_of_isBlank (c : Char) (h : isBlank c = true) : isWordChar c = false := by
  -- There are few blanks, so each can be looked up.
  have hcodes : ∀ n ∈ blankCodes, isWordChar (Char.ofNat n) = false := by
    decide +kernel
  have hmem : c.toNat ∈ blankCodes := by
    simp only [isBlank, Bool.or_eq_true, Bool.and_eq_true, decide_eq_true_eq, beq_iff_eq] at h
    simp only [blankCodes, List.mem_append, List.mem_range'_1, List.mem_cons, List.not_mem_nil,
      or_false]
    omega
  have hc := hcodes _ hmem
  rwa [Char.ofNat_toNat] at hc

/-- Cutting a text at characters that belong to no word keeps its words. `front` is what stands in
    front of the first cut. -/
theorem wholeWords_splitWhere (p : Char → Bool) (hp : ∀ c, p c = true → isWordChar c = false)
    (text front head : List Char) (tail : List (List Char))
    (h : splitWhere p text = head :: tail) :
    wholeWords (front ++ text) = wholeWords (front ++ head) ++ tail.flatMap wholeWords := by
  induction text generalizing front head tail with
  | nil =>
      obtain ⟨rfl, rfl⟩ := List.cons.inj h
      simp only [List.flatMap_nil, List.append_nil]
  | cons c rest ih =>
      rcases List.exists_cons_of_ne_nil (splitWhere_ne_nil p rest) with ⟨first, later, hrest⟩
      unfold splitWhere at h
      rw [hrest] at h
      by_cases hc : p c = true
      -- A cut: what is behind it starts anew.
      · rw [if_pos hc] at h
        obtain ⟨rfl, rfl⟩ := List.cons.inj h
        rw [wholeWords_append_cons front c rest (hp c hc), List.append_nil, List.flatMap_cons]
        exact congrArg _ (ih [] first later hrest)
      -- No cut: the character is moved to the front.
      · rw [if_neg hc] at h
        obtain ⟨rfl, rfl⟩ := List.cons.inj h
        have hmoved := ih (front ++ [c]) first later hrest
        rwa [List.append_assoc, List.append_assoc] at hmoved

/-- Pieces with a character between them that belongs to no word. -/
theorem wholeWords_joinWith (c : Char) (hc : isWordChar c = false) (parts : List (List Char)) :
    wholeWords (joinWith [c] parts) = parts.flatMap wholeWords := by
  induction parts with
  | nil => rfl
  | cons part rest ih =>
      cases rest with
      | nil => rw [joinWith, List.flatMap_cons, List.flatMap_nil, List.append_nil]
      | cons next rest =>
          rw [joinWith_cons [c] part (List.cons_ne_nil next rest), List.append_assoc,
            List.singleton_append, wholeWords_append_cons part c _ hc, ih, ← List.flatMap_cons]

end Text

namespace Syntax

open Text

/-- Evening out the blanks keeps the words. -/
theorem wholeWords_normalize (text : List Char) :
    wholeWords (normalize text) = wholeWords text := by
  rcases List.exists_cons_of_ne_nil (splitWhere_ne_nil isBlank text) with ⟨head, tail, hsplit⟩
  have hwords := wholeWords_splitWhere isBlank isWordChar_of_isBlank text [] head tail hsplit
  -- Pieces that are left out are empty and have no words.
  have hfilter : ∀ parts : List (List Char),
      (parts.filter (!·.isEmpty)).flatMap wholeWords = parts.flatMap wholeWords := by
    intro parts
    induction parts with
    | nil => rfl
    | cons part rest ih =>
        cases part with
        | nil =>
            rw [List.filter_cons_of_neg (by decide), ih, List.flatMap_cons, wholeWords_nil,
              List.nil_append]
        | cons c part =>
            rw [List.filter_cons_of_pos rfl, List.flatMap_cons, ih, List.flatMap_cons]
  rw [normalize, wholeWords_joinWith ' ' (by decide), words, hfilter, hsplit, List.flatMap_cons]
  exact hwords.symm

/-- Marks belong to no word. -/
theorem isWordChar_of_isMark (c : Char) (h : isMark c = true) : isWordChar c = false := by
  unfold isMark at h
  rw [Bool.or_eq_true, beq_iff_eq, beq_iff_eq] at h
  rcases h with rfl | rfl
  · decide
  · decide

/-- Spaces in front of marks keep the words. `front` is what stands in front of the text. -/
theorem wholeWords_spaceMarks (text front : List Char) (previous : Char) :
    wholeWords (front ++ spaceMarks previous text) = wholeWords (front ++ text) := by
  induction text generalizing front previous with
  | nil => rfl
  | cons c rest ih =>
      unfold spaceMarks
      split
      · next hmark =>
        -- Neither the space nor the mark belongs to a word.
        have hc := isWordChar_of_isMark c (Bool.and_eq_true _ _ |>.mp hmark).1
        rw [wholeWords_append_cons front ' ' _ (by decide), wholeWords_cons c _ hc,
          wholeWords_append_cons front c rest hc]
        exact congrArg _ (ih [] c)
      -- Nothing is put in, and the character is moved to the front.
      · have hmoved := ih (front ++ [c]) c
        rwa [List.append_assoc, List.append_assoc] at hmoved

/-- The spelling of a type has the words of the text, in order. -/
theorem wholeWords_spellType (text : List Char) :
    wholeWords (spellType text) = wholeWords text :=
  (wholeWords_spaceMarks (normalize text) [] ' ').trans (wholeWords_normalize text)

end Syntax

end HeaderBinding
