import HeaderBinding.Text.Word

/-!
# Identifiers and Scoped Names

A text read word by word.

Everything that looks at word boundaries sees a text as a row of words, each as long as it can be,
with single other characters between them. `words_induction` is the induction that goes with it: a
property of texts need only be passed on over one character that belongs to no word, and over one
whole word that ends where it has to.

Names of classes are identifiers joined by scope marks. That is as much as is asked of them, and two
things follow that qualifying relies on. A scoped name begins with a word character, and every
identifier in it stands next to a scope mark once another one is put behind the name.

## Main definitions

* `Text.Identifier`: A run of word characters, at least one.
* `Text.EndsWord`: No word goes on in a text.
* `Text.ScopedName`: Identifiers joined by scope marks.

## Theorems

* `Text.words_induction`: Induction over a text, word by word.
* `Text.identifier_unique`: A text begins with one word only.
* `Text.scopedName_induction`: Induction over a scoped name, from the left.
-/

namespace HeaderBinding

namespace Text

/-- A run of word characters, at least one. -/
def Identifier (word : List Char) : Prop :=
  word ≠ [] ∧ ∀ c ∈ word, isWordChar c = true

instance decidableIdentifier (word : List Char) : Decidable (Identifier word) :=
  decidable_of_iff (word ≠ [] ∧ word.all isWordChar = true)
    (by rw [List.all_eq_true, Identifier])

/-- A text that a word in front of it does not go on in: it is empty or begins with a character that
    belongs to no word. -/
def EndsWord (text : List Char) : Prop :=
  ∀ c, text.head? = some c → isWordChar c = false

/-- One or more identifiers joined by scope marks. -/
def ScopedName (name : List Char) : Prop :=
  ∃ parts : List (List Char), parts ≠ [] ∧ (∀ part ∈ parts, Identifier part) ∧
    name = scopeMark.intercalate parts

theorem isWordChar_colon : isWordChar ':' = false := by
  decide

theorem endsWord_nil : EndsWord [] := by
  intro c hc
  exact absurd hc (by simp only [List.head?_nil, reduceCtorEq, not_false_eq_true])

theorem endsWord_cons (c : Char) (rest : List Char) : EndsWord (c :: rest) ↔ isWordChar c = false :=
  ⟨fun h => h c rfl, fun h d hd => by
    rw [List.head?_cons, Option.some.injEq] at hd
    rw [← hd]
    exact h⟩

/-- An identifier, taken apart at its first character. -/
theorem Identifier.exists_cons (word : List Char) (h : Identifier word) :
    ∃ c rest, word = c :: rest ∧ isWordChar c = true ∧ ∀ d ∈ rest, isWordChar d = true := by
  cases word with
  | nil => exact absurd rfl h.1
  | cons c rest =>
      exact ⟨c, rest, rfl, h.2 c (List.mem_cons_self ..),
        fun d hd => h.2 d (List.mem_cons_of_mem _ hd)⟩

/-- An identifier, taken apart at its last character. -/
theorem Identifier.exists_reverse_cons (word : List Char) (h : Identifier word) :
    ∃ c rest, word.reverse = c :: rest ∧ isWordChar c = true := by
  cases hreverse : word.reverse with
  | nil => exact absurd (List.reverse_eq_nil_iff.mp hreverse) h.1
  | cons c rest =>
      refine ⟨c, rest, rfl, h.2 c ?_⟩
      rw [← List.mem_reverse, hreverse]
      exact List.mem_cons_self ..

theorem not_endsWord_of_identifier (word rest : List Char) (h : Identifier word) :
    ¬ EndsWord (word ++ rest) := by
  rcases h.exists_cons with ⟨c, tail, rfl, hc, _⟩
  rw [List.cons_append, endsWord_cons, hc]
  simp only [Bool.true_eq_false, not_false_eq_true]

/-- The longest run of word characters in front of a text is the word it begins with. -/
theorem takeWhile_identifier_append (word rest : List Char) (h : Identifier word)
    (hrest : EndsWord rest) : (word ++ rest).takeWhile isWordChar = word := by
  rw [List.takeWhile_append_of_pos h.2]
  cases rest with
  | nil => rw [List.takeWhile_nil, List.append_nil]
  | cons c rest =>
      rw [endsWord_cons] at hrest
      rw [List.takeWhile_cons_of_neg (by rw [hrest]; exact Bool.false_ne_true), List.append_nil]

theorem dropWhile_identifier_append (word rest : List Char) (h : Identifier word)
    (hrest : EndsWord rest) : (word ++ rest).dropWhile isWordChar = rest := by
  rw [List.dropWhile_append_of_pos h.2]
  cases rest with
  | nil => rfl
  | cons c rest =>
      rw [endsWord_cons] at hrest
      rw [List.dropWhile_cons_of_neg (by rw [hrest]; exact Bool.false_ne_true)]

/-- A text begins with one word only. -/
theorem identifier_unique (word word' rest rest' : List Char) (h : Identifier word)
    (h' : Identifier word') (hrest : EndsWord rest) (hrest' : EndsWord rest')
    (heq : word ++ rest = word' ++ rest') : word = word' ∧ rest = rest' := by
  have hword : word = word' := by
    rw [← takeWhile_identifier_append word rest h hrest, heq,
      takeWhile_identifier_append word' rest' h' hrest']
  exact ⟨hword, List.append_cancel_left (hword ▸ heq)⟩

theorem identifier_takeWhile (c : Char) (rest : List Char) (hc : isWordChar c = true) :
    Identifier (c :: rest.takeWhile isWordChar) := by
  refine ⟨List.cons_ne_nil _ _, fun d hd => ?_⟩
  rcases List.mem_cons.mp hd with heq | hmem
  · rw [heq]
    exact hc
  · exact List.all_eq_true.mp List.all_takeWhile d hmem

theorem endsWord_dropWhile (rest : List Char) : EndsWord (rest.dropWhile isWordChar) := by
  intro c hc
  have hnot := List.head?_dropWhile_not isWordChar rest
  rw [hc] at hnot
  exact hnot

/-- Induction over a text, word by word: over single characters that belong to no word, and over
    words that end where they have to. -/
theorem words_induction (P : List Char → Prop) (hnil : P [])
    (hother : ∀ c rest, isWordChar c = false → P rest → P (c :: rest))
    (hword : ∀ word rest, Identifier word → EndsWord rest → P rest → P (word ++ rest))
    (text : List Char) : P text := by
  -- A word takes up more than one character, so the induction is on the length.
  induction hlength : text.length using Nat.strongRecOn generalizing text with
  | _ n ih =>
      cases text with
      | nil => exact hnil
      | cons c rest =>
          rw [List.length_cons] at hlength
          by_cases hc : isWordChar c = true
          · have hsplit : c :: rest =
                (c :: rest.takeWhile isWordChar) ++ rest.dropWhile isWordChar := by
              rw [List.cons_append, List.takeWhile_append_dropWhile]
            have hle := (List.dropWhile_sublist isWordChar (l := rest)).length_le
            rw [hsplit]
            exact hword _ _ (identifier_takeWhile c rest hc) (endsWord_dropWhile rest)
              (ih _ (by omega) _ rfl)
          · exact hother c rest (Bool.not_eq_true _ ▸ hc) (ih rest.length (by omega) rest rfl)

/-- Induction over a scoped name: it is an identifier, or one with a scope mark and another scoped
    name behind it. -/
theorem scopedName_induction (P : List Char → Prop)
    (hsingle : ∀ word, Identifier word → P word)
    (hmore : ∀ word name, Identifier word → P name → P (word ++ (scopeMark ++ name)))
    (name : List Char) (h : ScopedName name) : P name := by
  rcases h with ⟨parts, hne, hparts, rfl⟩
  induction parts with
  | nil => exact absurd rfl hne
  | cons first rest ih =>
      have hfirst := hparts first (List.mem_cons_self ..)
      cases rest with
      | nil =>
          rw [List.intercalate_singleton]
          exact hsingle first hfirst
      | cons second rest =>
          rw [List.intercalate_cons_cons, List.append_assoc]
          exact hmore first _ hfirst (ih (List.cons_ne_nil _ _)
            (fun part hpart => hparts part (List.mem_cons_of_mem _ hpart)))

/-- A scoped name begins with a word character. -/
theorem ScopedName.exists_cons (name : List Char) (h : ScopedName name) :
    ∃ c rest, name = c :: rest ∧ isWordChar c = true := by
  refine scopedName_induction (fun name => ∃ c rest, name = c :: rest ∧ isWordChar c = true)
    (fun word hword => ?_) (fun word name hword _ => ?_) name h
  · rcases hword.exists_cons with ⟨c, rest, heq, hc, _⟩
    exact ⟨c, rest, heq, hc⟩
  · rcases hword.exists_cons with ⟨c, rest, heq, hc, _⟩
    exact ⟨c, rest ++ (scopeMark ++ name), by rw [heq, List.cons_append], hc⟩

end Text

end HeaderBinding
