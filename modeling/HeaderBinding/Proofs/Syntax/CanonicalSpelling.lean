import HeaderBinding.Proofs.Text.Splitting
import HeaderBinding.Syntax.Spelling

/-!
# Canonical Spellings

The spelling of a type is a form that spelling again leaves alone.

Two passes make a spelling. The first one evens out the blanks, the second one puts spaces in front
of marks, and the second could undo what the first has done: a space too many, or one at an end,
would be taken away again the next time. It does not, because it only puts a space between two
characters that are no blanks (`isChain_spaceMarks`).

`Evened` and `WellSpelled` are said of neighbours and ends, without the passes. The first is what the
first pass gives and leaves alone (`Evened.normalize_eq`), the second exactly what both leave alone
(`spellType_eq_self_iff`). That spelling twice is spelling once follows, since every spelling is
well spelled.

## Main definitions

* `Evened`: Every blank is one space between two characters that are no blanks.
* `SetOff`: Of two neighbours, the second is no mark without a space or a mark in front of it.
* `WellSpelled`: Blanks are evened out and runs of marks are set off.

## Theorems

* `evened_normalize`, `Evened.normalize_eq`: What evening out gives, and what it leaves alone.
* `isChain_spaceMarks`, `Evened.wellSpelled_spaceMarks`: What setting off marks gives.
* `filter_normalize`, `filter_spaceMarks`: Both put in or leave out blanks only.
* `spellType_eq_self_iff`: The texts that are spelled as they stand.
* `spellType_canonical`: What the spelling of a type is.
-/

namespace HeaderBinding

namespace Syntax

open Text

/-- Every blank is one space between two characters that are no blanks. -/
structure Evened (text : List Char) : Prop where
  space : ∀ c ∈ text, isBlank c = true → c = ' '
  first : ∀ c ∈ text.head?, isBlank c = false
  last : ∀ c ∈ text.getLast?, isBlank c = false
  apart : text.IsChain (Apart isBlank)

/-- Of two neighbours, the second is no mark without a space or another mark in front of it. -/
def SetOff (previous c : Char) : Prop :=
  isMark c = true → previous = ' ' ∨ isMark previous = true

theorem setOff_space (c : Char) : SetOff ' ' c :=
  fun _ => Or.inl rfl

/-- Blanks are evened out, and every mark is the first character or behind a space or a mark. -/
structure WellSpelled (text : List Char) : Prop extends Evened text where
  marks : text.IsChain SetOff

section Blanks

variable {text : List Char}

/-- Where a text is not empty, its blanks are evened out exactly if all are spaces and no piece
    between two of them is empty. -/
theorem evened_iff (hne : text ≠ []) :
    Evened text ↔ (∀ c ∈ text, isBlank c = true → c = ' ') ∧
      ∀ piece ∈ splitWhere isBlank text, piece ≠ [] := by
  have hblank : isBlank ' ' = true := by decide
  -- With a space on either side, a blank at an end has one next to it.
  have hpadded : (' ' :: (text ++ [' '])).IsChain (Apart isBlank) ↔
      (∀ c ∈ text.head?, isBlank c = false) ∧ text.IsChain (Apart isBlank) ∧
        ∀ c ∈ text.getLast?, isBlank c = false := by
    rw [List.isChain_cons, List.isChain_append, List.head?_append_of_ne_nil _ hne]
    simp [Apart, hblank]
  rw [← isChain_apart_iff hblank, hpadded]
  constructor
  · intro h
    exact ⟨h.space, h.first, h.apart, h.last⟩
  · rintro ⟨space, first, apart, last⟩
    exact ⟨space, first, last, apart⟩

theorem evened_nil : Evened [] where
  space _ hc := absurd hc List.not_mem_nil
  first _ hc := absurd hc (Option.not_mem_none _)
  last _ hc := absurd hc (Option.not_mem_none _)
  apart := List.IsChain.nil

/-- A word is not empty and has no blank in it. -/
theorem of_mem_words {word : List Char} (h : word ∈ words text) :
    word ≠ [] ∧ ∀ c ∈ word, isBlank c = false := by
  rcases List.mem_filter.mp h with ⟨hpiece, hword⟩
  refine ⟨?_, eq_false_of_mem_splitWhere isBlank text word hpiece⟩
  rintro rfl
  exact Bool.false_ne_true hword

/-- Evening out the blanks of a text evens them out. -/
theorem evened_normalize (text : List Char) : Evened (normalize text) := by
  rcases eq_or_ne (words text) [] with hnone | hsome
  · rw [normalize, hnone]
    exact evened_nil
  · have hpieces : splitWhere isBlank (normalize text) = words text :=
      splitWhere_joinWith (by decide) hsome fun _ hword => (of_mem_words hword).2
    have hne : normalize text ≠ [] := by
      intro hnil
      -- The only piece of an empty text is empty, and so no word.
      have hempty : [] ∈ words text := by
        rw [← hpieces, hnil]
        exact List.mem_singleton_self []
      exact (of_mem_words hempty).1 rfl
    refine (evened_iff hne).mpr ⟨fun c hc hblank => ?_, fun piece hpiece => ?_⟩
    · rcases mem_joinWith hc with hspace | ⟨word, hword, hc⟩
      · exact List.mem_singleton.mp hspace
      · exact absurd hblank (Bool.eq_false_iff.mp ((of_mem_words hword).2 c hc))
    · exact (of_mem_words (hpieces ▸ hpiece)).1

/-- Blanks that are evened out are left alone. -/
theorem Evened.normalize_eq (h : Evened text) : normalize text = text := by
  rcases eq_or_ne text [] with rfl | hne
  · rfl
  · have hwords : words text = splitWhere isBlank text := by
      refine List.filter_eq_self.mpr fun piece hpiece => ?_
      have hpiece := ((evened_iff hne).mp h).2 piece hpiece
      rwa [Bool.not_eq_true', List.isEmpty_eq_false_iff]
    rw [normalize, hwords, joinWith_splitWhere text h.space]

/-- Evening out the blanks puts in or leaves out blanks only. -/
theorem filter_normalize (text : List Char) :
    (normalize text).filter (!isBlank ·) = text.filter (!isBlank ·) := by
  rw [normalize, filter_joinWith (by decide), words, List.flatten_filter_not_isEmpty,
    flatten_splitWhere, List.filter_filter]
  simp only [Bool.and_self]

end Blanks

section Marks

variable {previous c : Char} {text : List Char}

/-- A space is put in front of the characters that are not set off. -/
theorem not_setOff_iff :
    (isMark c && !(previous == ' ' || isMark previous)) = true ↔ ¬ SetOff previous c := by
  rw [SetOff, Classical.not_imp, not_or, Bool.and_eq_true, Bool.not_eq_true', Bool.or_eq_false_iff,
    beq_eq_false_iff_ne, Bool.not_eq_true]

theorem spaceMarks_cons_of_setOff (h : SetOff previous c) :
    spaceMarks previous (c :: text) = c :: spaceMarks c text := by
  rw [spaceMarks, if_neg fun hput => not_setOff_iff.mp hput h]

theorem spaceMarks_cons_of_not_setOff (h : ¬ SetOff previous c) :
    spaceMarks previous (c :: text) = ' ' :: c :: spaceMarks c text := by
  rw [spaceMarks, if_pos (not_setOff_iff.mpr h)]

theorem mem_spaceMarks (h : c ∈ spaceMarks previous text) : c = ' ' ∨ c ∈ text := by
  induction text generalizing previous with
  | nil => exact Or.inr h
  | cons d rest ih =>
      by_cases hset : SetOff previous d
      · rw [spaceMarks_cons_of_setOff hset, List.mem_cons] at h
        rcases h with rfl | h
        · exact Or.inr List.mem_cons_self
        · exact (ih h).imp_right (List.mem_cons_of_mem d)
      · rw [spaceMarks_cons_of_not_setOff hset, List.mem_cons, List.mem_cons] at h
        rcases h with rfl | rfl | h
        · exact Or.inl rfl
        · exact Or.inr List.mem_cons_self
        · exact (ih h).imp_right (List.mem_cons_of_mem d)

/-- Nothing comes to stand in front of a text that has a space there. -/
theorem head?_spaceMarks (text : List Char) : (spaceMarks ' ' text).head? = text.head? := by
  cases text with
  | nil => rfl
  | cons c rest =>
      rw [spaceMarks_cons_of_setOff (setOff_space c), List.head?_cons, List.head?_cons]

theorem getLast?_spaceMarks (previous : Char) (text : List Char) :
    (spaceMarks previous text).getLast? = text.getLast? := by
  induction text generalizing previous with
  | nil => rfl
  | cons c rest ih =>
      by_cases hset : SetOff previous c
      · rw [spaceMarks_cons_of_setOff hset, List.getLast?_cons, ih, List.getLast?_cons]
      · rw [spaceMarks_cons_of_not_setOff hset, List.getLast?_cons_cons, List.getLast?_cons, ih,
          List.getLast?_cons]

theorem isBlank_eq_false_of_isMark (h : isMark c = true) : isBlank c = false := by
  rw [isMark, Bool.or_eq_true, beq_iff_eq, beq_iff_eq] at h
  rcases h with rfl | rfl
  · decide
  · decide

/-- A space is put between two characters only, of which the first is no blank and the second a
    mark. So blanks that stood apart still do, and every mark is set off. -/
theorem isChain_spaceMarks (hspace : ∀ c ∈ previous :: text, isBlank c = true → c = ' ')
    (hapart : (previous :: text).IsChain (Apart isBlank)) :
    (previous :: spaceMarks previous text).IsChain fun a b => Apart isBlank a b ∧ SetOff a b := by
  induction text generalizing previous with
  | nil => exact List.IsChain.singleton previous
  | cons c rest ih =>
      rw [List.forall_mem_cons] at hspace
      rw [List.isChain_cons_cons] at hapart
      have hrest := ih hspace.2 hapart.2
      by_cases hset : SetOff previous c
      · rw [spaceMarks_cons_of_setOff hset]
        exact List.isChain_cons_cons.mpr ⟨⟨hapart.1, hset⟩, hrest⟩
      · rw [spaceMarks_cons_of_not_setOff hset]
        rw [SetOff, Classical.not_imp, not_or] at hset
        obtain ⟨hmark, hprevious, -⟩ := hset
        -- A blank in front could only be a space, and behind that the mark would be set off.
        have hfront : Apart isBlank previous ' ' ∧ SetOff previous ' ' :=
          ⟨fun hblank => absurd (hspace.1 hblank) hprevious,
            fun hmark => absurd hmark (by decide)⟩
        have hbehind : Apart isBlank ' ' c ∧ SetOff ' ' c :=
          ⟨fun _ => isBlank_eq_false_of_isMark hmark, setOff_space c⟩
        exact List.isChain_cons_cons.mpr ⟨hfront, List.isChain_cons_cons.mpr ⟨hbehind, hrest⟩⟩

/-- Setting off marks keeps blanks evened out, and then every mark is set off. -/
theorem Evened.wellSpelled_spaceMarks (h : Evened text) : WellSpelled (spaceMarks ' ' text) := by
  have hchain : (' ' :: spaceMarks ' ' text).IsChain fun a b => Apart isBlank a b ∧ SetOff a b := by
    refine isChain_spaceMarks ?_ (List.isChain_cons.mpr ⟨fun c hc _ => h.first c hc, h.apart⟩)
    exact List.forall_mem_cons.mpr ⟨fun _ => rfl, h.space⟩
  have hinner := (List.isChain_cons.mp hchain).2
  exact {
    space := fun c hc hblank => (mem_spaceMarks hc).elim id fun hc => h.space c hc hblank
    first := by rw [head?_spaceMarks]; exact h.first
    last := by rw [getLast?_spaceMarks]; exact h.last
    apart := hinner.imp fun _ _ => And.left
    marks := hinner.imp fun _ _ => And.right }

/-- Marks that are set off are left alone. -/
theorem spaceMarks_of_isChain (h : (previous :: text).IsChain SetOff) :
    spaceMarks previous text = text := by
  induction text generalizing previous with
  | nil => rfl
  | cons c rest ih =>
      rw [List.isChain_cons_cons] at h
      rw [spaceMarks_cons_of_setOff h.1, ih h.2]

/-- Setting off marks puts in blanks only. -/
theorem filter_spaceMarks (previous : Char) (text : List Char) :
    (spaceMarks previous text).filter (!isBlank ·) = text.filter (!isBlank ·) := by
  induction text generalizing previous with
  | nil => rfl
  | cons c rest ih =>
      by_cases hset : SetOff previous c
      · rw [spaceMarks_cons_of_setOff hset, List.filter_cons, ih, List.filter_cons]
      · rw [spaceMarks_cons_of_not_setOff hset, List.filter_cons_of_neg (by decide),
          List.filter_cons, ih, List.filter_cons]

end Marks

section Spelling

variable {text : List Char}

theorem wellSpelled_spellType (text : List Char) : WellSpelled (spellType text) :=
  (evened_normalize text).wellSpelled_spaceMarks

theorem WellSpelled.spellType_eq (h : WellSpelled text) : spellType text = text := by
  rw [spellType, h.toEvened.normalize_eq]
  exact spaceMarks_of_isChain (List.isChain_cons.mpr ⟨fun c _ => setOff_space c, h.marks⟩)

/-- The texts that are spelled as they stand are the well-spelled ones. -/
theorem spellType_eq_self_iff : spellType text = text ↔ WellSpelled text :=
  ⟨fun h => h ▸ wellSpelled_spellType text, WellSpelled.spellType_eq⟩

/-- Whether a text is well spelled is found out by spelling it. -/
instance decidableWellSpelled (text : List Char) : Decidable (WellSpelled text) :=
  decidable_of_iff (spellType text = text) spellType_eq_self_iff

theorem filter_spellType (text : List Char) :
    (spellType text).filter (!isBlank ·) = text.filter (!isBlank ·) :=
  (filter_spaceMarks ' ' (normalize text)).trans (filter_normalize text)

/-- Spelling a type gives a text that is well spelled and has the same characters that are no
    blanks. It leaves alone what is well spelled already and nothing else, so that spelling twice is
    spelling once. -/
theorem spellType_canonical (text : List Char) :
    spellType (spellType text) = spellType text ∧ WellSpelled (spellType text) ∧
      (spellType text).filter (!isBlank ·) = text.filter (!isBlank ·) ∧
      (spellType text = text ↔ WellSpelled text) :=
  ⟨(wellSpelled_spellType text).spellType_eq, wellSpelled_spellType text, filter_spellType text,
    spellType_eq_self_iff⟩

example : spellType " const\t gp_Pnt*\u00A0&".toList = "const gp_Pnt * &".toList ∧
    ¬ WellSpelled "const gp_Pnt*&".toList := by
  decide

end Spelling

end Syntax

end HeaderBinding
