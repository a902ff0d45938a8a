import HeaderBinding.Proofs.Qualification.Scopes
import HeaderBinding.Proofs.Text.Slice
import HeaderBinding.Syntax.Macros
import Mathlib.Data.List.SplitBy

/-!
# Blanked Macros

What is left of a text whose macros have been blanked out.

The stripper tries the macros at every place in their order, with a test for a word boundary at each
end. Where the macros are identifiers, the order does not matter and neither does it matter that one
macro may begin another. Between two characters of a word there is no boundary, so nothing is tried
there with success, and at the start of a word a macro only stands if it is the whole word. So the
text can be taken apart into its words, each as long as it can be, and each of them is either
blanked or copied (`stripMacros_eq_blanked`).

Blanks are no word characters. They cut off nothing from the words next to them, so that a second
stripper sees the words the first one has left and no others. Stripping twice is stripping the
macros of both lists at once.

Every character is replaced by as many blanks as it has bytes, whether or not the macros are
identifiers, so offsets behind a macro stay what they were (`byteLength_stripMacros`).

## Main definitions

* `Text.pieces`: The words of a text and the single characters between them.
* `blankedPiece`: What stands in the place of a word.
* `blanked`: A text with all its macros blanked out, word by word.

## Theorems

* `stripMacros_eq_blanked`: Stripping goes word by word.
* `blanked_blanked`: One list of macros after another is both at once.
* `byteLength_stripMacros`: Stripping keeps the number of bytes.
* `stripMacros_blanks`: What stripping macros that are identifiers comes to.
-/

namespace HeaderBinding

open Text

namespace Text

/-- The words of a text, each as long as it can be, and the single characters between them. -/
def pieces (text : List Char) : List (List Char) :=
  text.splitBy fun a b => isWordChar a && isWordChar b

/-- A character that belongs to no word is a piece of its own. -/
theorem pieces_cons (c : Char) (rest : List Char) (hc : isWordChar c = false) :
    pieces (c :: rest) = [c] :: pieces rest := by
  have happend : ([c] ++ rest).splitBy (fun a b => isWordChar a && isWordChar b) =
      [c].splitBy (fun a b => isWordChar a && isWordChar b) ++ pieces rest := by
    refine List.splitBy_append fun x hx y _ => ?_
    rw [List.getLast?_singleton, Option.mem_some_iff] at hx
    rw [← hx, hc, Bool.false_and]
  exact happend

/-- A word that ends where it has to is a piece. -/
theorem pieces_word (word rest : List Char) (hword : Identifier word) (hrest : EndsWord rest) :
    pieces (word ++ rest) = word :: pieces rest := by
  have hchain : word.IsChain fun a b => (isWordChar a && isWordChar b) = true := by
    refine List.Pairwise.isChain (List.pairwise_of_forall_mem_list fun a ha b hb => ?_)
    rw [hword.2 a ha, hword.2 b hb, Bool.and_true]
  rw [pieces, List.splitBy_append, List.splitBy_of_isChain hword.1 hchain]
  · rfl
  · intro x _ y hy
    rw [hrest y hy, Bool.and_false]

theorem byteLength_blanks (n : Nat) : byteLength (List.replicate n ' ') = n := by
  induction n with
  | zero => rfl
  | succ n ih =>
      have hblank : (' ' : Char).utf8Size = 1 := rfl
      rw [List.replicate_succ, byteLength, ih, hblank, Nat.add_comm]

end Text

section Blanked

/-- What stands in the place of a word: as many blanks as it has bytes if it is a macro, and else
    the word. -/
def blankedPiece (macros : List String) (piece : List Char) : List Char :=
  if String.ofList piece ∈ macros then List.replicate (byteLength piece) ' ' else piece

/-- The text in which every word that is a macro is blanked out, and all else is kept. -/
def blanked (macros : List String) (text : List Char) : List Char :=
  (pieces text).flatMap (blankedPiece macros)

variable (macros : List String)

theorem blanked_nil : blanked macros [] = [] :=
  rfl

/-- The order of the macros does not matter, and neither does it matter how often one is listed. -/
theorem blanked_congr (other : List String) (hsame : ∀ m, m ∈ macros ↔ m ∈ other)
    (text : List Char) : blanked macros text = blanked other text := by
  refine List.flatMap_congr fun piece _ => ?_
  simp only [blankedPiece, hsame]

theorem blanked_word (word rest : List Char) (hword : Identifier word) (hrest : EndsWord rest) :
    blanked macros (word ++ rest) = blankedPiece macros word ++ blanked macros rest := by
  rw [blanked, pieces_word word rest hword hrest, List.flatMap_cons, blanked]

section Identifiers

variable (hmacros : ∀ m ∈ macros, Identifier m.toList)
include hmacros

/-- A character that belongs to no word is kept. -/
theorem blanked_cons (c : Char) (rest : List Char) (hc : isWordChar c = false) :
    blanked macros (c :: rest) = c :: blanked macros rest := by
  have hnot : String.ofList [c] ∉ macros := by
    intro hmem
    have hin : c ∈ (String.ofList [c]).toList := by
      rw [String.toList_ofList]
      exact List.mem_singleton_self c
    have hword := (hmacros _ hmem).2 c hin
    rw [hc] at hword
    exact Bool.false_ne_true hword
  rw [blanked, pieces_cons c rest hc, List.flatMap_cons, blankedPiece, if_neg hnot, blanked,
    List.singleton_append]

/-- Blanks are kept. -/
theorem blanked_blanks_append (n : Nat) (rest : List Char) :
    blanked macros (List.replicate n ' ' ++ rest) =
      List.replicate n ' ' ++ blanked macros rest := by
  induction n with
  | zero => rfl
  | succ n ih =>
      rw [List.replicate_succ, List.cons_append, blanked_cons macros hmacros ' ' _ (by decide), ih,
        List.cons_append]

/-- Where no word has to go on, none goes on after the macros are blanked out. -/
theorem endsWord_blanked (text : List Char) (h : EndsWord text) :
    EndsWord (blanked macros text) := by
  cases text with
  | nil => exact endsWord_nil
  | cons c rest =>
      rw [endsWord_cons] at h
      rw [blanked_cons macros hmacros c rest h, endsWord_cons]
      exact h

/-- Blanking out one list of macros after another is blanking out both at once. -/
theorem blanked_blanked (other : List String) (hother : ∀ m ∈ other, Identifier m.toList)
    (text : List Char) :
    blanked other (blanked macros text) = blanked (macros ++ other) text := by
  have hboth : ∀ m ∈ macros ++ other, Identifier m.toList :=
    List.forall_mem_append.mpr ⟨hmacros, hother⟩
  induction text using words_induction with
  | hnil => rfl
  | hother c rest hc ih =>
      rw [blanked_cons macros hmacros c rest hc, blanked_cons other hother c _ hc,
        blanked_cons _ hboth c rest hc, ih]
  | hword word rest hword hrest ih =>
      have hends := endsWord_blanked macros hmacros rest hrest
      rw [blanked_word macros word rest hword hrest, blanked_word _ word rest hword hrest, ← ih]
      by_cases hmem : String.ofList word ∈ macros
      · -- The first list blanks the word, and the second finds blanks there.
        rw [blankedPiece, if_pos hmem, blankedPiece,
          if_pos (List.mem_append.mpr (Or.inl hmem)), blanked_blanks_append other hother]
      · have hpiece : blankedPiece (macros ++ other) word = blankedPiece other word := by
          simp only [blankedPiece, List.mem_append, hmem, false_or]
        rw [blankedPiece, if_neg hmem, blanked_word other word _ hword hends, hpiece]

end Identifiers

end Blanked

section Stripping

variable (macros : List (List Char))

theorem flatMap_blanksFor (word : List Char) :
    word.flatMap blanksFor = List.replicate (byteLength word) ' ' := by
  induction word with
  | nil => rfl
  | cons c word ih =>
      rw [List.flatMap_cons, ih, blanksFor, List.replicate_append_replicate, byteLength]

/-- The rest of a macro is blanked out. -/
theorem stripFrom_skip (passed before rest : List Char) :
    stripFrom macros passed.length before (passed ++ rest) =
      passed.flatMap blanksFor ++ stripFrom macros 0 (passed.reverse ++ before) rest := by
  induction passed generalizing before with
  | nil => rfl
  | cons c passed ih =>
      rw [List.length_cons, List.cons_append, stripFrom, ih (c :: before), List.flatMap_cons,
        List.reverse_cons, List.append_assoc, List.append_assoc]
      rfl

/-- Where a macro is found, its first character is blanked out and the rest is known to follow. -/
theorem stripFrom_of_find?_some (before : List Char) (c : Char) (rest : List Char) (d : Char)
    (tail : List Char)
    (hfind : macros.find? (fun word => standsAt word before (c :: rest)) = some (d :: tail)) :
    stripFrom macros 0 before (c :: rest) =
      blanksFor c ++ stripFrom macros tail.length (c :: before) rest := by
  rw [stripFrom, hfind]

theorem stripFrom_of_find?_none (before : List Char) (c : Char) (rest : List Char)
    (hfind : macros.find? (fun word => standsAt word before (c :: rest)) = none) :
    stripFrom macros 0 before (c :: rest) = c :: stripFrom macros 0 (c :: before) rest := by
  rw [stripFrom, hfind]

/-- Where no macro stands, the character is copied. -/
theorem stripFrom_of_forall_not (before : List Char) (c : Char) (rest : List Char)
    (hnot : ∀ word ∈ macros, standsAt word before (c :: rest) = false) :
    stripFrom macros 0 before (c :: rest) = c :: stripFrom macros 0 (c :: before) rest := by
  refine stripFrom_of_find?_none macros before c rest (List.find?_eq_none.mpr fun word hword => ?_)
  rw [hnot word hword]
  exact Bool.false_ne_true

/-- The rest of any other word is copied. -/
theorem stripFrom_inside (passed : List Char) (hpassed : ∀ c ∈ passed, isWordChar c = true)
    (b : Char) (before rest : List Char) (hb : isWordChar b = true) :
    stripFrom macros 0 (b :: before) (passed ++ rest) =
      passed ++ stripFrom macros 0 (passed.reverse ++ (b :: before)) rest := by
  induction passed generalizing b before with
  | nil => rfl
  | cons c passed ih =>
      have hc := hpassed c (List.mem_cons_self ..)
      rw [List.cons_append, stripFrom_of_forall_not macros _ c _
          fun word _ => standsAt_inside word b c before _ hb hc,
        ih (fun d hd => hpassed d (List.mem_cons_of_mem _ hd)) c (b :: before) hc,
        List.reverse_cons, List.append_assoc]
      rfl

/-- Whatever the macros are, a text keeps its number of bytes. -/
theorem byteLength_stripFrom (skip : Nat) (before text : List Char) :
    byteLength (stripFrom macros skip before text) = byteLength text := by
  have hblanks : ∀ c : Char, byteLength (blanksFor c) = c.utf8Size := fun c =>
    byteLength_blanks c.utf8Size
  induction text generalizing skip before with
  | nil => rw [stripFrom]
  | cons c rest ih =>
      cases skip with
      | succ skip => rw [stripFrom, byteLength_append, hblanks, ih, byteLength]
      | zero =>
          rw [stripFrom]
          split
          · rw [byteLength_append, hblanks, ih, byteLength]
          · rw [byteLength, ih, byteLength]

/-- At the start of a word the macro that is the whole word is found, and no other. -/
theorem find?_standsAt_word (hmacros : ∀ m ∈ macros, Identifier m) (before word rest : List Char)
    (hword : Identifier word) (hbefore : EndsWord before) (hrest : EndsWord rest) :
    macros.find? (fun m => standsAt m before (word ++ rest)) =
      if word ∈ macros then some word else none := by
  have hstands : ∀ m ∈ macros, standsAt m before (word ++ rest) = true ↔ word = m :=
    fun m hm => standsAt_word_iff m (hmacros m hm) before word rest hword hbefore hrest
  by_cases hmem : word ∈ macros
  · rw [if_pos hmem]
    rcases hfind : macros.find? (fun m => standsAt m before (word ++ rest)) with _ | found
    · rw [List.find?_eq_none] at hfind
      exact absurd ((hstands word hmem).mpr rfl) (hfind word hmem)
    · have hat : standsAt found before (word ++ rest) = true :=
        List.find?_some (p := fun m => standsAt m before (word ++ rest)) hfind
      rw [(hstands found (List.mem_of_find?_eq_some hfind)).mp hat]
  · rw [if_neg hmem, List.find?_eq_none]
    exact fun m hm hat => hmem ((hstands m hm).mp hat ▸ hm)

end Stripping

section Macros

variable (macros : List String)

/-- Stripping goes word by word, from any place that is not inside of a word. -/
theorem stripFrom_eq_blanked (hmacros : ∀ m ∈ macros, Identifier m.toList) (text before : List Char)
    (h : EndsWord before ∨ EndsWord text) :
    stripFrom (macros.map String.toList) 0 before text = blanked macros text := by
  have hwords : ∀ m ∈ macros.map String.toList, Identifier m := List.forall_mem_map.mpr hmacros
  induction text using words_induction generalizing before with
  | hnil => rw [stripFrom, blanked_nil]
  | hother c rest hc ih =>
      rw [stripFrom_of_forall_not _ before c rest
          fun m hm => standsAt_other m (hwords m hm) before c rest hc,
        ih (c :: before) (Or.inl ((endsWord_cons c before).mpr hc)),
        blanked_cons macros hmacros c rest hc]
  | hword word rest hword hrest ih =>
      have hbefore : EndsWord before :=
        h.resolve_right (not_endsWord_of_identifier word rest hword)
      have hfind := find?_standsAt_word _ hwords before word rest hword hbefore hrest
      have hrest' := ih (word.reverse ++ before) (Or.inr hrest)
      have hmem : word ∈ macros.map String.toList ↔ String.ofList word ∈ macros := by
        rw [List.mem_map]
        refine ⟨fun ⟨m, hm, heq⟩ => ?_, fun hm => ⟨_, hm, String.toList_ofList⟩⟩
        rw [← heq, String.ofList_toList]
        exact hm
      rcases hword.exists_cons with ⟨c, tail, rfl, hc, htail⟩
      have hpassed : (c :: tail).reverse ++ before = tail.reverse ++ (c :: before) := by
        rw [List.reverse_cons, List.append_assoc, List.singleton_append]
      rw [blanked_word macros _ rest hword hrest, ← hrest', hpassed, blankedPiece]
      rw [List.cons_append] at hfind ⊢
      by_cases hblank : String.ofList (c :: tail) ∈ macros
      · -- The macro is found, and the stripper goes on behind it.
        rw [if_pos (hmem.mpr hblank)] at hfind
        rw [stripFrom_of_find?_some _ before c _ c tail hfind, stripFrom_skip, if_pos hblank,
          ← flatMap_blanksFor, List.flatMap_cons, List.append_assoc]
      · -- No macro is found, neither here nor inside of the word.
        rw [if_neg (fun h => hblank (hmem.mp h))] at hfind
        rw [stripFrom_of_find?_none _ before c _ hfind, if_neg hblank,
          stripFrom_inside _ tail htail c before rest hc, List.cons_append]

/-- Stripping macros that are identifiers goes word by word. -/
theorem stripMacros_eq_blanked (hmacros : ∀ m ∈ macros, Identifier m.toList) (text : List Char) :
    stripMacros macros text = blanked macros text :=
  stripFrom_eq_blanked macros hmacros text [] (Or.inl endsWord_nil)

/-- Stripping keeps the number of bytes, whatever the macros are. -/
theorem byteLength_stripMacros (text : List Char) :
    byteLength (stripMacros macros text) = byteLength text :=
  byteLength_stripFrom _ 0 [] text

/-- Stripping macros that are identifiers blanks out every word that is one of them, byte by byte,
    and keeps all else. So the order of the macros does not matter, a second time changes nothing,
    and one list after another is both at once. The number of bytes is kept for any macros. -/
theorem stripMacros_blanks (other : List String) (text : List Char)
    (hmacros : ∀ m ∈ macros, Identifier m.toList) (hother : ∀ m ∈ other, Identifier m.toList) :
    stripMacros macros text = (pieces text).flatMap (blankedPiece macros) ∧
      ((∀ m, m ∈ macros ↔ m ∈ other) → stripMacros macros text = stripMacros other text) ∧
      stripMacros macros (stripMacros macros text) = stripMacros macros text ∧
      stripMacros other (stripMacros macros text) = stripMacros (macros ++ other) text ∧
      ∀ anything, byteLength (stripMacros anything text) = byteLength text := by
  have hboth : ∀ m ∈ macros ++ other, Identifier m.toList :=
    List.forall_mem_append.mpr ⟨hmacros, hother⟩
  have hstrip := stripMacros_eq_blanked macros hmacros
  refine ⟨hstrip text, fun hsame => ?_, ?_, ?_, fun names => byteLength_stripMacros names text⟩
  · rw [hstrip, stripMacros_eq_blanked other hother]
    exact blanked_congr macros other hsame text
  · rw [hstrip, hstrip, blanked_blanked macros hmacros macros hmacros]
    refine blanked_congr _ _ (fun m => ?_) text
    rw [List.mem_append, or_self]
  · rw [hstrip, stripMacros_eq_blanked other hother, blanked_blanked macros hmacros other hother,
      stripMacros_eq_blanked _ hboth]

end Macros

section Exports

/-- Macros of which one begins another and one is listed twice, and one is not plain ASCII. -/
def exportMacros : List String := ["API", "API_EXPORT", "größe", "API"]

/-- A text with all of them, and with words that only begin like them. -/
def exportText : List Char := "API_EXPORT größe f(API); API_ größer;".toList

theorem stripMacros_blanks_exports :
    (∀ m ∈ exportMacros, Identifier m.toList) ∧
      (∀ m ∈ ["größer", "API"], Identifier m.toList) ∧
      stripMacros exportMacros exportText = "                   f(   ); API_ größer;".toList ∧
      stripMacros exportMacros (stripMacros exportMacros exportText) =
        stripMacros exportMacros exportText ∧
      stripMacros ["größer", "API"] (stripMacros exportMacros exportText) =
        stripMacros (exportMacros ++ ["größer", "API"]) exportText := by
  have hexport : ∀ m ∈ exportMacros, Identifier m.toList := by decide +kernel
  have hother : ∀ m ∈ ["größer", "API"], Identifier m.toList := by decide +kernel
  have hblanks := stripMacros_blanks exportMacros ["größer", "API"] exportText hexport hother
  refine ⟨hexport, hother, ?_, hblanks.2.2.1, hblanks.2.2.2.1⟩
  rw [hblanks.1]
  decide +kernel

-- A macro without characters stands between words and hides the macros behind it in the list.
example : stripMacros ["", "API"] "API f".toList = "API f".toList := by
  decide +kernel

end Exports

end HeaderBinding
