import HeaderBinding.Text.Blank
import Mathlib.Data.List.Chain

/-!
# Texts Split at Separators

The pieces of a text between the characters that separate them.

There is always a first piece, and no piece has a separator in it. A text that is joined of two with
a separator between them has the pieces of both, so a piece does not depend on what stands on the
other side of a separator.

Where all separators are one character, splitting and joining undo each other
(`Text.joinWith_splitWhere`, `Text.splitWhere_joinWith`). A piece is empty where a separator stands
next to another or at an end of the text. If the text is put between two separators, that is one
case: no piece is empty exactly if no two separators are neighbours in what results
(`Text.isChain_apart_iff`).

## Main definitions

* `Text.Apart`: Of two neighbours, not both separate.

## Theorems

* `Text.splitWhere_ne_nil`: There is a piece.
* `Text.eq_false_of_mem_splitWhere`: A piece has no separator in it.
* `Text.splitWhere_append`: The pieces on both sides of a separator.
* `Text.exists_last_splitWhere`: The last piece of a text that does not end in a separator.
* `Text.flatten_splitWhere`: The pieces hold what is no separator.
* `Text.joinWith_splitWhere`: Joining the pieces of a text.
* `Text.splitWhere_joinWith`: The pieces of a joined text.
* `Text.isChain_apart_iff`: When no piece is empty.
-/

namespace HeaderBinding

namespace Text

/-- There is a piece, even of an empty text. -/
theorem splitWhere_ne_nil (p : Char → Bool) (text : List Char) : splitWhere p text ≠ [] := by
  cases text with
  | nil => exact List.cons_ne_nil _ _
  | cons c rest =>
      unfold splitWhere
      split
      · exact List.cons_ne_nil _ _
      · split
        · exact List.cons_ne_nil _ _
        · exact List.cons_ne_nil _ _

/-- A separator in front puts an empty piece there. -/
theorem splitWhere_cons_of_pos {p : Char → Bool} {c : Char} (hc : p c = true) (cs : List Char) :
    splitWhere p (c :: cs) = [] :: splitWhere p cs := by
  rw [splitWhere, if_pos hc]

/-- Any other character in front belongs to the first piece. -/
theorem splitWhere_cons_of_neg {p : Char → Bool} {c : Char} (hc : p c = false) {cs : List Char}
    {piece : List Char} {pieces : List (List Char)} (h : splitWhere p cs = piece :: pieces) :
    splitWhere p (c :: cs) = (c :: piece) :: pieces := by
  rw [splitWhere, hc, if_neg Bool.false_ne_true, h]

/-- A piece has no separator in it. -/
theorem eq_false_of_mem_splitWhere (p : Char → Bool) (cs : List Char) :
    ∀ piece ∈ Text.splitWhere p cs, ∀ c ∈ piece, p c = false := by
  fun_induction Text.splitWhere p cs with
  | case1 =>
      intro piece hpiece c hc
      rw [List.mem_singleton.mp hpiece] at hc
      exact absurd hc List.not_mem_nil
  -- A separator: the pieces of the rest, and an empty one.
  | case2 d cs hd ih =>
      rw [List.forall_mem_cons]
      exact ⟨fun c hc => absurd hc List.not_mem_nil, ih⟩
  | case3 d cs hd hsplit ih =>
      intro piece hpiece c hc
      rw [List.mem_singleton.mp hpiece, List.mem_singleton] at hc
      rw [hc]
      exact Bool.eq_false_iff.mpr hd
  -- No separator: the first piece gets longer.
  | case4 d cs hd first rest hsplit ih =>
      rw [hsplit, List.forall_mem_cons] at ih
      rw [List.forall_mem_cons, List.forall_mem_cons]
      exact ⟨⟨Bool.eq_false_iff.mpr hd, ih.1⟩, ih.2⟩

/-- The pieces on both sides of a separator. -/
theorem splitWhere_append {p : Char → Bool} {separator : Char} (h : p separator = true)
    (front rest : List Char) :
    splitWhere p (front ++ separator :: rest) = splitWhere p front ++ splitWhere p rest := by
  induction front with
  | nil => exact splitWhere_cons_of_pos h rest
  | cons c front ih =>
      rw [List.cons_append]
      cases hc : p c with
      | true => rw [splitWhere_cons_of_pos hc, splitWhere_cons_of_pos hc, ih, List.cons_append]
      | false =>
          -- The character goes into the first piece, which is in front of the separator.
          rcases List.exists_cons_of_ne_nil (splitWhere_ne_nil p front) with
            ⟨piece, pieces, hpieces⟩
          rw [hpieces, List.cons_append] at ih
          rw [splitWhere_cons_of_neg hc ih, splitWhere_cons_of_neg hc hpieces, List.cons_append]

/-- A text that does not end in a separator has something in its last piece. -/
theorem exists_last_splitWhere {p : Char → Bool} {cs : List Char} (hne : cs ≠ [])
    (hlast : ∀ c, cs.getLast? = some c → p c = false) :
    ∃ front piece, splitWhere p cs = front ++ [piece] ∧ piece ≠ [] := by
  induction cs with
  | nil => exact absurd rfl hne
  | cons c cs ih =>
      -- The last character is of the last piece, so the induction starts with one character.
      rcases cs with _ | ⟨d, cs⟩
      · exact ⟨[], [c], splitWhere_cons_of_neg (hlast c rfl) rfl, List.cons_ne_nil c []⟩
      · rcases ih (List.cons_ne_nil d cs) (by rwa [List.getLast?_cons_cons] at hlast) with
          ⟨front, piece, hsplit, hpiece⟩
        cases hc : p c with
        | true =>
            refine ⟨[] :: front, piece, ?_, hpiece⟩
            rw [splitWhere_cons_of_pos hc, hsplit, List.cons_append]
        | false =>
            -- The first piece is the last one only if it is the only one.
            cases front with
            | nil =>
                exact ⟨[], c :: piece, splitWhere_cons_of_neg hc hsplit, List.cons_ne_nil c piece⟩
            | cons first front =>
                exact ⟨(c :: first) :: front, piece, splitWhere_cons_of_neg hc hsplit, hpiece⟩

/-- The pieces hold what is no separator, in order. -/
theorem flatten_splitWhere (p : Char → Bool) (cs : List Char) :
    (splitWhere p cs).flatten = cs.filter (!p ·) := by
  induction cs with
  | nil => rfl
  | cons c cs ih =>
      rcases List.exists_cons_of_ne_nil (splitWhere_ne_nil p cs) with ⟨first, rest, hsplit⟩
      cases hc : p c with
      | true =>
          rw [splitWhere_cons_of_pos hc, List.flatten_cons, List.nil_append, ih,
            List.filter_cons_of_neg (by rw [hc]; exact Bool.false_ne_true)]
      | false =>
          rw [splitWhere_cons_of_neg hc hsplit, List.flatten_cons, List.cons_append,
            ← List.flatten_cons, ← hsplit, ih, List.filter_cons_of_pos (by rw [hc]; rfl)]

/-- Behind a piece comes the separator, if there is another piece. -/
theorem joinWith_cons (separator piece : List Char) {pieces : List (List Char)}
    (h : pieces ≠ []) :
    joinWith separator (piece :: pieces) = piece ++ separator ++ joinWith separator pieces := by
  rw [joinWith]
  exact h

/-- What stands in a joined text stands in a piece or between two. -/
theorem mem_joinWith {separator : List Char} {pieces : List (List Char)} {c : Char}
    (h : c ∈ joinWith separator pieces) : c ∈ separator ∨ ∃ piece ∈ pieces, c ∈ piece := by
  induction pieces with
  | nil => exact absurd h List.not_mem_nil
  | cons piece rest ih =>
      rcases eq_or_ne rest [] with rfl | hrest
      · exact Or.inr ⟨piece, List.mem_singleton_self piece, h⟩
      · rw [joinWith_cons separator piece hrest, List.mem_append, List.mem_append] at h
        rcases h with (h | h) | h
        · exact Or.inr ⟨piece, List.mem_cons_self, h⟩
        · exact Or.inl h
        · rcases ih h with h | ⟨later, hlater, h⟩
          · exact Or.inl h
          · exact Or.inr ⟨later, List.mem_cons_of_mem piece hlater, h⟩

/-- A test that no separator passes picks the same characters out of a joined text as out of its
    pieces. -/
theorem filter_joinWith {p : Char → Bool} {separator : Char} (h : p separator = false)
    (pieces : List (List Char)) :
    (joinWith [separator] pieces).filter p = pieces.flatten.filter p := by
  induction pieces with
  | nil => rfl
  | cons piece rest ih =>
      rcases eq_or_ne rest [] with rfl | hrest
      · rw [joinWith, List.flatten_singleton]
      · have hnone : [separator].filter p = [] := by
          rw [List.filter_cons_of_neg (by rw [h]; exact Bool.false_ne_true), List.filter_nil]
        rw [joinWith_cons _ _ hrest, List.filter_append, List.filter_append, hnone, ih,
          List.append_nil, List.flatten_cons, List.filter_append]

/-- Joined with the only separator a text has, its pieces are the text again. -/
theorem joinWith_splitWhere {p : Char → Bool} {separator : Char} (cs : List Char)
    (h : ∀ c ∈ cs, p c = true → c = separator) :
    joinWith [separator] (splitWhere p cs) = cs := by
  induction cs with
  | nil => rfl
  | cons c cs ih =>
      rw [List.forall_mem_cons] at h
      have hjoin := ih h.2
      cases hc : p c with
      | true =>
          rw [splitWhere_cons_of_pos hc, joinWith_cons _ _ (splitWhere_ne_nil p cs), hjoin,
            h.1 hc, List.nil_append, List.singleton_append]
      | false =>
          rcases List.exists_cons_of_ne_nil (splitWhere_ne_nil p cs) with ⟨first, rest, hsplit⟩
          rw [hsplit] at hjoin
          rw [splitWhere_cons_of_neg hc hsplit]
          -- Without another piece nothing is joined.
          rcases eq_or_ne rest [] with rfl | hrest
          · exact congrArg (c :: ·) hjoin
          · rw [joinWith_cons _ _ hrest] at hjoin
            rw [joinWith_cons _ _ hrest, List.cons_append, List.cons_append, hjoin]

/-- A text without a separator is its own only piece. -/
theorem splitWhere_eq_singleton {p : Char → Bool} {cs : List Char} (h : ∀ c ∈ cs, p c = false) :
    splitWhere p cs = [cs] := by
  induction cs with
  | nil => rfl
  | cons c cs ih =>
      rw [List.forall_mem_cons] at h
      exact splitWhere_cons_of_neg h.1 (ih h.2)

/-- Pieces that are joined with a separator, and have none themselves, are the pieces of the
    whole. -/
theorem splitWhere_joinWith {p : Char → Bool} {separator : Char} (hseparator : p separator = true)
    {pieces : List (List Char)} (hne : pieces ≠ [])
    (h : ∀ piece ∈ pieces, ∀ c ∈ piece, p c = false) :
    splitWhere p (joinWith [separator] pieces) = pieces := by
  induction pieces with
  | nil => exact absurd rfl hne
  | cons piece rest ih =>
      rw [List.forall_mem_cons] at h
      rcases eq_or_ne rest [] with rfl | hrest
      · exact splitWhere_eq_singleton h.1
      · rw [joinWith_cons _ _ hrest, List.append_assoc, List.singleton_append,
          splitWhere_append hseparator, splitWhere_eq_singleton h.1, ih hrest h.2,
          List.singleton_append]

section Apart

variable (p : Char → Bool)

/-- Of two neighbours, not both separate. -/
def Apart (a b : Char) : Prop :=
  p a = true → p b = false

variable {p} {separator : Char}

/-- With a character in front and a separator behind, the separators of a text are apart exactly if
    the later pieces are not empty, and the first one is not either where a separator is in front of
    it. -/
theorem isChain_apart_cons_iff (hseparator : p separator = true) (previous : Char)
    {cs first : List Char} {rest : List (List Char)} (hsplit : splitWhere p cs = first :: rest) :
    (previous :: (cs ++ [separator])).IsChain (Apart p) ↔
      (p previous = true → first ≠ []) ∧ ∀ piece ∈ rest, piece ≠ [] := by
  induction cs generalizing previous first rest with
  | nil =>
      obtain ⟨rfl, rfl⟩ := List.cons.inj hsplit
      rw [List.nil_append, List.isChain_cons_cons, Apart, hseparator]
      simp
  | cons c cs ih =>
      rcases List.exists_cons_of_ne_nil (splitWhere_ne_nil p cs) with ⟨next, later, hnext⟩
      rw [List.cons_append, List.isChain_cons_cons, ih c hnext, Apart]
      cases hc : p c with
      -- The character separates, so the piece in front of it is empty.
      | true =>
          rw [splitWhere_cons_of_pos hc, hnext] at hsplit
          obtain ⟨rfl, rfl⟩ := List.cons.inj hsplit
          simp
      -- The character is in the first piece, which is not empty then.
      | false =>
          rw [splitWhere_cons_of_neg hc hnext] at hsplit
          obtain ⟨rfl, rfl⟩ := List.cons.inj hsplit
          simp

/-- Between two separators, the separators of a text are apart exactly if no piece is empty. -/
theorem isChain_apart_iff (hseparator : p separator = true) (cs : List Char) :
    (separator :: (cs ++ [separator])).IsChain (Apart p) ↔
      ∀ piece ∈ splitWhere p cs, piece ≠ [] := by
  rcases List.exists_cons_of_ne_nil (splitWhere_ne_nil p cs) with ⟨first, rest, hsplit⟩
  rw [isChain_apart_cons_iff hseparator separator hsplit, hsplit, List.forall_mem_cons]
  exact and_congr_left' ⟨fun h => h hseparator, fun h _ => h⟩

end Apart

end Text

end HeaderBinding
