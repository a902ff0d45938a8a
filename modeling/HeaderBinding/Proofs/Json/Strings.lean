import HeaderBinding.Json.Printer
import HeaderBinding.Json.Reader
import Mathlib.Data.List.Basic

/-!
# Strings Read Back as JSON

A text that was written between quotation marks reads as itself.

A string is read in two rounds. The first cuts it into pieces, which are characters or the sixteen
bits of a numeric escape; the second joins the pieces, because two of them may make one character
together. Each character is written as one piece. The numeric escapes among them stand for control
characters, which are no halves of anything, so what was cut apart for a character is joined to that
character again, whatever comes after it.

## Theorems

* `Reader.readPieces_escape`: One character in front of any text.
* `Reader.readPieces_flatMap_escape`: A text up to its closing quotation mark.
* `Reader.readString_quote`: A text that was written as a string.
-/

namespace HeaderBinding

namespace Json

namespace Reader

/-- The number of a control character is no half of a pair, so it joins to that character and does
    not look at the piece behind it. -/
theorem joinPieces_unit {n : Nat} (hn : n < 0x20) (pieces : List Piece) :
    joinPieces (.unit n :: pieces) = (joinPieces pieces).map (Char.ofNat n :: ·) := by
  have hhalf : isHighHalf n = false ∧ isLowHalf n = false := by
    simp only [isHighHalf, isLowHalf, Bool.and_eq_false_iff, decide_eq_false_iff_not]
    omega
  rcases pieces with _ | ⟨_ | m, pieces⟩
  · simp only [joinPieces, hhalf, Bool.or_self, Bool.false_eq_true, if_false]
  · simp only [joinPieces, hhalf, Bool.or_self, Bool.false_eq_true, if_false]
  · rw [joinPieces, hhalf.1, hhalf.2]
    rfl

/-- The four digits of a control character write its number. -/
theorem hex4?_hexDigit {n : Nat} (hn : n < 0x20) :
    hex4? '0' '0' (Text.hexDigit (n / 16)) (Text.hexDigit (n % 16)) = some n := by
  have hall : ∀ n < 0x20,
      hex4? '0' '0' (Text.hexDigit (n / 16)) (Text.hexDigit (n % 16)) = some n := by decide
  exact hall n hn

/-- A character that needs no escape stands for itself. -/
theorem readPieces_cons {c : Char} (hquote : c ≠ '"') (hslash : c ≠ '\\') (hc : ¬ c.toNat < 0x20)
    (cs : List Char) :
    readPieces (c :: cs) = (readPieces cs).map fun read => (.char c :: read.1, read.2) := by
  rw [readPieces]
  · rw [decide_eq_false hc, beq_false_of_ne hslash]
    cases readPieces cs <;> rfl
  · exact hquote
  · exact fun _ _ _ _ _ h _ => hslash h
  · exact fun _ _ h _ => hslash h

/-- What a character is written as is cut off as one piece, which joins to the character. -/
theorem readPieces_escape (c : Char) (cs : List Char) :
    ∃ piece, (∀ pieces, joinPieces (piece :: pieces) = (joinPieces pieces).map (c :: ·)) ∧
      readPieces (escape c ++ cs) =
        (readPieces cs).map fun read => (piece :: read.1, read.2) := by
  -- The seven escapes of one letter are all read in this way.
  have hshort : ∀ e, shortEscape? e = some c → e ≠ 'u' → ∃ piece,
      (∀ pieces, joinPieces (piece :: pieces) = (joinPieces pieces).map (c :: ·)) ∧
      readPieces (['\\', e] ++ cs) =
        (readPieces cs).map fun read => (piece :: read.1, read.2) := by
    intro e he hu
    refine ⟨.char c, fun _ => rfl, ?_⟩
    rw [List.cons_append, List.singleton_append, readPieces, he]
    · cases readPieces cs <;> rfl
    · exact fun _ _ _ _ _ h _ => hu h
  unfold escape
  split
  · exact hshort '"' rfl (by decide)
  · exact hshort '\\' rfl (by decide)
  · exact hshort 'n' rfl (by decide)
  · exact hshort 'r' rfl (by decide)
  · exact hshort 't' rfl (by decide)
  · exact hshort 'b' rfl (by decide)
  · exact hshort 'f' rfl (by decide)
  · next hquote hslash _ _ _ _ _ =>
      split
      · next hc =>
          refine ⟨.unit c.toNat, fun pieces => ?_, ?_⟩
          · rw [joinPieces_unit hc, Char.ofNat_toNat]
          · simp only [List.cons_append, List.nil_append, readPieces, hex4?_hexDigit hc]
            cases readPieces cs <;> rfl
      · next hc => exact ⟨.char c, fun _ => rfl, readPieces_cons hquote hslash hc cs⟩

/-- A text is cut into pieces up to its closing quotation mark, and the pieces join to the text. -/
theorem readPieces_flatMap_escape (text rest : List Char) :
    ∃ pieces, readPieces (text.flatMap escape ++ '"' :: rest) = some (pieces, rest) ∧
      joinPieces pieces = some text := by
  -- Induction on the text; each character is read in front of what is left of it.
  induction text with
  | nil => exact ⟨[], rfl, rfl⟩
  | cons c text ih =>
      rcases ih with ⟨pieces, hread, hjoin⟩
      rcases readPieces_escape c (text.flatMap escape ++ '"' :: rest) with ⟨piece, hpiece, hfirst⟩
      refine ⟨piece :: pieces, ?_, ?_⟩
      · rw [List.flatMap_cons, List.append_assoc, hfirst, hread, Option.map_some]
      · rw [hpiece, hjoin, Option.map_some]

/-- A text that was written as a string reads as itself, and what follows is left as it was. -/
theorem readString_quote (text : String) (rest : List Char) :
    readString (text.toList.flatMap escape ++ '"' :: rest) = some (some text, rest) := by
  rcases readPieces_flatMap_escape text.toList rest with ⟨pieces, hread, hjoin⟩
  rw [readString, hread, Option.bind_eq_bind, Option.bind_some]
  dsimp only
  rw [hjoin, Option.map_some, String.ofList_toList]
  rfl

theorem toList_quote (text : String) :
    (quote text).toList = '"' :: (text.toList.flatMap escape ++ ['"']) := by
  rw [quote, String.toList_ofList, List.cons_append]

end Reader

end Json

end HeaderBinding
