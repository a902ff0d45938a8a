import HeaderBinding.Json.Printer
import HeaderBinding.Json.Reader
import HeaderBinding.Proofs.Text.Digits

/-!
# Numbers Read Back as JSON

A number that was written reads as itself, whole or with an exponent.

Where a number ends is not marked, so it depends on what follows: behind a value there is a comma,
the end of a line or the end of the text (`Ends`), and none of them goes on with a number. A zero
behind a minus sign would read as another number than zero does, but zero is written without a sign.

## Main definitions

* `Reader.Ends`: What may follow a value that was written.
* `Reader.signOf`: The sign in front of a number.

## Theorems

* `Reader.span_digits`: The digits in front of what is no digit.
* `Reader.readUnsigned_whole`, `Reader.readUnsigned_power`: A number without its sign.
* `Reader.readNumber_int`, `Reader.readNumber_real`: A number that was written.
-/

namespace HeaderBinding

namespace Json

namespace Reader

open Text

/-- What may follow a value that was written: a comma, the end of a line, or nothing. -/
def Ends (rest : List Char) : Prop :=
  ∀ c ∈ rest.head?, c = ',' ∨ c = '\n'

theorem ends_comma (cs : List Char) : Ends (',' :: cs) :=
  fun _ h => Or.inl (Option.some.inj h).symm

theorem ends_newline (cs : List Char) : Ends ('\n' :: cs) :=
  fun _ h => Or.inr (Option.some.inj h).symm

/-- The sign in front of a number. -/
def signOf : Int → List Char
  | .ofNat _ => []
  | .negSucc _ => ['-']

/-- A whole number is written as its sign and its digits. -/
theorem toList_toString (value : Int) :
    (toString value).toList = signOf value ++ Nat.toDigits 10 value.natAbs := by
  cases value with
  | ofNat n => exact Nat.toList_repr
  | negSucc n =>
      rw [Int.toString_eq_repr, Int.repr, String.toList_append, Nat.toList_repr]
      rfl

section Digits

variable {rest : List Char} (hrest : ∀ c ∈ rest.head?, isDigit c = false)
include hrest

/-- The digits in front of what is no digit. -/
theorem span_digits (n : Nat) :
    (Nat.toDigits 10 n ++ rest).takeWhile isDigit = Nat.toDigits 10 n ∧
      (Nat.toDigits 10 n ++ rest).dropWhile isDigit = rest := by
  have hdigits : ∀ c ∈ Nat.toDigits 10 n, isDigit c = true := isDigit_of_mem_toDigits
  rw [List.takeWhile_append_of_pos hdigits, List.dropWhile_append_of_pos hdigits]
  cases rest with
  | nil => exact ⟨List.append_nil _, rfl⟩
  | cons c rest =>
      have hc : ¬ isDigit c = true := by
        rw [hrest c rfl]
        exact Bool.false_ne_true
      rw [List.takeWhile_cons_of_neg hc, List.dropWhile_cons_of_neg hc]
      exact ⟨List.append_nil _, rfl⟩

theorem readWhole_toDigits (n : Nat) :
    readWhole (Nat.toDigits 10 n ++ rest) = some (Nat.toDigits 10 n, rest) := by
  rcases Nat.eq_zero_or_pos n with rfl | hpos
  · rfl
  · -- The first digit is no zero, which would be the whole number.
    rw [readWhole]
    · rw [(span_digits hrest n).1, (span_digits hrest n).2]
      exact if_neg fun h => Nat.toDigits_ne_nil (List.isEmpty_iff.mp h)
    · intro cs hcs
      refine head?_toDigits hpos ?_
      have hhead := congrArg List.head? hcs
      rw [List.head?_append_of_ne_nil _ Nat.toDigits_ne_nil] at hhead
      exact hhead

theorem readExponentDigits_toDigits (negative : Bool) (n : Nat) :
    readExponentDigits negative (Nat.toDigits 10 n ++ rest) =
      some (some (if negative then -(n : Int) else n), rest) := by
  rw [readExponentDigits, (span_digits hrest n).1, (span_digits hrest n).2, valueOf_toDigits]
  exact if_neg fun h => Nat.toDigits_ne_nil (List.isEmpty_iff.mp h)

/-- An exponent behind its letter. -/
theorem readExponent_signOf (exponent : Int) :
    readExponent ('e' :: (signOf exponent ++ (Nat.toDigits 10 exponent.natAbs ++ rest))) =
      some (some exponent, rest) := by
  cases exponent with
  | negSucc n => exact readExponentDigits_toDigits hrest true (n + 1)
  | ofNat n =>
      -- Without a sign there is a digit behind the letter.
      have hdigits := readExponentDigits_toDigits hrest false n
      rcases List.exists_cons_of_ne_nil (Nat.toDigits_ne_nil (n := n) (b := 10)) with ⟨c, cs, hcs⟩
      have hc : isDigit c = true := isDigit_of_mem_toDigits c (hcs ▸ List.mem_cons_self)
      change readExponent ('e' :: (Nat.toDigits 10 n ++ rest)) = _
      rw [hcs, List.cons_append] at hdigits ⊢
      rw [readExponent]
      · exact hdigits
      · exact fun _ h => absurd ((List.cons.inj h).1 ▸ hc) (by decide)
      · exact fun _ h => absurd ((List.cons.inj h).1 ▸ hc) (by decide)

end Digits

/-- A number that starts with a digit has no sign. -/
theorem readNumber_digits (n : Nat) (cs : List Char) :
    readNumber (Nat.toDigits 10 n ++ cs) = readUnsigned false (Nat.toDigits 10 n ++ cs) := by
  rcases List.exists_cons_of_ne_nil (Nat.toDigits_ne_nil (n := n) (b := 10)) with ⟨c, ds, hds⟩
  have hc : isDigit c = true := isDigit_of_mem_toDigits c (hds ▸ List.mem_cons_self)
  rw [hds, List.cons_append, readNumber]
  intro _ h
  exact absurd ((List.cons.inj h).1 ▸ hc) (by decide)

section Numbers

variable {rest : List Char} (hrest : Ends rest)
include hrest

theorem isDigit_eq_false_of_ends : ∀ c ∈ rest.head?, isDigit c = false := by
  intro c hc
  rcases hrest c hc with rfl | rfl
  · rfl
  · rfl

/-- No fraction and no exponent follow a whole number. -/
theorem readFraction_readExponent_of_ends :
    readFraction rest = some (none, rest) ∧ readExponent rest = some (none, rest) := by
  cases rest with
  | nil => exact ⟨rfl, rfl⟩
  | cons c rest =>
      rcases hrest c rfl with rfl | rfl
      · exact ⟨rfl, rfl⟩
      · exact ⟨rfl, rfl⟩

/-- A whole number without its sign. A zero must not have had one. -/
theorem readUnsigned_whole (negative : Bool) (n : Nat) (hn : (negative && n == 0) = false) :
    readUnsigned negative (Nat.toDigits 10 n ++ rest) =
      some (.int (if negative then -(n : Int) else n), rest) := by
  have hwhole := readWhole_toDigits (isDigit_eq_false_of_ends hrest) n
  rcases readFraction_readExponent_of_ends hrest with ⟨hfraction, hexponent⟩
  simp only [readUnsigned, hwhole, hfraction, hexponent, Option.bind_eq_bind, Option.bind_some,
    Option.getD_none, List.append_nil, valueOf_toDigits, hn, Option.isNone_none, Bool.and_self,
    Bool.not_false, if_true]
  rfl

/-- A number with an exponent, without its sign. -/
theorem readUnsigned_power (negative : Bool) (n : Nat) (exponent : Int) :
    readUnsigned negative (Nat.toDigits 10 n ++
        'e' :: (signOf exponent ++ (Nat.toDigits 10 exponent.natAbs ++ rest))) =
      some (.real (if negative then -(n : Int) else n) exponent, rest) := by
  have hletter : ∀ cs : List Char, ∀ c ∈ ('e' :: cs).head?, isDigit c = false := by
    intro cs c hc
    obtain rfl := Option.some.inj hc
    rfl
  have hwhole := readWhole_toDigits (hletter
    (signOf exponent ++ (Nat.toDigits 10 exponent.natAbs ++ rest))) n
  have hexponent := readExponent_signOf (isDigit_eq_false_of_ends hrest) exponent
  have hfraction : ∀ cs, readFraction ('e' :: cs) = some (none, 'e' :: cs) := fun _ => rfl
  simp only [readUnsigned, hwhole, hfraction, hexponent, Option.bind_eq_bind, Option.bind_some,
    Option.getD_none, Option.getD_some, List.append_nil, valueOf_toDigits, Option.isNone_some,
    Bool.and_false, Bool.false_and, Bool.false_eq_true, if_false, List.length_nil]
  exact congrArg (fun e => some (Json.real _ e, rest)) (Int.sub_zero exponent)

/-- A whole number that was written. -/
theorem readNumber_int (value : Int) :
    readNumber ((toString value).toList ++ rest) = some (.int value, rest) := by
  rw [toList_toString]
  cases value with
  | ofNat n => exact (readNumber_digits n rest).trans (readUnsigned_whole hrest false n rfl)
  | negSucc n => exact readUnsigned_whole hrest true (n + 1) rfl

/-- A number with an exponent that was written. -/
theorem readNumber_real (digits exponent : Int) :
    readNumber ((toString digits ++ "e" ++ toString exponent).toList ++ rest) =
      some (.real digits exponent, rest) := by
  rw [String.toList_append, String.toList_append, toList_toString, toList_toString]
  simp only [List.append_assoc]
  cases digits with
  | ofNat n =>
      exact (readNumber_digits n _).trans (readUnsigned_power hrest false n exponent)
  | negSucc n => exact readUnsigned_power hrest true (n + 1) exponent

end Numbers

end Reader

end Json

end HeaderBinding
