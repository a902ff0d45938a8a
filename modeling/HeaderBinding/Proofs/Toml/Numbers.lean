import HeaderBinding.Proofs.Text.Digits
import HeaderBinding.Toml.Number

/-!
# Whole Numbers Read Back

A whole number without a sign that was written in the decimal system reads as itself.

A number starts like a date or a time would, so what has to be shown first is that it is neither: a
date goes on with a dash behind its digits and a time with a colon. What follows a number in a
document is neither of them.

## Main definitions

* `Reader.isEnd`: The characters that may follow a value.

## Theorems

* `Reader.readMoment_digits`: A number is no date and no time.
* `Reader.readNumber_toDigits`: A number that was written.
-/

namespace HeaderBinding

namespace Toml

namespace Reader

open Text

/-- The characters that may follow a value that was written. -/
def isEnd (c : Char) : Bool :=
  c == '\n' || c == ',' || c == ']'

theorem isEnd_cases {c : Char} (h : isEnd c = true) : c = '\n' ∨ c = ',' ∨ c = ']' := by
  rw [isEnd, Bool.or_eq_true, Bool.or_eq_true, beq_iff_eq, beq_iff_eq, beq_iff_eq, or_assoc] at h
  exact h

/-- What a test says of all characters that may follow a value. -/
theorem of_isEnd {p : Char → Prop} (hline : p '\n') (hcomma : p ',') (hbracket : p ']') {c : Char}
    (h : isEnd c = true) : p c := by
  rcases isEnd_cases h with rfl | rfl | rfl
  · exact hline
  · exact hcomma
  · exact hbracket

theorem isDigit_eq_false_of_isEnd {c : Char} (h : isEnd c = true) : Text.isDigit c = false :=
  of_isEnd (p := fun c => Text.isDigit c = false) (by decide) (by decide) (by decide) h

section Reading

variable {digits : List Char} {e : Char} {tail : List Char}
  (hdigits : ∀ c ∈ digits, Text.isDigit c = true) (he : isEnd e = true)
include hdigits he

/-- Behind the digits of a field there are more of them, or the number ends. -/
theorem readField_digits {count low high : Nat} {field cs : List Char}
    (hread : readField count low high (digits ++ e :: tail) = some (field, cs)) :
    ∃ c rest, cs = c :: rest ∧ (Text.isDigit c = true ∨ isEnd c = true) := by
  unfold readField at hread
  dsimp only at hread
  rw [Option.ite_none_right_eq_some, Option.some.injEq, Prod.mk.injEq] at hread
  rcases hread with ⟨⟨_, hall, _⟩, _, rfl⟩
  -- A field longer than the digits would have the character behind them in it.
  have hle : count ≤ digits.length := by
    by_contra hlt
    have hmem : e ∈ (digits ++ e :: tail).take count := by
      rw [List.mem_take_iff_getElem]
      refine ⟨digits.length, ?_, ?_⟩
      · rw [List.length_append, List.length_cons]
        omega
      · rw [List.getElem_append_right (Nat.le_refl _)]
        simp only [Nat.sub_self, List.getElem_cons_zero]
    have hdigit := List.all_eq_true.mp hall e hmem
    exact Bool.false_ne_true ((isDigit_eq_false_of_isEnd he).symm.trans hdigit)
  rw [List.drop_append_of_le_length hle]
  rcases hdrop : digits.drop count with _ | ⟨c, rest⟩
  · exact ⟨e, tail, rfl, Or.inr he⟩
  · refine ⟨c, _, List.cons_append .., Or.inl (hdigits c ?_)⟩
    exact List.mem_of_mem_drop (hdrop ▸ List.mem_cons_self)

/-- A number is no date and no time. -/
theorem readMoment_digits : readMoment (digits ++ e :: tail) = none := by
  -- Neither the dash of a date nor the colon of a time follows any digits.
  have hmark : ∀ {count low high : Nat} {field cs : List Char} (mark : Char),
      Text.isDigit mark = false → isEnd mark = false →
      readField count low high (digits ++ e :: tail) = some (field, cs) →
      ∀ rest, cs ≠ mark :: rest := by
    rintro count low high field cs mark hdigit hend hread rest rfl
    rcases readField_digits hdigits he hread with ⟨c, _, heq, hc⟩
    obtain rfl := (List.cons.inj heq).1
    rw [hdigit, hend] at hc
    exact hc.elim Bool.false_ne_true Bool.false_ne_true
  have hdate : readDate (digits ++ e :: tail) = none := by
    rw [readDate, Option.bind_eq_bind, Option.bind_eq_none_iff]
    rintro ⟨year, cs⟩ hread
    dsimp only
    split
    · next rest => exact absurd rfl (hmark '-' (by decide) (by decide) hread rest)
    · rfl
  have htime : readTime (digits ++ e :: tail) = none := by
    rw [readTime, Option.bind_eq_bind, Option.bind_eq_none_iff]
    rintro ⟨hour, cs⟩ hread
    dsimp only
    split
    · next rest => exact absurd rfl (hmark ':' (by decide) (by decide) hread rest)
    · rfl
  rw [readMoment, readDateTime, hdate, htime]
  rfl

theorem takeDigits_append :
    takeDigits Text.isDigit (digits ++ e :: tail) = (digits, e :: tail) := by
  have hunderscore : ∀ c, Text.isDigit c = true ∨ isEnd c = true → c ≠ '_' := by
    rintro _ hc rfl
    exact hc.elim (fun h => absurd h (by decide)) (fun h => absurd h (by decide))
  induction digits with
  | nil =>
      rw [List.nil_append, takeDigits]
      · rw [isDigit_eq_false_of_isEnd he, if_neg Bool.false_ne_true]
      · exact fun _ _ h => absurd h (hunderscore e (Or.inr he))
  | cons c digits ih =>
      rw [List.forall_mem_cons] at hdigits
      rw [List.cons_append, takeDigits]
      · rw [hdigits.1, if_pos rfl, ih hdigits.2]
      · exact fun _ _ h => absurd h (hunderscore c (Or.inl hdigits.1))

theorem readWhole_digits (hne : digits ≠ [])
    (hzero : digits.head? = some '0' → digits = ['0']) :
    readWhole (digits ++ e :: tail) = some (digits, e :: tail) := by
  rcases List.exists_cons_of_ne_nil hne with ⟨c, rest, rfl⟩
  by_cases hc : c = '0'
  · -- A zero in front is all that is read, so it has to be the whole number.
    rw [hc] at hzero ⊢
    obtain rfl := (List.cons.inj (hzero rfl)).2
    rfl
  · rw [List.cons_append, readWhole, readDigits, if_pos (hdigits c List.mem_cons_self),
      ← List.cons_append, takeDigits_append hdigits he]
    exact fun _ h => hc (List.cons.inj h).1

/-- A number that ends where its digits do is whole. -/
theorem readDecimal_digits {n : Nat} (hvalue : valueOf 10 digits = n) (hn : n < signBit)
    (hne : digits ≠ []) (hzero : digits.head? = some '0' → digits = ['0']) :
    readDecimal false (digits ++ e :: tail) = some (.int n, e :: tail) := by
  have hfraction : readFraction (e :: tail) = some (none, e :: tail) := by
    rw [readFraction]
    rintro _ h
    rw [(List.cons.inj h).1] at he
    exact absurd he (by decide)
  have hexponent : readExponent (e :: tail) = some (none, e :: tail) := by
    rw [readExponent, readExponentBy, if_neg]
    rw [Bool.or_eq_true, beq_iff_eq, beq_iff_eq]
    rintro (rfl | rfl)
    · exact absurd he (by decide)
    · exact absurd he (by decide)
  have hint : int64? (n : Int) = some (.int n) := by
    rw [int64?, if_pos]
    exact Or.inr ⟨Int.natCast_nonneg n, hn⟩
  simp only [readDecimal, readWhole_digits hdigits he hne hzero, hfraction, hexponent,
    Option.bind_eq_bind, Option.bind_some, Option.getD_none, List.append_nil, hvalue, hint,
    Option.isNone_none, Bool.and_self, Bool.false_eq_true, if_true, if_false]
  rfl

/-- A number is written with its digits and nothing else, so there is no sign, and no mark of
    another base. -/
theorem readNumber_eq_readDecimal (hne : digits ≠ []) :
    readNumber (digits ++ e :: tail) = readDecimal false (digits ++ e :: tail) := by
  rcases List.exists_cons_of_ne_nil hne with ⟨c, rest, rfl⟩
  rw [List.forall_mem_cons] at hdigits
  have hfirst : ∀ mark, Text.isDigit mark = false → c ≠ mark := by
    rintro _ hmark rfl
    exact Bool.false_ne_true (hmark.symm.trans hdigits.1)
  have hsecond : ∀ {first mark cs}, (first :: (rest ++ e :: tail)) = '0' :: mark :: cs →
      Text.isDigit mark = false → isEnd mark = false → False := by
    intro first mark cs hcs hdigit hend
    have heq := (List.cons.inj hcs).2
    rcases rest with _ | ⟨d, rest⟩
    · rw [(List.cons.inj heq).1, hend] at he
      exact Bool.false_ne_true he
    · refine Bool.false_ne_true (hdigit.symm.trans ?_)
      rw [← (List.cons.inj heq).1]
      exact hdigits.2 d List.mem_cons_self
  have hsign : takeSign (c :: rest ++ e :: tail) = (none, c :: rest ++ e :: tail) := by
    rw [takeSign]
    · exact fun _ h => hfirst '+' (by decide) (List.cons.inj h).1
    · exact fun _ h => hfirst '-' (by decide) (List.cons.inj h).1
  unfold readNumber
  rw [hsign]
  split
  · next h => exact (hsecond (Prod.mk.inj h).2 (by decide) (by decide)).elim
  · next h => exact (hsecond (Prod.mk.inj h).2 (by decide) (by decide)).elim
  · next h => exact (hsecond (Prod.mk.inj h).2 (by decide) (by decide)).elim
  · next h => exact absurd (List.cons.inj (Prod.mk.inj h).2).1 (hfirst 'i' (by decide))
  · next h => exact absurd (List.cons.inj (Prod.mk.inj h).2).1 (hfirst 'n' (by decide))
  · next h =>
      rw [← (Prod.mk.inj h).1, ← (Prod.mk.inj h).2]
      rfl

end Reading

/-- A whole number that was written reads as itself. -/
theorem readNumber_toDigits {n : Nat} (hn : n < signBit) {e : Char} (he : isEnd e = true)
    (tail : List Char) :
    readNumber (Nat.toDigits 10 n ++ e :: tail) = some (.int n, e :: tail) := by
  have hdigits : ∀ c ∈ Nat.toDigits 10 n, Text.isDigit c = true := isDigit_of_mem_toDigits
  rw [readNumber_eq_readDecimal hdigits he Nat.toDigits_ne_nil]
  refine readDecimal_digits hdigits he (valueOf_toDigits n) hn Nat.toDigits_ne_nil fun hzero => ?_
  rcases Nat.eq_zero_or_pos n with rfl | hpos
  · rfl
  · exact absurd hzero (head?_toDigits hpos)

end Reader

end Toml

end HeaderBinding
