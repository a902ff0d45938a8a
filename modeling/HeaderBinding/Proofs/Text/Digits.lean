import HeaderBinding.Text.Digit
import Mathlib.Data.List.Basic

/-!
# Numbers by Their Digits

The decimal digits that the library gives a number are digits for the readers as well, they write
the number they came from, and a number other than zero does not start with a zero. Both formats
that numbers are written in rest on this.

## Theorems

* `Text.forall_isDigit`: What holds of the ten digits holds of every digit.
* `Text.valueOf_toDigits`: The digits of a number write it.
* `Text.head?_toDigits`: How a number does not start.
-/

namespace HeaderBinding

namespace Text

/-- What holds of the digits one by one holds of every digit. -/
theorem forall_isDigit {p : Char → Prop}
    (h : ∀ n < 58, (Char.ofNat n).isDigit = true → p (Char.ofNat n)) {c : Char}
    (hc : c.isDigit = true) : p c := by
  have hlt : c.toNat < 58 := by
    rw [Char.isDigit, Bool.and_eq_true, decide_eq_true_iff, decide_eq_true_iff,
      UInt32.le_iff_toNat_le] at hc
    exact Nat.lt_succ_of_le hc.2
  rw [← Char.ofNat_toNat c]
  exact h c.toNat hlt (by rwa [Char.ofNat_toNat])

theorem digitValue?_of_isDigit {c : Char} (h : c.isDigit = true) :
    digitValue? c = some (c.toNat - 48) ∧ c.toNat - 48 < 10 :=
  forall_isDigit (p := fun c => digitValue? c = some (c.toNat - 48) ∧ c.toNat - 48 < 10)
    (by decide) h

theorem isDigit_of_isDigit {c : Char} (h : c.isDigit = true) : isDigit c = true := by
  rw [isDigit, isDigitOf, (digitValue?_of_isDigit h).1]
  exact decide_eq_true (digitValue?_of_isDigit h).2

theorem isDigit_of_mem_toDigits {n : Nat} : ∀ c ∈ Nat.toDigits 10 n, isDigit c = true :=
  fun _ hc => isDigit_of_isDigit (Nat.isDigit_of_mem_toDigits (by decide) (by decide) hc)

/-- The digits of a number write it. -/
theorem valueOf_toDigits (n : Nat) : valueOf 10 (Nat.toDigits 10 n) = n := by
  -- One digit after the other, both ways of reading go from the same number to the same number.
  have hfold : ∀ (cs : List Char) (start : Nat), (∀ c ∈ cs, c.isDigit = true) →
      cs.foldl (fun n c => n * 10 + (digitValue? c).getD 0) start =
        Nat.ofDigitChars 10 cs start := by
    intro cs
    induction cs with
    | nil => exact fun _ _ => rfl
    | cons c cs ih =>
        intro start h
        rw [List.forall_mem_cons] at h
        rw [List.foldl_cons, (digitValue?_of_isDigit h.1).1, Option.getD_some, ih _ h.2,
          Nat.mul_comm]
        rfl
  rw [valueOf, hfold _ _ fun _ hc => Nat.isDigit_of_mem_toDigits (by decide) (by decide) hc]
  exact Nat.ofDigitChars_ten_toDigits

/-- A number other than zero does not start with one. -/
theorem head?_toDigits {n : Nat} (hn : 0 < n) : (Nat.toDigits 10 n).head? ≠ some '0' := by
  induction n using Nat.strongRecOn with
  | _ n ih =>
      -- Either there is one digit, or the first one is that of the number without its last.
      by_cases hsmall : n < 10
      · have hfirst : ∀ n < 10, 0 < n → n.digitChar ≠ '0' := by decide
        rw [Nat.toDigits_of_lt_base hsmall]
        exact fun h => hfirst n hsmall hn (Option.some.inj h)
      · have hfront := ih (n / 10) (by omega) (by omega)
        rw [Nat.toDigits_of_base_le (by decide) (by omega)]
        rcases List.exists_cons_of_ne_nil (Nat.toDigits_ne_nil (n := n / 10) (b := 10)) with
          ⟨c, cs, hcs⟩
        rw [hcs] at hfront ⊢
        exact hfront

end Text

end HeaderBinding
