import Mathlib.Algebra.Group.Nat.Defs
import Mathlib.Data.List.Basic
import Mathlib.Tactic.SplitIfs

/-!
# The Order of Bytes

Texts that ascend by code point ascend by the bytes of their UTF-8 form as well.

UTF-8 puts a character into one leading byte and up to three trailing ones. The trailing bytes hold
six bits each, the highest first, so they are the last digits of the code point to base 64. The
leading byte holds what stands in front of them, and a mark that is the greater the more bytes
follow. So of two characters the lesser one has the lesser leading byte, or the leading bytes are
equal and the remaining digits decide (`leadingByte_spec`). In neither case does it matter what
follows, and the order of two texts is settled at the first character in which they differ.

## Main definitions

* `Text.bytes`: The bytes of a text.
* `Text.leadingByte`, `Text.trailingBytes`: The bytes of one character.

## Theorems

* `Text.utf8EncodeChar_eq`: A character is its leading byte and its trailing bytes.
* `Text.trailingBytes_lt`: The trailing bytes are digits.
* `Text.utf8EncodeChar_lt`: The lesser character has the lesser bytes, whatever follows.
* `Text.bytes_lt_bytes`: The lesser text has the lesser bytes.
-/

namespace HeaderBinding

namespace Text

/-- The bytes of the UTF-8 form. -/
def bytes (text : String) : List UInt8 :=
  text.toUTF8.data.toList

/-- The last bytes of a code point, of which there are `count`: six bits each, the highest first. -/
def trailingBytes : Nat → Nat → List UInt8
  | 0, _ => []
  | count + 1, v => UInt8.ofNat (v / 64 ^ count % 64 + 128) :: trailingBytes count v

/-- The number of trailing bytes of a code point. -/
def trailingCount (v : Nat) : Nat :=
  if v ≤ 127 then 0 else if v ≤ 2047 then 1 else if v ≤ 65535 then 2 else 3

/-- The leading byte of a code point: what is left in front of the trailing bytes, behind a mark
    that tells how many of them there are. -/
def leadingByte (v : Nat) : Nat :=
  if v ≤ 127 then v
  else if v ≤ 2047 then v / 64 + 192
  else if v ≤ 65535 then v / 4096 + 224
  else v / 262144 + 240

/-- A character is a code point. -/
theorem toNat_val_lt (c : Char) : c.val.toNat < 1114112 := by
  rcases c.valid with h | h <;> omega

/-- A character is its leading byte and its trailing bytes. -/
theorem utf8EncodeChar_eq (c : Char) :
    String.utf8EncodeChar c =
      UInt8.ofNat (leadingByte c.val.toNat) ::
        trailingBytes (trailingCount c.val.toNat) c.val.toNat := by
  have hlt := toNat_val_lt c
  unfold String.utf8EncodeChar leadingByte trailingCount
  generalize c.val.toNat = v at hlt ⊢
  -- One, two, three or four bytes. The leading byte is not cut off in any of the cases.
  by_cases h1 : v ≤ 127
  · simp only [if_pos h1, trailingBytes]
  · by_cases h2 : v ≤ 2047
    · simp only [if_neg h1, if_pos h2, trailingBytes, Nat.pow_zero, Nat.div_one]
      rw [Nat.mod_eq_of_lt (show v / 64 < 32 by omega)]
    · by_cases h3 : v ≤ 65535
      · simp only [if_neg h1, if_neg h2, if_pos h3, trailingBytes, Nat.pow_zero, Nat.div_one,
          Nat.pow_one]
        rw [Nat.mod_eq_of_lt (show v / 4096 < 16 by omega)]
      · simp only [if_neg h1, if_neg h2, if_neg h3, trailingBytes, Nat.pow_zero, Nat.div_one,
          Nat.pow_one, Nat.reducePow]
        rw [Nat.mod_eq_of_lt (show v / 262144 < 8 by omega)]

/-- Two code points in order either have their leading bytes in order, or they have the same leading
    byte and as many trailing ones, which hold the difference. -/
theorem leadingByte_spec (v w : Nat) (h : v < w) :
    leadingByte v < leadingByte w ∨
      leadingByte v = leadingByte w ∧ trailingCount v = trailingCount w ∧
        v % 64 ^ trailingCount v < w % 64 ^ trailingCount v := by
  unfold leadingByte trailingCount
  split_ifs <;> omega

/-- A leading byte is a byte. -/
theorem leadingByte_lt (v : Nat) (h : v < 1114112) : leadingByte v < 256 := by
  unfold leadingByte
  split_ifs <;> omega

/-- Bytes are in the order of the numbers that they hold. -/
theorem ofNat_lt_ofNat (x y : Nat) (hy : y < 256) (h : x < y) : UInt8.ofNat x < UInt8.ofNat y := by
  rw [UInt8.lt_iff_toNat_lt, UInt8.toNat_ofNat', UInt8.toNat_ofNat', Nat.mod_eq_of_lt hy,
    Nat.mod_eq_of_lt (Nat.lt_trans h hy)]
  exact h

/-- The trailing bytes are digits to base 64, the highest first, so they are in the order of the
    numbers they stand for, whatever follows them. -/
theorem trailingBytes_lt (count v w : Nat) (h : v % 64 ^ count < w % 64 ^ count)
    (s t : List UInt8) : trailingBytes count v ++ s < trailingBytes count w ++ t := by
  induction count with
  | zero =>
      rw [Nat.pow_zero, Nat.mod_one, Nat.mod_one] at h
      exact absurd h (Nat.lt_irrefl 0)
  | succ count ih =>
      rw [Nat.pow_succ, Nat.mod_mul, Nat.mod_mul] at h
      -- Both numbers are split into their highest digit and the rest.
      have hv := Nat.mod_lt v (Nat.pow_pos (show 0 < 64 by decide) (n := count))
      have hw := Nat.mod_lt w (Nat.pow_pos (show 0 < 64 by decide) (n := count))
      rw [trailingBytes, trailingBytes, List.cons_append, List.cons_append, List.cons_lt_cons_iff]
      rcases Nat.lt_trichotomy (v / 64 ^ count % 64) (w / 64 ^ count % 64) with hlt | heq | hgt
      · left
        exact ofNat_lt_ofNat _ _ (by omega) (by omega)
      · right
        rw [heq] at h ⊢
        exact ⟨rfl, ih (Nat.lt_of_add_lt_add_right h)⟩
      · -- A greater digit outweighs everything behind it.
        have hstep := Nat.mul_le_mul_left (64 ^ count) (Nat.succ_le_of_lt hgt)
        rw [Nat.mul_succ] at hstep
        omega

/-- The lesser character has the lesser bytes, whatever follows either. -/
theorem utf8EncodeChar_lt (c d : Char) (h : c < d) (s t : List UInt8) :
    String.utf8EncodeChar c ++ s < String.utf8EncodeChar d ++ t := by
  have hlt : c.val.toNat < d.val.toNat := h
  rw [utf8EncodeChar_eq, utf8EncodeChar_eq, List.cons_append, List.cons_append,
    List.cons_lt_cons_iff]
  rcases leadingByte_spec c.val.toNat d.val.toNat hlt with hlead | ⟨hlead, hcount, hrest⟩
  -- Different leading bytes settle the order at once.
  · left
    exact ofNat_lt_ofNat _ _ (leadingByte_lt _ (toNat_val_lt d)) hlead
  -- Otherwise as many trailing bytes follow in both.
  · right
    rw [hlead, ← hcount]
    exact ⟨rfl, trailingBytes_lt _ _ _ hrest s t⟩

/-- By induction on the texts, up to the first character in which they differ. -/
theorem flatMap_utf8EncodeChar_lt (front back : List Char) (h : front < back) :
    front.flatMap String.utf8EncodeChar < back.flatMap String.utf8EncodeChar := by
  induction front generalizing back with
  | nil =>
      cases back with
      | nil => exact absurd h (List.not_lt_nil [])
      | cons d back =>
          rw [List.flatMap_nil, List.flatMap_cons, utf8EncodeChar_eq, List.cons_append]
          exact List.nil_lt_cons _ _
  | cons c front ih =>
      cases back with
      | nil => exact absurd h (List.not_lt_nil (c :: front))
      | cons d back =>
          rw [List.flatMap_cons, List.flatMap_cons]
          rcases List.cons_lt_cons_iff.mp h with hlt | ⟨rfl, hrest⟩
          · exact utf8EncodeChar_lt c d hlt _ _
          · exact List.append_left_lt (ih back hrest)

/-- The bytes of a text are those of its characters. -/
theorem bytes_eq (text : String) : bytes text = text.toList.flatMap String.utf8EncodeChar := by
  have hutf8 : (String.ofList text.toList).toUTF8 = text.toList.utf8Encode :=
    String.toByteArray_ofList
  rw [String.ofList_toList] at hutf8
  rw [bytes, hutf8, List.utf8Encode, List.data_toByteArray]

/-- The lesser text has the lesser bytes. -/
theorem bytes_lt_bytes (a b : String) (h : a < b) : bytes a < bytes b := by
  rw [bytes_eq, bytes_eq]
  exact flatMap_utf8EncodeChar_lt a.toList b.toList (String.lt_iff.mp h)

end Text

end HeaderBinding
