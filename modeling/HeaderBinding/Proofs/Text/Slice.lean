import HeaderBinding.Text.Blank
import HeaderBinding.Text.Slice

/-!
# Parts of a Text

Which parts of a text there are, told from the text itself.

An offset counts bytes, and a text is a list of characters of one to four bytes. `IsBoundary` says
that an offset falls between two characters or at an end: the text can be cut there. Two offsets
name a part of the text if both are boundaries and come in order (`isSome_slice?_iff`), and the part
is what stands between the two cuts (`slice?_eq_some_iff`).

## Main definitions

* `Text.IsBoundary`: A text can be cut at an offset.

## Theorems

* `Text.dropBytes?_eq_some_iff`, `Text.takeBytes?_eq_some_iff`: The two halves of a cut.
* `Text.slice?_eq_some_iff`: What stands between two offsets.
* `Text.isSome_slice?_iff`: When there is such a part.
* `Text.slice?_within`: A part inside another.
* `Text.trimEnd_prefix`: Dropping blanks at the end leaves the front.
-/

namespace HeaderBinding

namespace Text

/-- The offset lies between two characters of the text, or at one of its ends. -/
def IsBoundary (text : List Char) (offset : Nat) : Prop :=
  ∃ front back, text = front ++ back ∧ byteLength front = offset

theorem byteLength_append (front back : List Char) :
    byteLength (front ++ back) = byteLength front + byteLength back := by
  induction front with
  | nil => rw [List.nil_append, byteLength, Nat.zero_add]
  | cons c front ih => rw [List.cons_append, byteLength, byteLength, ih, Nat.add_assoc]

theorem byteLength_eq_zero_iff {text : List Char} : byteLength text = 0 ↔ text = [] := by
  cases text with
  | nil => exact iff_of_true rfl rfl
  | cons c text =>
      have := c.utf8Size_pos
      refine iff_of_false (fun h => ?_) (List.cons_ne_nil c text)
      rw [byteLength] at h
      omega

theorem byteLength_le_of_prefix {front text : List Char} (h : front <+: text) :
    byteLength front ≤ byteLength text := by
  rcases h with ⟨rest, rfl⟩
  rw [byteLength_append]
  exact Nat.le_add_right _ _

/-- What is left behind some bytes is the back of a cut. -/
theorem dropBytes?_eq_some_iff {text back : List Char} {n : Nat} :
    dropBytes? text n = some back ↔ ∃ front, text = front ++ back ∧ byteLength front = n := by
  fun_induction dropBytes? text n with
  | case1 text =>
      rw [Option.some.injEq]
      constructor
      · rintro rfl
        exact ⟨[], rfl, rfl⟩
      · rintro ⟨front, rfl, hfront⟩
        rw [byteLength_eq_zero_iff.mp hfront, List.nil_append]
  | case2 n =>
      refine iff_of_false (Option.some_ne_none back).symm ?_
      rintro ⟨front, htext, hfront⟩
      rw [(List.append_eq_nil_iff.mp htext.symm).1, byteLength] at hfront
      omega
  | case3 c text n hfits ih =>
      rw [ih]
      constructor
      · rintro ⟨front, rfl, hfront⟩
        refine ⟨c :: front, rfl, ?_⟩
        rw [byteLength, hfront, Nat.add_sub_cancel' hfits]
      · rintro ⟨front, htext, hfront⟩
        -- The front of the cut is not empty, so it starts with the same character.
        cases front with
        | nil => exact absurd hfront (Nat.succ_ne_zero n).symm
        | cons d front =>
            rcases List.cons_eq_cons.mp htext with ⟨rfl, rfl⟩
            rw [byteLength] at hfront
            exact ⟨front, rfl, by omega⟩
  | case4 c text n hlong =>
      refine iff_of_false (Option.some_ne_none back).symm ?_
      rintro ⟨front, htext, hfront⟩
      cases front with
      | nil => exact absurd hfront (Nat.succ_ne_zero n).symm
      | cons d front =>
          rcases List.cons_eq_cons.mp htext with ⟨rfl, rfl⟩
          rw [byteLength] at hfront
          omega

/-- The first bytes are the front of a cut. -/
theorem takeBytes?_eq_some_iff {text front : List Char} {n : Nat} :
    takeBytes? text n = some front ↔ ∃ back, text = front ++ back ∧ byteLength front = n := by
  fun_induction takeBytes? text n generalizing front with
  | case1 text =>
      rw [Option.some.injEq]
      constructor
      · rintro rfl
        exact ⟨text, rfl, rfl⟩
      · rintro ⟨back, _, hfront⟩
        exact (byteLength_eq_zero_iff.mp hfront).symm
  | case2 n =>
      refine iff_of_false (Option.some_ne_none front).symm ?_
      rintro ⟨back, htext, hfront⟩
      rw [(List.append_eq_nil_iff.mp htext.symm).1, byteLength] at hfront
      omega
  | case3 c text n hfits ih =>
      rw [Option.map_eq_some_iff]
      constructor
      · rintro ⟨front, hfront, rfl⟩
        rcases ih.mp hfront with ⟨back, rfl, hlength⟩
        refine ⟨back, rfl, ?_⟩
        rw [byteLength, hlength, Nat.add_sub_cancel' hfits]
      · rintro ⟨back, htext, hfront⟩
        cases front with
        | nil => exact absurd hfront (Nat.succ_ne_zero n).symm
        | cons d front =>
            rcases List.cons_eq_cons.mp htext with ⟨rfl, rfl⟩
            rw [byteLength] at hfront
            exact ⟨front, ih.mpr ⟨back, rfl, by omega⟩, rfl⟩
  | case4 c text n hlong =>
      refine iff_of_false (Option.some_ne_none front).symm ?_
      rintro ⟨back, htext, hfront⟩
      cases front with
      | nil => exact absurd hfront (Nat.succ_ne_zero n).symm
      | cons d front =>
          rcases List.cons_eq_cons.mp htext with ⟨rfl, rfl⟩
          rw [byteLength] at hfront
          omega

/-- The part between two offsets stands behind as many bytes as the first says and ends where the
    second says. -/
theorem slice?_eq_some_iff {text part : List Char} {start stop : Nat} :
    slice? text start stop = some part ↔
      ∃ front back, text = front ++ part ++ back ∧ byteLength front = start ∧
        byteLength (front ++ part) = stop := by
  rw [slice?, Option.ite_none_right_eq_some, Option.bind_eq_some_iff]
  simp only [dropBytes?_eq_some_iff, takeBytes?_eq_some_iff, byteLength_append]
  constructor
  · rintro ⟨hle, _, ⟨front, rfl, hfront⟩, back, rfl, hpart⟩
    exact ⟨front, back, (List.append_assoc _ _ _).symm, hfront, by omega⟩
  · rintro ⟨front, back, rfl, hfront, hstop⟩
    exact ⟨by omega, part ++ back, ⟨front, List.append_assoc _ _ _, hfront⟩, back, rfl, by omega⟩

/-- Of two fronts of one text, the one with fewer bytes is a front of the other. -/
theorem prefix_of_byteLength_le {text front front' : List Char} (h : front <+: text)
    (h' : front' <+: text) (hle : byteLength front ≤ byteLength front') : front <+: front' := by
  rcases List.prefix_or_prefix_of_prefix h h' with hprefix | ⟨part, rfl⟩
  · exact hprefix
  · rw [byteLength_append] at hle
    obtain rfl : part = [] := byteLength_eq_zero_iff.mp (by omega)
    exact (List.append_nil front').symm ▸ List.prefix_rfl

/-- Two boundaries in order have a part between them, and nothing else has. -/
theorem isSome_slice?_iff {text : List Char} {start stop : Nat} :
    (slice? text start stop).isSome ↔
      start ≤ stop ∧ IsBoundary text start ∧ IsBoundary text stop := by
  rw [Option.isSome_iff_exists]
  constructor
  · rintro ⟨part, hpart⟩
    rcases slice?_eq_some_iff.mp hpart with ⟨front, back, rfl, rfl, rfl⟩
    refine ⟨?_, ⟨front, part ++ back, List.append_assoc _ _ _, rfl⟩, ⟨_, back, rfl, rfl⟩⟩
    rw [byteLength_append]
    exact Nat.le_add_right _ _
  · rintro ⟨hle, ⟨front, rest, htext, rfl⟩, ⟨front', back, rfl, rfl⟩⟩
    obtain ⟨part, rfl⟩ : front <+: front' :=
      prefix_of_byteLength_le ⟨rest, htext.symm⟩ (List.prefix_append front' back) hle
    exact ⟨part, slice?_eq_some_iff.mpr ⟨front, back, rfl, rfl, rfl⟩⟩

/-- A part inside another stands behind a front of it. -/
theorem slice?_within {text part inner : List Char} {start stop start' stop' : Nat}
    (hpart : slice? text start stop = some part) (hinner : slice? text start' stop' = some inner)
    (hstart : start ≤ start') (hstop : stop' ≤ stop) :
    ∃ front, front ++ inner <+: part ∧ start + byteLength (front ++ inner) = stop' := by
  rcases slice?_eq_some_iff.mp hpart with ⟨before, behind, htext, rfl, rfl⟩
  rcases slice?_eq_some_iff.mp hinner with ⟨before', behind', htext', rfl, rfl⟩
  have hprefix : before ++ part <+: text := ⟨behind, htext.symm⟩
  have hprefix' : before' ++ inner <+: text := ⟨behind', htext'.symm⟩
  obtain ⟨front, rfl⟩ : before <+: before' :=
    prefix_of_byteLength_le ((List.prefix_append before part).trans hprefix)
      ((List.prefix_append before' inner).trans hprefix') hstart
  have hle : before ++ (front ++ inner) <+: before ++ part := by
    rw [List.append_assoc] at hprefix' hstop
    exact prefix_of_byteLength_le hprefix' hprefix hstop
  refine ⟨front, (List.prefix_append_right_inj before).mp hle, ?_⟩
  rw [List.append_assoc, byteLength_append before]

instance (text : List Char) (offset : Nat) : Decidable (IsBoundary text offset) :=
  decidable_of_iff ((dropBytes? text offset).isSome = true) <| by
    simp only [Option.isSome_iff_exists, dropBytes?_eq_some_iff, IsBoundary]
    exact exists_comm

theorem dropEndWhile_prefix (p : Char → Bool) (text : List Char) :
    dropEndWhile p text <+: text := by
  have h := List.reverse_prefix.mpr (List.dropWhile_suffix (l := text.reverse) p)
  rwa [List.reverse_reverse] at h

/-- Dropping characters at the end stops at the last one that fails the test. -/
theorem prefix_dropEndWhile {p : Char → Bool} {c : Char} (hc : p c = false)
    {front text : List Char} (h : front ++ [c] <+: text) :
    front ++ [c] <+: dropEndWhile p text := by
  rcases h with ⟨rest, rfl⟩
  unfold dropEndWhile
  rw [List.reverse_append, List.dropWhile_append]
  split
  · have hstop : ((front ++ [c]).reverse.dropWhile p).reverse = front ++ [c] := by
      rw [List.reverse_append, List.reverse_singleton, List.singleton_append,
        List.dropWhile_cons_of_neg (by rw [hc]; exact Bool.false_ne_true), List.reverse_cons,
        List.reverse_reverse]
    exact hstop.symm ▸ List.prefix_rfl
  · rw [List.reverse_append, List.reverse_reverse]
    exact List.prefix_append _ _

/-- Dropping the last character of a text leaves a front that ends with another one. -/
theorem prefix_dropLast {c d : Char} (hcd : c ≠ d) {front text : List Char}
    (h : front ++ [c] <+: text) (hlast : text.getLast? = some d) :
    front ++ [c] <+: text.dropLast := by
  rcases h with ⟨rest, rfl⟩
  cases rest with
  | nil =>
      rw [List.append_nil, List.getLast?_append, List.getLast?_singleton] at hlast
      exact absurd (Option.some.inj hlast) hcd
  | cons e rest =>
      rw [List.dropLast_append_of_ne_nil (List.cons_ne_nil e rest)]
      exact List.prefix_append _ _

/-- Dropping blanks at the end leaves a front of the text. -/
theorem trimEnd_prefix (text : List Char) : trimEnd text <+: text :=
  dropEndWhile_prefix isBlank text

end Text

end HeaderBinding
