import Mathlib.Data.List.Infix

/-!
# Brackets

Lists of texts that can be read back when they are written with commas between them.

The depth of a text is the number of brackets in it that open less the number that close; which of
the four kinds they are does not matter. A text is balanced if no part in front of it closes more
than it opens and the whole closes all that it opens. Texts of which each is balanced, and has no
comma at depth zero, can be joined with commas and told apart again. For the first comma at depth
zero then stands behind the first text (`WellBracketed.append_unique`), and so on along the list.

A balanced text in round brackets can be read back too, whatever stands in front of it. Seen from
the end, its opening bracket is the first that the last closing bracket closes
(`Balanced.append_unique`).

## Main definitions

* `Text.bracketDepth`: The brackets that a text opens and does not close.
* `Text.Balanced`: A text that closes the brackets it opens and no others.
* `Text.WellBracketed`: A balanced text without a comma outside of brackets.

## Theorems

* `Text.Balanced.append`, `Text.balanced_intercalate`: Balanced texts one behind the other.
* `Text.Balanced.append_unique`: A balanced text at the end, behind an opening bracket.
* `Text.WellBracketed.append_unique`: A well bracketed text in front of a comma.
* `Text.intercalate_unique`: Well bracketed texts with commas between them.
-/

namespace HeaderBinding

namespace Text

/-- What a character adds to the depth. -/
def bracketStep : Char → Int
  | '(' | '[' | '{' | '<' => 1
  | ')' | ']' | '}' | '>' => -1
  | _ => 0

/-- The depth behind a text: the brackets that open in it less those that close. -/
def bracketDepth : List Char → Int
  | [] => 0
  | c :: text => bracketStep c + bracketDepth text

/-- Nothing is closed that has not been opened, and all that has been opened is closed. -/
structure Balanced (text : List Char) : Prop where
  nonneg : ∀ front, front <+: text → 0 ≤ bracketDepth front
  closed : bracketDepth text = 0

/-- A balanced text in which every comma stands inside of brackets. -/
structure WellBracketed (text : List Char) : Prop extends Balanced text where
  comma : ∀ front, front ++ [','] <+: text → bracketDepth front ≠ 0

instance (text : List Char) : Decidable (Balanced text) :=
  decidable_of_iff ((∀ front ∈ text.inits, 0 ≤ bracketDepth front) ∧ bracketDepth text = 0)
    ⟨fun h => ⟨fun front hfront => h.1 front ((List.mem_inits _ _).mpr hfront), h.2⟩,
      fun h => ⟨fun front hfront => h.nonneg front ((List.mem_inits _ _).mp hfront), h.closed⟩⟩

instance (text : List Char) : Decidable (WellBracketed text) :=
  decidable_of_iff (Balanced text ∧
      ∀ front ∈ text.inits, front ++ [','] <+: text → bracketDepth front ≠ 0)
    ⟨fun h => ⟨h.1, fun front hfront => h.2 front
        ((List.mem_inits _ _).mpr ((List.prefix_append front [',']).trans hfront)) hfront⟩,
      fun h => ⟨h.toBalanced, fun front _ hfront => h.comma front hfront⟩⟩

@[simp]
theorem bracketDepth_nil : bracketDepth [] = 0 :=
  rfl

@[simp]
theorem bracketDepth_cons (c : Char) (text : List Char) :
    bracketDepth (c :: text) = bracketStep c + bracketDepth text :=
  rfl

@[simp]
theorem bracketDepth_append (front back : List Char) :
    bracketDepth (front ++ back) = bracketDepth front + bracketDepth back := by
  induction front with
  | nil => rw [List.nil_append, bracketDepth_nil, Int.zero_add]
  | cons c front ih =>
      rw [List.cons_append, bracketDepth_cons, bracketDepth_cons, ih, Int.add_assoc]

section Joining

variable {front back inner inner' : List Char}

theorem balanced_nil : Balanced [] := by
  decide

/-- One balanced text behind the other. -/
theorem Balanced.append (hfront : Balanced front) (hback : Balanced back) :
    Balanced (front ++ back) := by
  refine ⟨fun start hstart => ?_, ?_⟩
  · -- What is in front either ends in the first text, or takes all of it and some of the second.
    rcases List.prefix_or_prefix_of_prefix hstart (List.prefix_append front back) with hle | hle
    · exact hfront.nonneg start hle
    · rcases hle with ⟨rest, rfl⟩
      have hrest := hback.nonneg rest ((List.prefix_append_right_inj front).mp hstart)
      rw [bracketDepth_append, hfront.closed]
      omega
  · rw [bracketDepth_append, hfront.closed, hback.closed, Int.add_zero]

/-- Balanced texts with commas between them. -/
theorem balanced_intercalate (texts : List (List Char)) (h : ∀ text ∈ texts, Balanced text) :
    Balanced ([',', ' '].intercalate texts) := by
  induction texts with
  | nil => exact balanced_nil
  | cons text texts ih =>
      rw [List.forall_mem_cons] at h
      cases texts with
      | nil =>
          rw [List.intercalate_singleton]
          exact h.1
      | cons next texts =>
          rw [List.intercalate_cons_cons]
          exact (h.1.append (by decide)).append (ih h.2)

-- Nothing fits between an opening bracket that stands in front of a balanced text and another one
-- further back, since what lies between them would have to close the second.
theorem Balanced.eq_nil_of_between (hinner : Balanced inner) (hinner' : Balanced inner')
    {between : List Char} (h : '(' :: inner = between ++ '(' :: inner') : between = [] := by
  cases between with
  | nil => rfl
  | cons c between =>
      rw [List.cons_append, List.cons.injEq] at h
      have hbetween := hinner.nonneg between ⟨'(' :: inner', h.2.symm⟩
      have hclosed := hinner.closed
      rw [h.2, bracketDepth_append, bracketDepth_cons, hinner'.closed] at hclosed
      have hopen : bracketStep '(' = 1 := rfl
      omega

/-- A balanced text at the end is told by the bracket that opens in front of it. -/
theorem Balanced.append_unique {front' : List Char} (hinner : Balanced inner)
    (hinner' : Balanced inner') (h : front ++ '(' :: inner = front' ++ '(' :: inner') :
    front = front' ∧ inner = inner' := by
  have hfront : front = front' := by
    rcases List.append_eq_append_iff.mp h with ⟨between, hlonger, hrest⟩ |
      ⟨between, hlonger, hrest⟩
    · rw [hlonger, hinner.eq_nil_of_between hinner' hrest, List.append_nil]
    · rw [hlonger, hinner'.eq_nil_of_between hinner hrest, List.append_nil]
  rw [hfront, List.append_cancel_left_eq, List.cons.injEq] at h
  exact ⟨hfront, h.2⟩

end Joining

section Separating

variable {text text' rest rest' : List Char}

-- A comma behind a well bracketed text is no part of another one that starts with it.
theorem WellBracketed.eq_nil_of_between (htext : WellBracketed text)
    (htext' : WellBracketed (text ++ rest)) (hrest : ∀ c, rest.head? = some c → c = ',') :
    rest = [] := by
  cases rest with
  | nil => rfl
  | cons c rest =>
      rw [hrest c rfl] at htext'
      refine absurd htext.closed (htext'.comma text ⟨rest, ?_⟩)
      rw [List.append_assoc, List.singleton_append]

/-- A well bracketed text is told by the comma behind it, if there is anything behind it. -/
theorem WellBracketed.append_unique (htext : WellBracketed text) (htext' : WellBracketed text')
    (hrest : ∀ c, rest.head? = some c → c = ',') (hrest' : ∀ c, rest'.head? = some c → c = ',')
    (h : text ++ rest = text' ++ rest') : text = text' ∧ rest = rest' := by
  have hfront : text = text' := by
    rcases List.append_eq_append_iff.mp h with ⟨between, rfl, rfl⟩ | ⟨between, rfl, rfl⟩
    · have hbetween := htext.eq_nil_of_between htext' fun c hc =>
        hrest c (by rw [List.head?_append, hc, Option.some_or])
      rw [hbetween, List.append_nil]
    · have hbetween := htext'.eq_nil_of_between htext fun c hc =>
        hrest' c (by rw [List.head?_append, hc, Option.some_or])
      rw [hbetween, List.append_nil]
  rw [hfront, List.append_cancel_left_eq] at h
  exact ⟨hfront, h⟩

/-- What stands behind the first of several texts with commas between them. -/
def behindFirst : List (List Char) → List Char
  | [] => []
  | text :: texts => ',' :: ' ' :: (text ++ behindFirst texts)

theorem intercalate_cons_eq (text : List Char) (texts : List (List Char)) :
    [',', ' '].intercalate (text :: texts) = text ++ behindFirst texts := by
  induction texts generalizing text with
  | nil => rw [List.intercalate_singleton, behindFirst, List.append_nil]
  | cons next texts ih =>
      rw [List.intercalate_cons_cons, ih, behindFirst, List.append_assoc]
      rfl

theorem head?_behindFirst (texts : List (List Char)) (c : Char)
    (h : (behindFirst texts).head? = some c) : c = ',' := by
  cases texts with
  | nil => exact absurd h (Option.some_ne_none c).symm
  | cons text texts => exact (Option.some.inj h).symm

theorem behindFirst_unique (texts texts' : List (List Char))
    (htexts : ∀ text ∈ texts, WellBracketed text) (htexts' : ∀ text ∈ texts', WellBracketed text)
    (h : behindFirst texts = behindFirst texts') : texts = texts' := by
  induction texts generalizing texts' with
  | nil =>
      cases texts' with
      | nil => rfl
      | cons text texts' => exact absurd h.symm (List.cons_ne_nil _ _)
  | cons text texts ih =>
      cases texts' with
      | nil => exact absurd h (List.cons_ne_nil _ _)
      | cons text' texts' =>
          rw [List.forall_mem_cons] at htexts htexts'
          simp only [behindFirst, List.cons.injEq, true_and] at h
          rcases htexts.1.append_unique htexts'.1 (head?_behindFirst texts)
            (head?_behindFirst texts') h with ⟨rfl, hrest⟩
          rw [ih texts' htexts.2 htexts'.2 hrest]

/-- Well bracketed texts, none of them empty, are told by what comes of joining them with commas. -/
theorem intercalate_unique (texts texts' : List (List Char))
    (htexts : ∀ text ∈ texts, WellBracketed text ∧ text ≠ [])
    (htexts' : ∀ text ∈ texts', WellBracketed text ∧ text ≠ [])
    (h : [',', ' '].intercalate texts = [',', ' '].intercalate texts') : texts = texts' := by
  -- An empty list and a list of an empty text alone would come to the same.
  have hempty : ∀ text texts, (∀ t ∈ text :: texts, WellBracketed t ∧ t ≠ []) →
      [',', ' '].intercalate (text :: texts) ≠ [] := by
    intro text texts hall hnil
    rw [intercalate_cons_eq, List.append_eq_nil_iff] at hnil
    exact (hall text (List.mem_cons_self ..)).2 hnil.1
  cases texts with
  | nil =>
      cases texts' with
      | nil => rfl
      | cons text' texts' => exact absurd h.symm (hempty text' texts' htexts')
  | cons text texts =>
      cases texts' with
      | nil => exact absurd h (hempty text texts htexts)
      | cons text' texts' =>
          -- With one more comma in front they are behind a first text themselves.
          rw [intercalate_cons_eq, intercalate_cons_eq] at h
          refine behindFirst_unique _ _ (fun t ht => (htexts t ht).1)
            (fun t ht => (htexts' t ht).1) ?_
          rw [behindFirst, behindFirst, h]

end Separating

end Text

end HeaderBinding
