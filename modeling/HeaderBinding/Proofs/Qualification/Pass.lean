import HeaderBinding.Assembly.InnerTypes
import HeaderBinding.Proofs.Text.Identifier
import Mathlib.Data.List.Basic

/-!
# One Pass over a Text

Qualifying words in a single pass from the left, and why several passes come to one.

The qualifier goes over a text once for each name of each class, and every time over what the times
before have made of it. `qualifyWords` does all of it at once. It asks for each word who owns it,
and puts the owner in front unless a scope mark stands next to the word.

That passes can be put together, `qualifyWords_qualifyWords`, is the reason why the order of the
names does not matter beyond the first owner of a word. A pass leaves three kinds of words behind. A
word it qualified stands behind a scope mark from then on, and the words of the owner's name stand
in front of one, so that no later pass will touch either. All other words are as they were, and so
are the characters on both sides of them, as far as the next pass looks at those. The last point
needs care, since a qualifier is put in only two characters away from where the next word may begin.
`SameMarks` says what a pass may have changed in the text behind it.

## Main definitions

* `qualifier`: What a pass puts in front of a word.
* `qualifyWords`: One pass over a text.
* `SameMarks`: Two texts look the same to a word behind them.
* `BareWord`: A word stands in a text without a scope mark next to it.

## Theorems

* `qualifyWords_cons`, `qualifyWords_word`: A pass over a text, word by word.
* `qualifyWords_qualifyWords`: Two passes are one, in which the first owner counts.
* `qualifyWords_idempotent`: A pass changes nothing where a pass before it knew as many owners.
* `owner_eq_none_of_bareWord`: What a pass leaves bare has no owner.
-/

namespace HeaderBinding

open Text

/-- What a pass puts in front of a word: its owner and a scope mark, unless a scope mark stands next
    to the word already. -/
def qualifier (owner? : String → Option String) (before word after : List Char) : List Char :=
  if scopeMark.isPrefixOf before || scopeMark.isPrefixOf after then []
  else
    match owner? (String.ofList word) with
    | some owner => owner.toList ++ scopeMark
    | none => []

/-- One pass over a text from the left, in which each word is qualified with its owner. `before` is
    the text already passed, nearest character first. -/
def qualifyWords (owner? : String → Option String) (before : List Char) : List Char → List Char
  | [] => []
  | c :: rest =>
    if isWordChar c then
      let word := c :: rest.takeWhile isWordChar
      let after := rest.dropWhile isWordChar
      qualifier owner? before word after ++
        (word ++ qualifyWords owner? (word.reverse ++ before) after)
    else c :: qualifyWords owner? (c :: before) rest
termination_by text => text.length
decreasing_by
  · have hle := (List.dropWhile_sublist isWordChar (l := rest)).length_le
    simp only [List.length_cons]
    omega
  · simp only [List.length_cons, Nat.lt_add_one]

section Equations

variable (owner? : String → Option String)

theorem qualifyWords_nil (before : List Char) : qualifyWords owner? before [] = [] := by
  rw [qualifyWords]

/-- A character that belongs to no word is copied. -/
theorem qualifyWords_cons (before : List Char) (c : Char) (rest : List Char)
    (hc : isWordChar c = false) :
    qualifyWords owner? before (c :: rest) = c :: qualifyWords owner? (c :: before) rest := by
  rw [qualifyWords, if_neg (by rw [hc]; exact Bool.false_ne_true)]

/-- A word is copied with its qualifier in front. -/
theorem qualifyWords_word (before word rest : List Char) (hword : Identifier word)
    (hrest : EndsWord rest) :
    qualifyWords owner? before (word ++ rest) =
      qualifier owner? before word rest ++
        (word ++ qualifyWords owner? (word.reverse ++ before) rest) := by
  have htake := takeWhile_identifier_append word rest hword hrest
  have hdrop := dropWhile_identifier_append word rest hword hrest
  rcases hword.exists_cons with ⟨c, tail, rfl, hc, _⟩
  rw [List.cons_append, List.takeWhile_cons_of_pos hc] at htake
  rw [List.cons_append, List.dropWhile_cons_of_pos hc] at hdrop
  rw [List.cons_append, qualifyWords, if_pos hc, htake, hdrop]

/-- A pass only ever adds to a text. -/
theorem length_le_length_qualifyWords (text before : List Char) :
    text.length ≤ (qualifyWords owner? before text).length := by
  induction text using words_induction generalizing before with
  | hnil => exact Nat.zero_le _
  | hother c rest hc ih =>
      rw [qualifyWords_cons owner? before c rest hc, List.length_cons, List.length_cons]
      have hle := ih (c :: before)
      omega
  | hword word rest hword hrest ih =>
      rw [qualifyWords_word owner? before word rest hword hrest]
      simp only [List.length_append]
      have hle := ih (word.reverse ++ before)
      omega

/-- A pass that knows no owners copies the text. -/
theorem qualifyWords_none (text before : List Char) :
    qualifyWords (fun _ => none) before text = text := by
  induction text using words_induction generalizing before with
  | hnil => rw [qualifyWords_nil]
  | hother c rest hc ih => rw [qualifyWords_cons _ before c rest hc, ih]
  | hword word rest hword hrest ih =>
      rw [qualifyWords_word _ before word rest hword hrest, ih, qualifier, ite_self,
        List.nil_append]

/-- Where no word has to begin, none begins after the pass. -/
theorem endsWord_qualifyWords (text before : List Char) (h : EndsWord text) :
    EndsWord (qualifyWords owner? before text) := by
  cases text with
  | nil =>
      rw [qualifyWords_nil]
      exact endsWord_nil
  | cons c rest =>
      rw [endsWord_cons] at h
      rw [qualifyWords_cons owner? before c rest h, endsWord_cons]
      exact h

end Equations

/-- Two texts, nearest character first, look the same to a word behind them, whatever stands
    between: a scope mark ends the one if and only if it ends the other. -/
def SameMarks (before before' : List Char) : Prop :=
  ∀ between, scopeMark.isPrefixOf (between ++ before) = scopeMark.isPrefixOf (between ++ before')

theorem SameMarks.append (before before' : List Char) (h : SameMarks before before')
    (passed : List Char) : SameMarks (passed ++ before) (passed ++ before') := by
  intro between
  rw [← List.append_assoc, ← List.append_assoc]
  exact h (between ++ passed)

/-- Nothing in front of a word matters behind it. -/
theorem sameMarks_word (word before before' : List Char) (hword : Identifier word) :
    SameMarks (word.reverse ++ before) (word.reverse ++ before') := by
  rcases hword.exists_reverse_cons with ⟨c, rest, hreverse, hc⟩
  have hcolon : (':' == c) = false := by
    rw [beq_eq_false_iff_ne]
    intro heq
    rw [← heq, isWordChar_colon] at hc
    exact Bool.false_ne_true hc
  intro between
  rw [hreverse]
  -- A scope mark has two characters, and the last of the word is none of them.
  rcases between with _ | ⟨x, _ | ⟨y, between⟩⟩
  · simp only [scopeMark, List.nil_append, List.cons_append, List.isPrefixOf, hcolon,
      Bool.false_and]
  · simp only [scopeMark, List.nil_append, List.cons_append, List.isPrefixOf, hcolon,
      Bool.false_and, Bool.and_false]
  · simp only [scopeMark, List.cons_append, List.isPrefixOf, Bool.and_true]

section Composition

variable (first second : String → Option String)
  (hfirst : ∀ word owner, first word = some owner → ScopedName owner.toList)

/-- The words of a scoped name with a scope mark behind it all stand next to a scope mark, so that a
    pass copies the name. -/
theorem qualifyWords_scopedName (name : List Char) (hname : ScopedName name)
    (before rest : List Char) :
    qualifyWords second before (name ++ (scopeMark ++ rest)) =
      name ++ (scopeMark ++
        qualifyWords second (scopeMark ++ (name.reverse ++ before)) rest) := by
  have hends : ∀ rest : List Char, EndsWord (scopeMark ++ rest) :=
    fun rest => (endsWord_cons ':' (':' :: rest)).mpr isWordChar_colon
  have hmark : ∀ before rest : List Char, qualifyWords second before (scopeMark ++ rest) =
      scopeMark ++ qualifyWords second (scopeMark ++ before) rest := by
    intro before rest
    simp only [scopeMark, List.cons_append, List.nil_append,
      qualifyWords_cons second _ ':' _ isWordChar_colon]
  have hword : ∀ word before rest : List Char, Identifier word →
      qualifyWords second before (word ++ (scopeMark ++ rest)) =
        word ++ (scopeMark ++
          qualifyWords second (scopeMark ++ (word.reverse ++ before)) rest) := by
    intro word before rest hword
    have hmarked : scopeMark.isPrefixOf (scopeMark ++ rest) = true := by
      rw [List.isPrefixOf_iff_prefix]
      exact List.prefix_append _ _
    rw [qualifyWords_word second before word _ hword (hends rest), qualifier, hmarked,
      Bool.or_true, if_pos rfl, List.nil_append, hmark]
  -- Induction on the name, one identifier and one scope mark at a time.
  revert before rest
  refine scopedName_induction _ (fun word h before rest => hword word before rest h)
    (fun word name h ih before rest => ?_) name hname
  rw [List.append_assoc, List.append_assoc, hword word before _ h, ih]
  simp only [List.reverse_append, List.append_assoc]
  rfl

/-- With two passes in one, a word gets the qualifier of the second if the first has none. -/
theorem qualifier_or (before word after : List Char) :
    qualifier (fun word => (first word).or (second word)) before word after =
      if qualifier first before word after = [] then qualifier second before word after
      else qualifier first before word after := by
  unfold qualifier
  by_cases hmarked : (scopeMark.isPrefixOf before || scopeMark.isPrefixOf after) = true
  · simp only [if_pos hmarked, if_true]
  · simp only [if_neg hmarked]
    cases first (String.ofList word) with
    | none => simp only [Option.none_or, if_true]
    | some owner =>
        have hne : ¬ owner.toList ++ scopeMark = [] := by
          simp only [scopeMark, List.append_eq_nil_iff, List.cons_ne_nil, and_false,
            not_false_eq_true]
        simp only [Option.some_or, if_neg hne]

include hfirst

/-- A qualifier begins with a word character if there is one. -/
theorem qualifier_eq_nil_or (before word after : List Char) :
    qualifier first before word after = [] ∨
      ∃ owner : List Char, ScopedName owner ∧
        qualifier first before word after = owner ++ scopeMark := by
  unfold qualifier
  by_cases hmarked : (scopeMark.isPrefixOf before || scopeMark.isPrefixOf after) = true
  · exact Or.inl (if_pos hmarked)
  · rw [if_neg hmarked]
    rcases howner : first (String.ofList word) with _ | owner
    · exact Or.inl rfl
    · exact Or.inr ⟨owner.toList, hfirst _ _ howner, rfl⟩

/-- A pass does not bring a colon to the front of a text or take one away. -/
theorem isPrefixOf_colon_qualifyWords (text before : List Char) :
    [':'].isPrefixOf (qualifyWords first before text) = [':'].isPrefixOf text := by
  have hcolon : ∀ c : Char, isWordChar c = true → (':' == c) = false := by
    intro c hc
    rw [beq_eq_false_iff_ne]
    intro heq
    rw [← heq, isWordChar_colon] at hc
    exact Bool.false_ne_true hc
  induction text using words_induction with
  | hnil => rw [qualifyWords_nil]
  | hother c rest hc _ =>
      rw [qualifyWords_cons first before c rest hc]
      rfl
  | hword word rest hword hrest _ =>
      rw [qualifyWords_word first before word rest hword hrest]
      rcases hword.exists_cons with ⟨c, tail, rfl, hc, _⟩
      -- In front stands the word itself or an owner, and both begin with a word character.
      rcases qualifier_eq_nil_or first hfirst before (c :: tail) rest with
        hnil | ⟨owner, howner, heq⟩
      · rw [hnil]
        rfl
      · rcases howner.exists_cons with ⟨d, tail', rfl, hd⟩
        rw [heq]
        simp only [List.cons_append, List.isPrefixOf, hcolon c hc, hcolon d hd, Bool.false_and]

/-- A pass does not bring a scope mark to where no word begins, or take one away. -/
theorem isPrefixOf_scopeMark_qualifyWords (text before : List Char) (h : EndsWord text) :
    scopeMark.isPrefixOf (qualifyWords first before text) = scopeMark.isPrefixOf text := by
  cases text with
  | nil => rw [qualifyWords_nil]
  | cons c rest =>
      rw [endsWord_cons] at h
      rw [qualifyWords_cons first before c rest h]
      have hrest := isPrefixOf_colon_qualifyWords first hfirst rest (c :: before)
      simp only [scopeMark, List.isPrefixOf_cons_cons, hrest]

/-- Two passes are one. A word goes to its owner in the first pass, or else to its owner in the
    second. -/
theorem qualifyWords_qualifyWords (text before before' : List Char)
    (hbefore : SameMarks before before') :
    qualifyWords second before' (qualifyWords first before text) =
      qualifyWords (fun word => (first word).or (second word)) before text := by
  -- Induction word by word. What the first pass put in only shows in what lies behind.
  induction text using words_induction generalizing before before' with
  | hnil => rw [qualifyWords_nil, qualifyWords_nil, qualifyWords_nil]
  | hother c rest hc ih =>
      rw [qualifyWords_cons _ before c rest hc, qualifyWords_cons _ before' c _ hc,
        qualifyWords_cons _ before c rest hc, ih (c :: before) (c :: before')]
      exact hbefore.append _ _ [c]
  | hword word rest hword hrest ih =>
      have hends := endsWord_qualifyWords first rest (word.reverse ++ before) hrest
      have hmark := isPrefixOf_scopeMark_qualifyWords first hfirst rest (word.reverse ++ before)
        hrest
      have hbefore' : scopeMark.isPrefixOf before' = scopeMark.isPrefixOf before :=
        (hbefore []).symm
      rw [qualifyWords_word _ before word rest hword hrest,
        qualifyWords_word _ before word rest hword hrest]
      rcases qualifier_eq_nil_or first hfirst before word rest with
        hnil | ⟨owner, howner, heq⟩
      · -- Left bare by the first pass, so the second sees the word as the first did.
        have hsecond : qualifier second before' word
            (qualifyWords first (word.reverse ++ before) rest) =
              qualifier second before word rest := by
          rw [qualifier, qualifier, hbefore', hmark]
        rw [hnil, List.nil_append, qualifyWords_word second before' word _ hword hends, hsecond,
          ih _ _ (sameMarks_word word before before' hword), qualifier_or, if_pos hnil]
      · -- Qualified by the first pass, and behind a scope mark from then on.
        have hmarked : scopeMark.isPrefixOf (scopeMark ++ (owner.reverse ++ before')) = true := by
          rw [List.isPrefixOf_iff_prefix]
          exact List.prefix_append _ _
        have hne : ¬ qualifier first before word rest = [] := by
          rw [heq]
          simp only [scopeMark, List.append_eq_nil_iff, List.cons_ne_nil, and_false,
            not_false_eq_true]
        rw [qualifier_or, if_neg hne, heq, List.append_assoc,
          qualifyWords_scopedName second owner howner, qualifyWords_word second _ word _ hword hends,
          qualifier, hmarked, Bool.true_or, if_pos rfl, List.nil_append,
          ih _ _ (sameMarks_word word before _ hword), List.append_assoc]

/-- A pass that knows no more owners than the one before it changes nothing. -/
theorem qualifyWords_idempotent (hsecond : ∀ word, first word = none → second word = none)
    (text before : List Char) :
    qualifyWords second before (qualifyWords first before text) =
      qualifyWords first before text := by
  have hor : (fun word => (first word).or (second word)) = first := by
    funext word
    rcases hword : first word with _ | owner
    · rw [Option.none_or, hsecond word hword]
    · rw [Option.some_or]
  rw [qualifyWords_qualifyWords first second hfirst text before before (fun _ => rfl), hor]

end Composition

/-- A word stands in a text on its own: whole, and without a scope mark in front of it or behind
    it. -/
def BareWord (word text : List Char) : Prop :=
  ∃ front back, text = front ++ (word ++ back) ∧ Identifier word ∧
    EndsWord front.reverse ∧ EndsWord back ∧ ¬ scopeMark <:+ front ∧ ¬ scopeMark <+: back

section Bare

variable (owner? : String → Option String)

/-- A pass goes over the front of a text and then over the rest, where the two meet at a place no
    word goes on across. -/
theorem exists_qualifyWords_append (front : List Char) (hfront : EndsWord front.reverse)
    (text before : List Char) :
    ∃ passed, front.length ≤ passed.length ∧ qualifyWords owner? before (front ++ text) =
      passed ++ qualifyWords owner? (front.reverse ++ before) text := by
  induction front using words_induction generalizing before with
  | hnil => exact ⟨[], Nat.le_refl _, rfl⟩
  | hother c rest hc ih =>
      have hrest : EndsWord rest.reverse := by
        intro d hd
        refine hfront d ?_
        rw [List.reverse_cons, List.head?_append, hd, Option.some_or]
      rcases ih hrest (c :: before) with ⟨passed, hlength, heq⟩
      refine ⟨c :: passed, by simp only [List.length_cons]; omega, ?_⟩
      rw [List.cons_append, qualifyWords_cons owner? before c _ hc, heq, List.reverse_cons,
        List.append_assoc]
      rfl
  | hword word rest hword hrest ih =>
      -- The front does not end in this word, so there is more of it behind the word.
      cases rest with
      | nil =>
          rw [List.append_nil] at hfront
          rcases hword.exists_reverse_cons with ⟨c, tail, hreverse, hc⟩
          rw [hreverse, endsWord_cons, hc] at hfront
          exact absurd hfront (Bool.true_eq_false ▸ not_false)
      | cons c rest =>
          have hfront' : EndsWord (c :: rest).reverse := by
            intro d hd
            refine hfront d ?_
            rw [List.reverse_append, List.head?_append, hd, Option.some_or]
          have hends : EndsWord (c :: rest ++ text) := by
            rw [endsWord_cons] at hrest
            exact (endsWord_cons c _).mpr hrest
          rcases ih hfront' (word.reverse ++ before) with ⟨passed, hlength, heq⟩
          refine ⟨qualifier owner? before word (c :: rest ++ text) ++ (word ++ passed), ?_, ?_⟩
          · simp only [List.length_append]
            omega
          · rw [List.append_assoc, qualifyWords_word owner? before word _ hword hends, heq,
              List.reverse_append, List.append_assoc, List.append_assoc, List.append_assoc]

/-- What a pass leaves bare has no owner. -/
theorem owner_eq_none_of_bareWord (word text : List Char)
    (hfixed : qualifyWords owner? [] text = text) (h : BareWord word text) :
    owner? (String.ofList word) = none := by
  rcases h with ⟨front, back, rfl, hword, hfront, hback, hmarkFront, hmarkBack⟩
  rcases exists_qualifyWords_append owner? front hfront (word ++ back) [] with
    ⟨passed, hlength, heq⟩
  rw [heq, qualifyWords_word owner? _ word back hword hback, List.append_nil] at hfixed
  -- Nothing gets shorter in a pass, so there is no room for a qualifier.
  have hle := length_le_length_qualifyWords owner? back (word.reverse ++ front.reverse)
  have hqualifier : qualifier owner? front.reverse word back = [] := by
    have hsum := congrArg List.length hfixed
    simp only [List.length_append] at hsum
    exact List.length_eq_zero_iff.mp (by omega)
  have hmarked : ¬ (scopeMark.isPrefixOf front.reverse || scopeMark.isPrefixOf back) = true := by
    rw [Bool.or_eq_true, List.isPrefixOf_iff_prefix, List.isPrefixOf_iff_prefix]
    rintro (hmark | hmark)
    · exact hmarkFront (List.reverse_prefix.mp hmark)
    · exact hmarkBack hmark
  rw [qualifier, if_neg hmarked] at hqualifier
  rcases howner : owner? (String.ofList word) with _ | owner
  · rfl
  · rw [howner] at hqualifier
    exact absurd hqualifier (by simp only [scopeMark, List.append_eq_nil_iff, List.cons_ne_nil,
      and_false, not_false_eq_true])

end Bare

end HeaderBinding
