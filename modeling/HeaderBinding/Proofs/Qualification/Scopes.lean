import HeaderBinding.Proofs.Qualification.Pass

/-!
# Scopes as Passes

What the qualifier does, one name after the other, is one pass over the text.

The qualifier looks for a name character by character, with a test for word boundaries at both ends
of it. For a name that is an identifier this finds whole words and nothing else, so that the search
is a pass that knows a single owner (`qualifyFrom_eq_qualifyWords`). The names of a scope are then
searched for one by one. Each search is a pass over what the ones before it have left, and all of
them together are the pass that gives every name of the scope its owner
(`InnerTypes.toList_qualify`).

Whether a scope reports a change is told from the text alone. Nothing is reported when the pass
would change nothing, for then none of the searches changes anything either
(`InnerTypes.qualify?_eq_none`).

## Main definitions

* `onlyWord`: The owner of a single word.
* `ClassRecord.Declares`: A class declares a type in itself whose name ends in a word.
* `ClassRecord.WellNamed`: The names of a class and of the types in it are made of identifiers.
* `InnerTypes.owner?`: The owner a scope has for a word.

## Theorems

* `standsAt_word_iff`: At the start of a word stands that word and no other identifier.
* `qualifyFrom_eq_qualifyWords`: Searching for one name is a pass.
* `InnerTypes.toList_qualify`: Qualifying with a scope is a pass.
* `InnerTypes.qualify?_eq_none`: A scope reports no change where its pass makes none.
* `InnerTypes.mem_segments_of`: The names a scope searches for.
-/

namespace HeaderBinding

open Text

/-- The owner of a single word. -/
def onlyWord (word owner : String) : String → Option String :=
  fun other => if other = word then some owner else none

section Search

variable (word : List Char) (hword : Identifier word)

theorem endsWord_iff_any_head? (text : List Char) :
    EndsWord text ↔ text.head?.any isWordChar = false := by
  cases text with
  | nil => exact ⟨fun _ => rfl, fun _ => endsWord_nil⟩
  | cons c rest => rw [endsWord_cons, List.head?_cons, Option.any_some]

/-- Between two word characters lies no boundary, so no word stands there. -/
theorem standsAt_inside (b c : Char) (before rest : List Char) (hb : isWordChar b = true)
    (hc : isWordChar c = true) : standsAt word (b :: before) (c :: rest) = false := by
  have hboundary : boundary (b :: before).head? (c :: rest).head? = false := by
    simp only [boundary, List.head?_cons, Option.any_some, hb, hc, bne_self_eq_false]
  rw [standsAt, hboundary, Bool.and_false, Bool.false_and]

include hword

/-- No identifier stands where another character does. -/
theorem standsAt_other (before : List Char) (c : Char) (rest : List Char)
    (hc : isWordChar c = false) : standsAt word before (c :: rest) = false := by
  rcases hword.exists_cons with ⟨d, tail, rfl, hd, _⟩
  have hne : (d == c) = false := by
    rw [beq_eq_false_iff_ne]
    intro heq
    rw [heq, hc] at hd
    exact Bool.false_ne_true hd
  simp only [standsAt, List.isPrefixOf, hne, Bool.false_and]

/-- At the start of a word stands that word and no other identifier. -/
theorem standsAt_word_iff (before other rest : List Char) (hother : Identifier other)
    (hbefore : EndsWord before) (hrest : EndsWord rest) :
    standsAt word before (other ++ rest) = true ↔ other = word := by
  -- An identifier has a word character at both of its ends.
  rcases hother.exists_cons with ⟨c, tail, hcons, hc, _⟩
  rcases hword.exists_reverse_cons with ⟨d, front, hreverse, hd⟩
  have hleft : boundary before.head? (other ++ rest).head? = true := by
    rw [boundary, (endsWord_iff_any_head? before).mp hbefore, hcons]
    simp only [List.cons_append, List.head?_cons, Option.any_some, hc, Bool.bne_true,
      Bool.not_false]
  have hright : ∀ back : List Char,
      boundary (word.reverse ++ before).head? back.head? = true ↔ EndsWord back := by
    intro back
    rw [boundary, hreverse, endsWord_iff_any_head?]
    simp only [List.cons_append, List.head?_cons, Option.any_some, hd, Bool.true_bne,
      Bool.not_eq_true']
  rw [standsAt, hleft, Bool.and_true, Bool.and_eq_true, hright, List.isPrefixOf_iff_prefix]
  -- The text begins with one word only, so what stands there with both boundaries is that word.
  constructor
  · rintro ⟨⟨back, hback⟩, hends⟩
    rw [← hback, List.drop_left] at hends
    exact (identifier_unique word other back rest hword hother hends hrest hback).1.symm
  · intro heq
    rw [heq, List.drop_left]
    exact ⟨List.prefix_append _ _, hrest⟩

end Search

section Copying

variable (word mark : List Char)

/-- The rest of an occurrence is copied. -/
theorem qualifyFrom_skip (passed before rest : List Char) :
    qualifyFrom word mark passed.length before (passed ++ rest) =
      passed ++ qualifyFrom word mark 0 (passed.reverse ++ before) rest := by
  induction passed generalizing before with
  | nil => rfl
  | cons c passed ih =>
      rw [List.length_cons, List.cons_append, qualifyFrom, ih (c :: before), List.reverse_cons,
        List.append_assoc]
      rfl

/-- The rest of any other word is copied as well. -/
theorem qualifyFrom_inside (passed : List Char) (hpassed : ∀ c ∈ passed, isWordChar c = true)
    (b : Char) (before rest : List Char) (hb : isWordChar b = true) :
    qualifyFrom word mark 0 (b :: before) (passed ++ rest) =
      passed ++ qualifyFrom word mark 0 (passed.reverse ++ (b :: before)) rest := by
  induction passed generalizing b before with
  | nil => rfl
  | cons c passed ih =>
      have hc := hpassed c (List.mem_cons_self ..)
      have hnot : ¬ standsAt word (b :: before) (c :: (passed ++ rest)) = true := by
        rw [standsAt_inside word b c before (passed ++ rest) hb hc]
        exact Bool.false_ne_true
      rw [List.cons_append, qualifyFrom, if_neg hnot,
        ih (fun d hd => hpassed d (List.mem_cons_of_mem _ hd)) c (b :: before) hc,
        List.reverse_cons, List.append_assoc]
      rfl

end Copying

/-- Searching for one name is a pass that knows the owner of that name only. -/
theorem qualifyFrom_eq_qualifyWords (word owner : String) (hword : Identifier word.toList)
    (text before : List Char) (h : EndsWord before ∨ EndsWord text) :
    qualifyFrom word.toList (owner.toList ++ scopeMark) 0 before text =
      qualifyWords (onlyWord word owner) before text := by
  -- The search goes character by character and the pass word by word. They meet between words.
  induction text using words_induction generalizing before with
  | hnil => rw [qualifyFrom, qualifyWords_nil]
  | hother c rest hc ih =>
      have hnot : ¬ standsAt word.toList before (c :: rest) = true := by
        rw [standsAt_other word.toList hword before c rest hc]
        exact Bool.false_ne_true
      rw [qualifyFrom, if_neg hnot, qualifyWords_cons _ before c rest hc,
        ih (c :: before) (Or.inl ((endsWord_cons c before).mpr hc))]
  | hword other rest hother hrest ih =>
      have hbefore : EndsWord before :=
        h.resolve_right (not_endsWord_of_identifier other rest hother)
      have hstands :=
        standsAt_word_iff word.toList hword before other rest hother hbefore hrest
      have hrest' := ih (other.reverse ++ before) (Or.inr hrest)
      rcases hother.exists_cons with ⟨c, tail, hcons, hc, htail⟩
      have hpassed : other.reverse ++ before = tail.reverse ++ (c :: before) := by
        rw [hcons, List.reverse_cons, List.append_assoc, List.singleton_append]
      rw [qualifyWords_word _ before other rest hother hrest, ← hrest', hpassed]
      by_cases heq : other = word.toList
      · -- The word is found and the search goes on behind it.
        have hat := hstands.mpr heq
        have howner : onlyWord word owner (String.ofList other) = some owner := by
          rw [onlyWord, heq, String.ofList_toList, if_pos rfl]
        have hlength : word.toList.length - 1 = tail.length := by
          rw [← heq, hcons, List.length_cons, Nat.add_sub_cancel]
        have hdrop : List.drop word.toList.length (other ++ rest) = rest := by
          rw [heq, List.drop_left]
        simp only [qualifier, howner]
        rw [hcons, List.cons_append] at hat hdrop ⊢
        rw [qualifyFrom, if_pos hat, hlength, hdrop, qualifyFrom_skip]
        rfl
      · -- Another word, in which the search finds nothing.
        have hat : ¬ standsAt word.toList before (other ++ rest) = true :=
          fun hat => heq (hstands.mp hat)
        have howner : onlyWord word owner (String.ofList other) = none := by
          refine if_neg fun hofList => heq ?_
          rw [← hofList, String.toList_ofList]
        have hqualifier : qualifier (onlyWord word owner) before other rest = [] := by
          simp only [qualifier, howner, ite_self]
        rw [hqualifier, List.nil_append]
        rw [hcons, List.cons_append] at hat ⊢
        rw [qualifyFrom, if_neg hat, qualifyFrom_inside _ _ tail htail c before rest hc,
          List.cons_append]

example : qualifyWord "Kind".toList "Base".toList "Kind (Base::Kind, Kinds)".toList =
    some "Base::Kind (Base::Kind, Kinds)".toList := by
  decide +kernel

/-- A class declares a type in itself whose name ends in this word. -/
def ClassRecord.Declares (c : ClassRecord) (word : String) : Prop :=
  word ≠ "" ∧ word ∈ (InnerTypes.declaredNames c).map InnerTypes.unqualified

instance ClassRecord.decidableDeclares (c : ClassRecord) (word : String) :
    Decidable (c.Declares word) :=
  inferInstanceAs (Decidable (word ≠ "" ∧ _))

/-- The name of a class is a scoped name, and the names of the types in it end in an identifier or
    in nothing. -/
structure ClassRecord.WellNamed (c : ClassRecord) : Prop where
  name : ScopedName c.name.toList
  segments : ∀ name ∈ InnerTypes.declaredNames c,
    InnerTypes.unqualified name = "" ∨ Identifier (InnerTypes.unqualified name).toList

namespace InnerTypes

theorem mem_foldl_addSegment (names segments : List String) (word : String) :
    word ∈ names.foldl addSegment segments ↔
      word ∈ segments ∨ word ≠ "" ∧ word ∈ names.map unqualified := by
  induction names generalizing segments with
  | nil => simp only [List.foldl_nil, List.map_nil, List.not_mem_nil, and_false, or_false]
  | cons name names ih =>
      have hadd : word ∈ addSegment segments name ↔
          word ∈ segments ∨ word ≠ "" ∧ word = unqualified name := by
        simp only [addSegment, String.isEmpty_iff, Bool.or_eq_true, List.contains_iff_mem]
        by_cases hskip : unqualified name = "" ∨ unqualified name ∈ segments
        · -- Nothing is added: the part is empty or there already.
          rw [if_pos hskip]
          refine ⟨Or.inl, fun h => h.elim id ?_⟩
          rintro ⟨hne, rfl⟩
          exact hskip.resolve_left hne
        · rw [if_neg hskip, List.mem_append, List.mem_singleton]
          refine or_congr_right ⟨fun heq => ⟨?_, heq⟩, And.right⟩
          rw [heq]
          exact fun hempty => hskip (Or.inl hempty)
      rw [List.foldl_cons, ih, hadd, List.map_cons, List.mem_cons, or_assoc, ← and_or_left]

/-- The names a scope searches for. -/
theorem mem_segments_of (c : ClassRecord) (word : String) :
    word ∈ (InnerTypes.of c).segments ↔ c.Declares word := by
  rw [InnerTypes.of, mem_foldl_addSegment]
  simp only [List.not_mem_nil, false_or]
  rfl

/-- The owner a scope has for a word: its own, if the word is one of its names and no template
    parameter hides it. -/
def owner? (s : InnerTypes) (params : List String) (word : String) : Option String :=
  if word ∈ s.segments ∧ word ∉ params then some s.owner else none

/-- The owner of a scope has a scoped name, and the names searched for are identifiers. -/
structure WellNamed (s : InnerTypes) : Prop where
  owner : ScopedName s.owner.toList
  segments : ∀ word ∈ s.segments, Identifier word.toList

theorem wellNamed_of (c : ClassRecord) (h : c.WellNamed) : (InnerTypes.of c).WellNamed := by
  refine ⟨h.name, fun word hmem => ?_⟩
  rcases (mem_segments_of c word).mp hmem with ⟨hne, hdeclared⟩
  rcases List.mem_map.mp hdeclared with ⟨name, hname, rfl⟩
  exact (h.segments name hname).resolve_left hne

section Searches

variable (s : InnerTypes)

theorem qualifyWord_eq_qualifyWords (segment : String) (hsegment : Identifier segment.toList)
    (text : List Char) :
    qualifyWord segment.toList s.owner.toList text =
      let result := qualifyWords (onlyWord segment s.owner) [] text
      if result = text then none else some result := by
  rw [qualifyWord, qualifyFrom_eq_qualifyWords segment s.owner hsegment text []
    (Or.inl endsWord_nil)]

/-- Searching for one name of a scope is a pass. -/
theorem toList_qualifySegment (segment : String) (hsegment : Identifier segment.toList)
    (type : Option String × String) :
    (s.qualifySegment type segment).2.toList =
      qualifyWords (onlyWord segment s.owner) [] type.2.toList := by
  rw [qualifySegment, qualifyWord_eq_qualifyWords s segment hsegment]
  by_cases hsame : qualifyWords (onlyWord segment s.owner) [] type.2.toList = type.2.toList
  · -- No change is reported, and there is none.
    simp only [if_pos hsame]
    exact hsame.symm
  · simp only [if_neg hsame, String.toList_ofList]

theorem qualifySegment_eq_self (segment : String) (hsegment : Identifier segment.toList)
    (type : Option String × String)
    (hfixed : qualifyWords (onlyWord segment s.owner) [] type.2.toList = type.2.toList) :
    s.qualifySegment type segment = type := by
  rw [qualifySegment, qualifyWord_eq_qualifyWords s segment hsegment]
  simp only [if_pos hfixed]

/-- The text reported as changed is the text that the searches have come to. -/
theorem getD_foldl_qualifySegment (segments : List String) (original : String)
    (type : Option String × String) (h : type.1.getD original = type.2) :
    (segments.foldl s.qualifySegment type).1.getD original =
      (segments.foldl s.qualifySegment type).2 := by
  induction segments generalizing type with
  | nil => exact h
  | cons segment segments ih =>
      rw [List.foldl_cons]
      refine ih _ ?_
      unfold qualifySegment
      cases qualifyWord segment.toList s.owner.toList type.2.toList with
      | none => exact h
      | some changed => rfl

theorem foldl_qualifySegment_eq_self (segments : List String) (type : Option String × String)
    (hsegments : ∀ word ∈ segments, s.qualifySegment type word = type) :
    segments.foldl s.qualifySegment type = type := by
  induction segments with
  | nil => rfl
  | cons segment segments ih =>
      rw [List.foldl_cons, hsegments segment (List.mem_cons_self ..)]
      exact ih fun word hmem => hsegments word (List.mem_cons_of_mem _ hmem)

/-- Searching for names one after the other is one pass that knows the owner of all of them. -/
theorem toList_foldl_qualifySegment (howner : ScopedName s.owner.toList) (segments : List String)
    (hsegments : ∀ word ∈ segments, Identifier word.toList) (type : Option String × String) :
    (segments.foldl s.qualifySegment type).2.toList =
      qualifyWords (fun word => if word ∈ segments then some s.owner else none) []
        type.2.toList := by
  induction segments generalizing type with
  | nil =>
      have hnone : (fun word => if word ∈ [] then some s.owner else none) =
          fun _ : String => (none : Option String) := by
        funext word
        exact if_neg List.not_mem_nil
      rw [hnone, qualifyWords_none]
      rfl
  | cons segment segments ih =>
      have hsegment := hsegments segment (List.mem_cons_self ..)
      have honly : ∀ word owner, onlyWord segment s.owner word = some owner →
          ScopedName owner.toList := by
        intro word owner heq
        rw [← Option.some.inj (Option.ite_none_right_eq_some.mp heq).2]
        exact howner
      -- The owner of this name, or else of one of the others.
      have hor : (fun word => (onlyWord segment s.owner word).or
          (if word ∈ segments then some s.owner else none)) =
          fun word => if word ∈ segment :: segments then some s.owner else none := by
        funext word
        by_cases heq : word = segment
        · rw [onlyWord, if_pos heq, Option.some_or, if_pos (List.mem_cons.mpr (Or.inl heq))]
        · rw [onlyWord, if_neg heq, Option.none_or]
          simp only [List.mem_cons, heq, false_or]
      rw [List.foldl_cons, ih (fun word hmem => hsegments word (List.mem_cons_of_mem _ hmem)),
        toList_qualifySegment s segment hsegment,
        qualifyWords_qualifyWords _ _ honly _ _ _ (fun _ => rfl), hor]

end Searches

section Passes

variable (s : InnerTypes) (params : List String) (h : s.WellNamed)

/-- The names that are not hidden are those that have an owner. -/
theorem owner?_eq (word : String) :
    s.owner? params word =
      if word ∈ s.segments.filter (!params.contains ·) then some s.owner else none := by
  simp only [owner?, List.mem_filter, Bool.not_eq_true', List.contains_eq_mem,
    decide_eq_false_iff_not]

theorem mem_segments_of_mem_filter (word : String)
    (hmem : word ∈ s.segments.filter (!params.contains ·)) : word ∈ s.segments :=
  (List.mem_filter.mp hmem).1

theorem scopedName_of_owner? (h : s.WellNamed) (word owner : String)
    (heq : s.owner? params word = some owner) : ScopedName owner.toList := by
  rw [← Option.some.inj (Option.ite_none_right_eq_some.mp heq).2]
  exact h.owner

include h

/-- Qualifying with a scope is the pass that gives its names their owner. -/
theorem toList_qualify (type : String) :
    (s.qualify params type).toList = qualifyWords (s.owner? params) [] type.toList := by
  have hsegments : ∀ word ∈ s.segments.filter (!params.contains ·), Identifier word.toList :=
    fun word hmem => h.segments word (s.mem_segments_of_mem_filter params word hmem)
  have howner := funext (s.owner?_eq params)
  rw [qualify, qualify?, s.getD_foldl_qualifySegment _ type (none, type) rfl,
    s.toList_foldl_qualifySegment h.owner _ hsegments, ← howner]

/-- A scope reports no change where its pass makes none. -/
theorem qualify?_eq_none (type : String)
    (hfixed : qualifyWords (s.owner? params) [] type.toList = type.toList) :
    s.qualify? params type = none := by
  -- No single search changes anything, since the pass knows the owners of all of them.
  have hsearch : ∀ word ∈ s.segments.filter (!params.contains ·),
      s.qualifySegment (none, type) word = (none, type) := by
    intro word hmem
    have hword := s.mem_segments_of_mem_filter params word hmem
    refine s.qualifySegment_eq_self word (h.segments word hword) _ ?_
    have hless : ∀ other, s.owner? params other = none → onlyWord word s.owner other = none := by
      intro other hnone
      refine if_neg fun heq => ?_
      rw [heq, owner?_eq, if_pos hmem] at hnone
      exact absurd hnone (Option.some_ne_none _)
    have hidempotent := qualifyWords_idempotent (s.owner? params) (onlyWord word s.owner)
      (s.scopedName_of_owner? params h) hless type.toList []
    rw [hfixed] at hidempotent
    exact hidempotent
  rw [qualify?, s.foldl_qualifySegment_eq_self _ _ hsearch]

end Passes

end InnerTypes

end HeaderBinding
