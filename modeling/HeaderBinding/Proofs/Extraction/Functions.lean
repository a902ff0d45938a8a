import Mathlib.Data.List.Perm.Subperm
import HeaderBinding.Proofs.Extraction.Declarators
import HeaderBinding.Proofs.Extraction.Operators

/-!
# Functions Outside of Classes

Which of the functions and operators that stand outside of classes are recorded.

Such a function is declared if it has a return type and a name that is not qualified (`freeName?`).
Its record has the name as it is spelled, without the namespaces around it, unlike the records of
classes, enumerations and typedefs. A function may be declared several times, and of the functions
that have the same key only the first is recorded. So a header records the first function of each
key, in order (`extractHeader_functions`), and nothing else is lost.

But the key is made of the record, and there is no namespace in it. Two functions that are spelled
alike in different namespaces are different functions with one key, and the second is dropped
(`extractHeader_function_lost`). As long as the functions of a key are all in one namespace, a
function is left out only if the same namespace has declared it before.

## Main definitions

* `firstsBy`: The items of a list that are the first of their key.
* `freeName?`: The name of a function that an item declares outside of classes.
* `DeclaresFunctions`: The functions that a header declares outside of classes, with namespaces.
* `Records`: The first functions of each key are recorded.
* `KeepsEach`: Functions of different namespaces are all recorded.
* `NamesFree`: A function has a name that is not qualified.

## Theorems

* `mem_firstsBy`, `firstsBy_congr`, `filter_firstsBy`: What is the first of its key.
* `functionItem_of_namesFree`, `namesFree_of_functionItem`: Which functions are filed as such.
* `functions_itemFilings`: The function on the list of an item.
* `Collector.functions_fileAll`: What is recorded is the first of each key on the lists.
* `extractHeader_functions`: The functions and operators of a header.
* `names_of_declaresFunctions`: The declared functions, by namespace and name, from the tree.
* `extractHeader_function_lost`: A function that is lost to one of another namespace.
-/

namespace HeaderBinding

section Firsts

variable {α β κ ι : Type} [DecidableEq κ] [DecidableEq ι]

/-- The items of a list that are the first of their key, in order. -/
def firstsBy (key : α → κ) : List α → List α
  | [] => []
  | a :: rest => a :: (firstsBy key rest).filter (key · ≠ key a)

/-- An item is kept if none in front of it has its key. -/
theorem mem_firstsBy {key : α → κ} {items : List α} {a : α} :
    a ∈ firstsBy key items ↔
      ∃ front back, items = front ++ a :: back ∧ ∀ b ∈ front, key b ≠ key a := by
  induction items with
  | nil =>
      refine iff_of_false List.not_mem_nil ?_
      rintro ⟨front, back, hitems, _⟩
      exact List.append_ne_nil_of_right_ne_nil _ (List.cons_ne_nil _ _) hitems.symm
  | cons c rest ih =>
      rw [firstsBy, List.mem_cons, List.mem_filter, ih, decide_eq_true_eq]
      constructor
      · rintro (rfl | ⟨⟨front, back, rfl, hfront⟩, hne⟩)
        · exact ⟨[], rest, rfl, fun _ h => absurd h List.not_mem_nil⟩
        · exact ⟨c :: front, back, rfl, List.forall_mem_cons.mpr ⟨Ne.symm hne, hfront⟩⟩
      · rintro ⟨front, back, hitems, hfront⟩
        cases front with
        | nil => exact Or.inl (List.cons.inj hitems).1.symm
        | cons d front =>
            rcases List.cons.inj hitems with ⟨rfl, rfl⟩
            rw [List.forall_mem_cons] at hfront
            exact Or.inr ⟨⟨front, back, rfl, hfront.2⟩, Ne.symm hfront.1⟩

theorem mem_of_mem_firstsBy {key : α → κ} {items : List α} {a : α} (h : a ∈ firstsBy key items) :
    a ∈ items := by
  rcases mem_firstsBy.mp h with ⟨front, back, rfl, _⟩
  exact List.mem_append_right _ List.mem_cons_self

/-- Where every item has a key of its own, all are kept. -/
theorem firstsBy_eq_self {key : α → κ} {items : List α} (h : (items.map key).Nodup) :
    firstsBy key items = items := by
  induction items with
  | nil => rfl
  | cons a rest ih =>
      rw [List.map_cons, List.nodup_cons] at h
      rw [firstsBy, ih h.2]
      refine congrArg (a :: ·) (List.filter_eq_self.mpr fun b hb => decide_eq_true fun hkey => ?_)
      exact h.1 (hkey ▸ List.mem_map_of_mem hb)

/-- Keys that tell the same items apart keep the same items. -/
theorem firstsBy_congr {key : α → κ} {key' : α → ι} {items : List α}
    (h : ∀ a ∈ items, ∀ b ∈ items, key a = key b ↔ key' a = key' b) :
    firstsBy key items = firstsBy key' items := by
  induction items with
  | nil => rfl
  | cons a rest ih =>
      have hrest := ih fun b hb c hc => h b (List.mem_cons_of_mem _ hb) c (List.mem_cons_of_mem _ hc)
      rw [firstsBy, firstsBy, hrest]
      refine congrArg (a :: ·) (List.filter_congr fun b hb => ?_)
      have hb := List.mem_cons_of_mem a (mem_of_mem_firstsBy hb)
      rw [decide_eq_decide, ne_eq, ne_eq, h b hb a List.mem_cons_self]

/-- Whether the items of some keys are taken before or after makes no difference. -/
theorem filter_firstsBy {key : α → κ} {p : α → Bool}
    (hp : ∀ a b, key a = key b → p a = p b) (items : List α) :
    (firstsBy key items).filter p = firstsBy key (items.filter p) := by
  induction items with
  | nil => rfl
  | cons a rest ih =>
      rw [firstsBy, List.filter_cons, List.filter_filter, List.filter_cons]
      cases ha : p a with
      | true =>
          rw [if_pos rfl, if_pos rfl, firstsBy, ← ih, List.filter_filter]
          exact congrArg (a :: ·) (List.filter_congr fun b _ => Bool.and_comm _ _)
      | false =>
          rw [if_neg Bool.false_ne_true, if_neg Bool.false_ne_true, ← ih]
          -- What has the key of an item that is not taken is not taken either.
          refine List.filter_congr fun b _ => ?_
          by_cases hb : key b = key a
          · rw [hp b a hb, ha, Bool.false_and]
          · rw [decide_eq_true hb, Bool.and_true]

theorem firstsBy_map (key : β → κ) (f : α → β) (items : List α) :
    firstsBy key (items.map f) = (firstsBy (fun a => key (f a)) items).map f := by
  induction items with
  | nil => rfl
  | cons a rest ih =>
      rw [List.map_cons, firstsBy, firstsBy, List.map_cons, ih, List.filter_map]
      rfl

end Firsts

/-- Adding functions one by one, unless one with their key is there, adds the first of each key that
    is not there. -/
theorem foldl_addDistinct (functions recorded : List FreeFunction) :
    functions.foldl Extraction.Collector.addDistinct recorded =
      recorded ++ (firstsBy (·.signatureKey) functions).filter
        fun f => f.signatureKey ∉ recorded.map (·.signatureKey) := by
  induction functions generalizing recorded with
  | nil => rw [List.foldl_nil, firstsBy, List.filter_nil, List.append_nil]
  | cons f functions ih =>
      have hthere : (recorded.any (·.signatureKey == f.signatureKey)) = true ↔
          f.signatureKey ∈ recorded.map (·.signatureKey) := by
        simp only [List.any_eq_true, beq_iff_eq, List.mem_map]
      rw [List.foldl_cons, ih, Extraction.Collector.addDistinct, firstsBy, List.filter_cons,
        List.filter_filter]
      -- The first function is there already, or it is added and joins the keys that are.
      by_cases hf : f.signatureKey ∈ recorded.map (·.signatureKey)
      · rw [if_pos (hthere.mpr hf), if_neg (by rw [decide_eq_true_eq]; exact fun hnot => hnot hf)]
        refine congrArg (recorded ++ ·) (List.filter_congr fun g _ => ?_)
        by_cases hg : g.signatureKey = f.signatureKey
        · rw [hg, decide_eq_false (fun hnot => hnot hf), Bool.false_and]
        · rw [decide_eq_true hg, Bool.and_true]
      · rw [if_neg (fun hany => hf (hthere.mp hany)), if_pos (decide_eq_true hf),
          List.append_assoc, List.singleton_append]
        refine congrArg (fun rest => recorded ++ f :: rest) (List.filter_congr fun g _ => ?_)
        rw [List.map_append, List.map_singleton, ← Bool.decide_and, decide_eq_decide,
          List.mem_append, List.mem_singleton, not_or]

namespace Extraction

open Syntax

/-- A kind of node that is a name without a scope. -/
def isPlainName (kind : String) : Bool :=
  kind == "identifier" || kind == "operator_name"

/-- The function that is filed, if it is one. -/
def Filing.function? : Filing → Option FreeFunction
  | function f => some f
  | _ => none

section Declared

variable (code : List Char)

/-- The name of the function that an item of a scope declares outside of classes, if it has a return
    type and its name is not qualified. -/
def freeName? (item : Node) : Option String :=
  if (ScopeItem.ofKind item.kind = .declaration ∨ ScopeItem.ofKind item.kind = .function) ∧
      (item.child? "type").isSome then
    (declaredFunction? item).bind fun function =>
      ((function.child? "declarator").filter (isPlainName ·.node.kind)).map fun name =>
        String.ofList (normalize (spelled code name.node))
  else none

/-- An item is read as the record of the function that it declares. -/
def ReadsFree (n : Located) (f : FreeFunction) : Prop :=
  freeName? code n.node = some f.name ∧
    ∃ function m, ReadsFunction code n function f.name m ∧ f.fullName = m.fullName ∧
      f.args = m.args ∧ f.returnType = m.returnType ∧ f.comment = m.comment ∧
      f.isInline = (n.node.kind == "function_definition" || isSpecified code n.node "inline")

/-- The functions that a header declares outside of classes, in order, each with the namespaces
    around it. -/
def DeclaresFunctions (tree : Node) (declared : List (List String × FreeFunction)) : Prop :=
  ∃ items : List (List String × Located),
    items.map (fun item => (item.1, item.2.node)) = scopeItems code [] tree.children ∧
    List.Forall₂ (fun item entry => entry.1 = item.1 ∧ ReadsFree code item.2 entry.2)
      (items.filter fun item => (freeName? code item.2.node).isSome) declared

end Declared

/-- The functions among those that are declared. -/
def plainFunctions (declared : List (List String × FreeFunction)) :
    List (List String × FreeFunction) :=
  declared.filter fun entry => ¬ IsOperatorName entry.2.name

/-- The operators among the functions that are declared. -/
def operatorFunctions (declared : List (List String × FreeFunction)) :
    List (List String × FreeFunction) :=
  declared.filter fun entry => IsOperatorName entry.2.name

/-- Of the functions that are declared, those are left out that come behind another of the same
    namespace and key. -/
def keptInNamespaces (declared : List (List String × FreeFunction)) :
    List (List String × FreeFunction) :=
  firstsBy (fun entry => (entry.1, entry.2.signatureKey)) declared

/-- Of the functions that are declared, the first of each key is recorded. Where the functions of a
    key are all in one namespace, one of them is left out only if that namespace has declared it
    before. -/
def Records (declared : List (List String × FreeFunction)) (recorded : List FreeFunction) : Prop :=
  recorded = (firstsBy (·.2.signatureKey) declared).map (·.2) ∧
    ∀ key, (∀ entry ∈ declared, ∀ other ∈ declared, entry.2.signatureKey = key →
        other.2.signatureKey = key → entry.1 = other.1) →
      recorded.filter (·.signatureKey = key) =
        ((keptInNamespaces declared).filter (·.2.signatureKey = key)).map (·.2)

/-- Functions are left out only if the same namespace has declared them before. -/
def KeepsEach (declared : List (List String × FreeFunction)) (recorded : List FreeFunction) :
    Prop :=
  List.Subperm ((keptInNamespaces declared).map (·.2)) recorded

theorem records_firstsBy (declared : List (List String × FreeFunction)) :
    Records declared (firstsBy (·.signatureKey) (declared.map (·.2))) := by
  refine ⟨firstsBy_map _ _ declared, fun key hkey => ?_⟩
  have hsame : ∀ f g : FreeFunction, f.signatureKey = g.signatureKey →
      decide (f.signatureKey = key) = decide (g.signatureKey = key) :=
    fun f g h => by rw [h]
  rw [filter_firstsBy hsame, List.filter_map, firstsBy_map, keptInNamespaces,
    filter_firstsBy fun a b h => hsame a.2 b.2 (Prod.mk.inj h).2]
  -- What is left has one key and one namespace, so neither tells anything apart.
  refine congrArg (List.map _) (firstsBy_congr fun a ha b hb => ?_)
  have hmem : ∀ entry, entry ∈ declared.filter
      ((fun f : FreeFunction => decide (f.signatureKey = key)) ∘ (·.2)) →
      entry ∈ declared ∧ entry.2.signatureKey = key :=
    fun entry h => ⟨(List.mem_filter.mp h).1, of_decide_eq_true (List.mem_filter.mp h).2⟩
  have hnamespace := hkey a (hmem a ha).1 b (hmem b hb).1 (hmem a ha).2 (hmem b hb).2
  rw [Prod.mk.injEq, hnamespace, eq_self, true_and]

section Items

variable {code : List Char} {n : Located} {namespaces : List String} {filings : List Filing}

variable (n) in
/-- A function has a return type, and a declarator that spells its name without a scope. -/
def NamesFree (function : Node) (suffix : List Char) (declarator : Located) : Prop :=
  ((n.node.child? "declarator").bind fun d => functionDeclarator? d.node) =
      some (function, suffix) ∧
    function.child? "declarator" = some declarator ∧ (n.node.child? "type").isSome ∧
    isPlainName declarator.node.kind

theorem freeName?_eq_some_iff {name : String}
    (hkind : ScopeItem.ofKind n.node.kind = .declaration ∨
      ScopeItem.ofKind n.node.kind = .function) :
    freeName? code n.node = some name ↔
      ∃ function suffix declarator, NamesFree n function suffix declarator ∧
        name = String.ofList (normalize (spelled code declarator.node)) := by
  simp only [freeName?, declaredFunction?, Option.ite_none_right_eq_some, Option.bind_eq_some_iff,
    Option.map_eq_some_iff, Option.filter_eq_some_iff]
  constructor
  · rintro ⟨⟨_, htype⟩, _, ⟨⟨function, suffix⟩, hfunction, rfl⟩, declarator, hdeclarator, rfl⟩
    exact ⟨function, suffix, declarator,
      ⟨Option.bind_eq_some_iff.mpr hfunction, hdeclarator.1, htype, hdeclarator.2⟩, rfl⟩
  · rintro ⟨function, suffix, declarator, ⟨hfunction, hdeclarator, htype, hplain⟩, rfl⟩
    exact ⟨⟨hkind, htype⟩, function, ⟨_, Option.bind_eq_some_iff.mp hfunction, rfl⟩, declarator,
      ⟨hdeclarator, hplain⟩, rfl⟩

/-- A function whose name is not qualified is filed under that name. -/
theorem functionItem_of_namesFree {function : Node} {suffix : List Char} {declarator : Located}
    (hnames : NamesFree n function suffix declarator)
    (h : functionItem code n namespaces = .ok filings) :
    ∃ f m, filings = [.function f] ∧
      f.name = String.ofList (normalize (spelled code declarator.node)) ∧
      ReadsFunction code n function f.name m ∧ f.fullName = m.fullName ∧ f.args = m.args ∧
      f.returnType = m.returnType ∧ f.comment = m.comment ∧
      f.isInline = (n.node.kind == "function_definition" || isSpecified code n.node "inline") := by
  rcases hnames with ⟨hfunction, hdeclarator, htype, hplain⟩
  -- A plain name is not qualified, so the function is not set aside for a class.
  have hqualified : (declarator.node.kind == "qualified_identifier") = false := by
    refine beq_eq_false_iff_ne.mpr fun hkind => ?_
    rw [hkind] at hplain
    exact absurd hplain (by decide)
  simp only [functionItem, hfunction, hdeclarator] at h
  rw [if_neg (by rw [← Option.not_isSome, htype]; exact Bool.false_ne_true), hqualified,
    if_neg Bool.false_ne_true, if_pos (by rw [← isPlainName]; exact hplain)] at h
  simp only [bind_eq_ok] at h
  rcases h with ⟨text, htext, m, hm, h⟩
  have hname := (callable_spec hm).1
  have hread : ReadsFunction code n function m.name m := ⟨suffix, hfunction, hname.symm ▸ hm⟩
  have hspelled : m.name = String.ofList (normalize (spelled code declarator.node)) := by
    rw [hname, spelled_eq htext]
  -- A definition is inline without a specifier that says so.
  split at h
  · next hdefinition =>
    simp only [pure_bind, pure_eq_ok] at h
    refine ⟨_, m, h.symm, hspelled, hread, rfl, rfl, rfl, rfl, ?_⟩
    rw [hdefinition, Bool.true_or]
  · next hdefinition =>
    simp only [bind_eq_ok, pure_eq_ok] at h
    rcases h with ⟨isInline, hinline, h⟩
    refine ⟨_, m, h.symm, hspelled, hread, rfl, rfl, rfl, rfl, ?_⟩
    rw [eq_false_of_ne_true hdefinition, Bool.false_or, isSpecified_eq hinline]

/-- Nothing is filed as a function but what has such a name. -/
theorem namesFree_of_functionItem {f : FreeFunction}
    (h : functionItem code n namespaces = .ok [.function f]) :
    ∃ function suffix declarator, NamesFree n function suffix declarator := by
  unfold functionItem at h
  split at h
  · exact absurd (pure_eq_ok.mp h) (List.cons_ne_nil _ _).symm
  · next function suffix hfunction =>
    split at h
    · exact absurd (pure_eq_ok.mp h) (List.cons_ne_nil _ _).symm
    · next declarator hdeclarator =>
      split at h
      · exact absurd (pure_eq_ok.mp h) (List.cons_ne_nil _ _).symm
      · next htype =>
        dsimp only at h
        split at h
        · rw [bind_eq_ok] at h
          rcases h with ⟨text, _, h⟩
          split at h
          · exact absurd (pure_eq_ok.mp h) (List.cons_ne_nil _ _).symm
          · simp only [bind_eq_ok, pure_eq_ok] at h
            rcases h with ⟨m, _, hsetAside⟩
            exact Filing.noConfusion (List.cons.inj hsetAside).1
        · split at h
          · next hplain =>
            refine ⟨function, suffix, declarator, hfunction, hdeclarator, ?_, hplain⟩
            rw [← Option.not_isNone, eq_false_of_ne_true htype, Bool.not_false]
          · exact absurd (pure_eq_ok.mp h) (List.cons_ne_nil _ _).symm

/-- A function declaration or definition files the function that it declares outside of classes, and
    no other. -/
theorem functions_functionItem
    (hkind : ScopeItem.ofKind n.node.kind = .declaration ∨
      ScopeItem.ofKind n.node.kind = .function)
    (h : functionItem code n namespaces = .ok filings) :
    (freeName? code n.node = none ∧ filings.filterMap (·.function?) = []) ∨
      ∃ f, ReadsFree code n f ∧ filings.filterMap (·.function?) = [f] := by
  cases hname : freeName? code n.node with
  | some name =>
      rcases (freeName?_eq_some_iff hkind).mp hname with ⟨function, suffix, declarator, hnames, rfl⟩
      rcases functionItem_of_namesFree hnames h with ⟨f, m, rfl, hf, hread⟩
      exact Or.inr ⟨f, ⟨hname.trans (congrArg some hf.symm), function, m, hread⟩, rfl⟩
  | none =>
      refine Or.inl ⟨rfl, ?_⟩
      rcases functionItem_cases h with rfl | ⟨_, f, _, _, _, rfl⟩ | ⟨_, _, _, _, _, _, rfl⟩
      · rfl
      · -- A function that is filed has a name.
        rcases namesFree_of_functionItem h with ⟨function, suffix, declarator, hnames⟩
        have hsome : freeName? code n.node = some _ :=
          (freeName?_eq_some_iff hkind).mpr ⟨function, suffix, declarator, hnames, rfl⟩
        exact absurd (hname.symm.trans hsome) (Option.some_ne_none _).symm
      · rfl

theorem functions_classItem (h : classItem code n namespaces = .ok filings) :
    filings.filterMap (·.function?) = [] := by
  rcases classItem_cases h with rfl | ⟨_, rfl⟩ | ⟨_, rfl, _⟩
  all_goals rfl

theorem functions_enumItem (h : enumItem code n namespaces = .ok filings) :
    filings.filterMap (·.function?) = [] := by
  rcases enumItem_cases h with rfl | ⟨_, rfl⟩
  all_goals rfl

theorem functions_declaredType (h : declaredType code n namespaces = .ok filings) :
    filings.filterMap (·.function?) = [] := by
  unfold declaredType at h
  split at h
  · split at h
    · exact functions_classItem h
    · split at h
      · exact functions_enumItem h
      · rw [← pure_eq_ok.mp h]
        rfl
  · rw [← pure_eq_ok.mp h]
    rfl

/-- The function on the list of an item is the one that it declares outside of classes. -/
theorem functions_itemFilings (h : itemFilings code n namespaces = .ok filings) :
    (freeName? code n.node = none ∧ filings.filterMap (·.function?) = []) ∨
      ∃ f, ReadsFree code n f ∧ filings.filterMap (·.function?) = [f] := by
  unfold itemFilings at h
  -- Only functions and declarations file a function; of the other kinds none has such a name.
  by_cases hfunction : ScopeItem.ofKind n.node.kind = .function
  · simp only [hfunction] at h
    exact functions_functionItem (Or.inr hfunction) h
  · by_cases hdeclaration : ScopeItem.ofKind n.node.kind = .declaration
    · simp only [hdeclaration, bind_eq_ok, pure_eq_ok] at h
      rcases h with ⟨first, hfirst, second, hsecond, rfl⟩
      rw [List.filterMap_append, functions_declaredType hfirst, List.nil_append]
      exact functions_functionItem (Or.inl hdeclaration) hsecond
    · refine Or.inl ⟨if_neg fun hkind => hkind.1.elim hdeclaration hfunction, ?_⟩
      cases hkind : ScopeItem.ofKind n.node.kind with
      | function => exact absurd hkind hfunction
      | declaration => exact absurd hkind hdeclaration
      | «include» =>
          simp only [hkind] at h
          rcases includeItem_cases h with rfl | ⟨_, rfl⟩
          all_goals rfl
      | classType =>
          simp only [hkind] at h
          exact functions_classItem h
      | enum =>
          simp only [hkind] at h
          exact functions_enumItem h
      | template =>
          simp only [hkind] at h
          refine List.filterMap_eq_nil_iff.mpr fun f hf => ?_
          rcases mem_templateItem h hf with ⟨_, _, _, _, _, _, rfl⟩
          rfl
      | typedef | aliasType =>
          simp only [hkind, bind_eq_ok, pure_eq_ok] at h
          rcases h with ⟨t, _, rfl⟩
          rfl
      | block | namespaceBlock | other =>
          rw [hkind] at h
          rw [← pure_eq_ok.mp h]
          rfl

/-- The functions on the lists of several items are those that the items declare. -/
theorem functions_lists {items : List (List String × Located)} {lists : List (List Filing)}
    (h : List.Forall₂ (fun item filings => itemFilings code item.2 item.1 = .ok filings)
      items lists) :
    ∃ declared : List (List String × FreeFunction),
      lists.flatten.filterMap (·.function?) = declared.map (·.2) ∧
      List.Forall₂ (fun item entry => entry.1 = item.1 ∧ ReadsFree code item.2 entry.2)
        (items.filter fun item => (freeName? code item.2.node).isSome) declared := by
  induction h with
  | nil => exact ⟨[], rfl, .nil⟩
  | @cons item filings items lists hitem _ ih =>
      rcases ih with ⟨declared, hdeclared, hread⟩
      rw [List.flatten_cons, List.filterMap_append, hdeclared, List.filter_cons]
      rcases functions_itemFilings hitem with ⟨hnone, hfilings⟩ | ⟨f, hf, hfilings⟩
      · rw [hfilings, hnone, Option.isSome_none, if_neg Bool.false_ne_true]
        exact ⟨declared, rfl, hread⟩
      · rw [hfilings, hf.1, Option.isSome_some, if_pos rfl]
        exact ⟨(item.1, f) :: declared, rfl, .cons ⟨rfl, hf⟩ hread⟩

end Items

namespace Collector

variable {s s' : Collector} {filings : List Filing}

/-- What filing one thing adds to the functions and operators. -/
theorem functions_file {f : Filing} (h : s.file f = .ok s') :
    s'.header.functions = (f.function?.toList.filter (¬ IsOperatorName ·.name)).foldl addDistinct
        s.header.functions ∧
      s'.header.operators = (f.function?.toList.filter (IsOperatorName ·.name)).foldl addDistinct
        s.header.operators := by
  have hnone : s.header.functions = [].foldl addDistinct s.header.functions ∧
      s.header.operators = [].foldl addDistinct s.header.operators := ⟨rfl, rfl⟩
  cases f with
  | dependency | enumeration | typedef | setAside => exact pure_eq_ok.mp h ▸ hnone
  | forward name =>
      change pure (s.addForward name) = Except.ok s' at h
      rw [← pure_eq_ok.mp h, addForward]
      split
      · exact hnone
      · exact hnone
  | record c =>
      rcases insertClass_cases h with ⟨_, rfl⟩ | ⟨_, _, _, _, rfl⟩
      · exact hnone
      · exact hnone
  | template c params =>
      rcases insertTemplate_cases h with ⟨_, rfl⟩ | ⟨_, _, _, _, rfl⟩
      · exact hnone
      · exact hnone
  | outOfLine entry =>
      rcases fileOutOfLine_cases h with rfl | ⟨_, _, _, _, _, rfl⟩
      · exact hnone
      · exact hnone
  | function f =>
      change pure (s.insertFunction f) = Except.ok s' at h
      rw [← pure_eq_ok.mp h, insertFunction]
      change _ = ([f].filter _).foldl _ _ ∧ _ = ([f].filter _).foldl _ _
      rw [List.filter_cons, List.filter_cons, List.filter_nil, List.filter_nil]
      -- One function goes on one of the two lists and leaves the other.
      by_cases hname : IsOperatorName f.name
      · have hplain : ¬ decide (¬ IsOperatorName f.name) = true :=
          fun hnot => of_decide_eq_true hnot hname
        rw [if_pos (List.isPrefixOf_iff_prefix.mpr hname), if_neg hplain,
          if_pos (decide_eq_true hname)]
        exact ⟨rfl, rfl⟩
      · have hoperator : ¬ decide (IsOperatorName f.name) = true :=
          fun hyes => hname (of_decide_eq_true hyes)
        rw [if_neg (fun hstart => hname (List.isPrefixOf_iff_prefix.mp hstart)), if_neg hoperator,
          if_pos (decide_eq_true hname)]
        exact ⟨rfl, rfl⟩

/-- What is recorded is added one by one, in the order of the lists. -/
theorem functions_fileAll (h : s.fileAll filings = .ok s') :
    s'.header.functions = ((filings.filterMap (·.function?)).filter (¬ IsOperatorName ·.name)).foldl
        addDistinct s.header.functions ∧
      s'.header.operators = ((filings.filterMap (·.function?)).filter (IsOperatorName ·.name)).foldl
        addDistinct s.header.operators := by
  unfold fileAll at h
  induction filings generalizing s with
  | nil => exact pure_eq_ok.mp h ▸ ⟨rfl, rfl⟩
  | cons f filings ih =>
      rw [List.foldlM_cons, bind_eq_ok] at h
      rcases h with ⟨s₁, hfile, hrest⟩
      have hcons : (f :: filings).filterMap (·.function?) =
          f.function?.toList ++ filings.filterMap (·.function?) := by
        rw [List.filterMap_cons]
        cases f.function? with
        | none => rfl
        | some f => rfl
      rw [(ih hrest).1, (ih hrest).2, (functions_file hfile).1, (functions_file hfile).2, hcons,
        List.filter_append, List.filter_append, List.foldl_append, List.foldl_append]
      exact ⟨rfl, rfl⟩

end Collector

/-- A header records the first of the functions of each key that it declares outside of classes, in
    order, and the same holds of the operators. -/
theorem extractHeader_functions (code : List Char) (path : Path) (tree : Node) (header : Header)
    (h : extractHeader code path tree = .ok header) :
    ∃ declared : List (List String × FreeFunction), DeclaresFunctions code tree declared ∧
      Records (plainFunctions declared) header.functions ∧
      Records (operatorFunctions declared) header.operators := by
  rcases extractHeader_files h with ⟨items, lists, s, hitems, hlists, hfile, rfl⟩
  rcases functions_lists hlists with ⟨declared, hdeclared, hread⟩
  -- What is set aside is filed in classes.
  have hlater : ∀ entries : List (String × Method),
      (entries.map Filing.outOfLine).filterMap (·.function?) = [] := by
    intro entries
    rw [List.filterMap_map]
    exact List.filterMap_eq_nil_iff.mpr fun _ _ => rfl
  have hall := Collector.functions_fileAll hfile
  -- Nothing is recorded before the walk, so nothing that is read is there already.
  have hstart : ∀ functions : List FreeFunction, functions.foldl Collector.addDistinct [] =
      firstsBy (·.signatureKey) functions := by
    intro functions
    rw [foldl_addDistinct, List.nil_append]
    exact List.filter_eq_self.mpr fun _ _ => rfl
  rw [List.filterMap_append, hlater, List.append_nil, hdeclared, List.filter_map,
    List.filter_map] at hall
  refine ⟨declared, ⟨items, hitems, hread⟩, ?_, ?_⟩
  · change Records _ s.header.functions
    rw [hall.1]
    exact (hstart _).symm ▸ records_firstsBy (plainFunctions declared)
  · change Records _ s.header.operators
    rw [hall.2]
    exact (hstart _).symm ▸ records_firstsBy (operatorFunctions declared)

/-- The namespaces and names of the functions that a header declares stand in its tree. -/
theorem names_of_declaresFunctions {code : List Char} {tree : Node}
    {declared : List (List String × FreeFunction)} (h : DeclaresFunctions code tree declared) :
    declared.map (fun entry => (entry.1, entry.2.name)) =
      (scopeItems code [] tree.children).filterMap fun item =>
        (freeName? code item.2).map (item.1, ·) := by
  rcases h with ⟨items, hitems, hread⟩
  rw [← hitems]
  clear hitems
  induction items generalizing declared with
  | nil =>
      cases hread
      rfl
  | cons item items ih =>
      rw [List.map_cons, List.filterMap_cons]
      rw [List.filter_cons] at hread
      cases hname : freeName? code item.2.node with
      | none =>
          rw [hname, Option.isSome_none, if_neg Bool.false_ne_true] at hread
          exact ih hread
      | some name =>
          rw [hname, Option.isSome_some, if_pos rfl] at hread
          cases hread with
          | cons hentry hread =>
              rw [List.map_cons, ih hread, hentry.1,
                Option.some.inj (hentry.2.1.symm.trans hname)]
              rfl

section Namespaced

/-- A function in two namespaces. -/
def namespacedSource : List Char :=
  "namespace a \x7b void f(); \x7d namespace b \x7b void f(); \x7d".toList

/-- The declarator `f()` in the namespace that starts at an offset. -/
def namespacedDeclarator (start : Nat) : Node :=
  { kind := "function_declarator", named := true, start := start + 19, stop := start + 22
    fields := [("declarator", 0), ("parameters", 1)]
    children := [leaf "identifier" true (start + 19) (start + 20), noParameters (start + 20)] }

/-- The declaration `void f();` in the namespace. -/
def namespacedFunction (start : Nat) : Node :=
  { kind := "declaration", named := true, start := start + 14, stop := start + 23
    fields := [("declarator", 1), ("type", 0)]
    children := [leaf "primitive_type" true (start + 14) (start + 18), namespacedDeclarator start,
      leaf ";" false (start + 22) (start + 23)] }

/-- A namespace with the declaration. -/
def functionNamespace (start : Nat) : Node :=
  { kind := "namespace_definition", named := true, start, stop := start + 25
    fields := [("body", 2), ("name", 1)]
    children := [leaf "namespace" false start (start + 9),
      leaf "namespace_identifier" true (start + 10) (start + 11),
      { kind := "declaration_list", named := true, start := start + 12, stop := start + 25
        fields := []
        children := [leaf "\x7b" false (start + 12) (start + 13), namespacedFunction start,
          leaf "\x7d" false (start + 24) (start + 25)] }] }

/-- The tree of the header. -/
def namespacedTree : Node :=
  { kind := "translation_unit", named := true, start := 0, stop := 51, fields := []
    children := [functionNamespace 0, functionNamespace 26] }

/-- The function as it is recorded, for either namespace. -/
def voidFunction : FreeFunction :=
  { name := "f", fullName := "f()", returnType := some "void" }

/-- The record of the header. -/
def namespacedHeader : Header :=
  { Header.ofPath "gp_Test.hxx" with functions := [voidFunction] }

theorem addFunction_namespaced (start : Nat) (hstart : start = 0 ∨ start = 26)
    (namespaces : List String) (s : Collector) :
    s.addFunction namespacedSource
      ⟨namespacedFunction start, [leaf "\x7b" false (start + 12) (start + 13)]⟩ namespaces =
      .ok (s.insertFunction voidFunction) := by
  have hfunction : (((namespacedFunction start).child? "declarator").bind fun d =>
      functionDeclarator? d.node) = some (namespacedDeclarator start, []) :=
    functionDeclarator?_of_kind rfl
  simp only [Collector.addFunction, hfunction]
  rcases hstart with rfl | rfl
  · rfl
  · rfl

/-- Reading one of the namespaces files the function. -/
theorem visitItem_namespaced (start : Nat) (hstart : start = 0 ∨ start = 26) (before : List Node)
    (s : Collector) :
    visitItem namespacedSource [] before (functionNamespace start) s =
      .ok (s.insertFunction voidFunction) := by
  have hname : textOf namespacedSource (leaf "namespace_identifier" true (start + 10) (start + 11)) =
      .ok (if start = 0 then ['a'] else ['b']) := by
    rcases hstart with rfl | rfl
    · rfl
    · rfl
  change (textOf namespacedSource _ >>= fun text =>
    Collector.visitScope namespacedSource ([] ++ namespaceParts text) []
      [leaf "\x7b" false (start + 12) (start + 13), namespacedFunction start,
        leaf "\x7d" false (start + 24) (start + 25)] s) = _
  rw [hname, bind_eq_ok]
  refine ⟨_, rfl, ?_⟩
  rw [visitScope_cons, bind_eq_ok]
  refine ⟨_, rfl, ?_⟩
  rw [visitScope_cons, bind_eq_ok]
  refine ⟨s.insertFunction voidFunction, ?_, ?_⟩
  · change (do
      let s ← pure s
      s.addFunction namespacedSource ⟨namespacedFunction start, _⟩ _) = _
    exact addFunction_namespaced start hstart _ s
  · rw [visitScope_cons, bind_eq_ok]
    refine ⟨_, rfl, ?_⟩
    rw [Collector.visitScope]
    rfl

theorem extractHeader_namespaced :
    extractHeader namespacedSource "gp_Test.hxx" namespacedTree = .ok namespacedHeader := by
  rw [extractHeader, namespacedTree, bind_eq_ok]
  refine ⟨{ header := namespacedHeader }, ?_, rfl⟩
  rw [visitScope_cons, bind_eq_ok]
  refine ⟨_, visitItem_namespaced 0 (Or.inl rfl) _ _, ?_⟩
  rw [visitScope_cons, bind_eq_ok]
  refine ⟨_, visitItem_namespaced 26 (Or.inr rfl) _ _, ?_⟩
  rw [Collector.visitScope]
  rfl

theorem freeName?_namespaced (start : Nat) (hstart : start = 0 ∨ start = 26) :
    freeName? namespacedSource (namespacedFunction start) = some "f" := by
  have hfunction : declaredFunction? (namespacedFunction start) =
      some (namespacedDeclarator start) := by
    have hdeclarator : (namespacedFunction start).child? "declarator" =
        some ⟨namespacedDeclarator start, _⟩ := rfl
    exact declaredFunction?_of_kind hdeclarator rfl
  rw [freeName?, if_pos ⟨Or.inl rfl, rfl⟩, hfunction]
  rcases hstart with rfl | rfl
  · rfl
  · rfl

/-- Apart from the braces, the header has the function in either namespace. -/
theorem scopeItems_namespaced :
    (scopeItems namespacedSource [] namespacedTree.children).filterMap
        (fun item => (freeName? namespacedSource item.2).map (item.1, ·)) =
      [(["a"], "f"), (["b"], "f")] := by
  have hinside : ∀ namespaces start, start = 0 ∨ start = 26 →
      (scopeItems namespacedSource namespaces [leaf "\x7b" false (start + 12) (start + 13),
        namespacedFunction start, leaf "\x7d" false (start + 24) (start + 25)]).filterMap
          (fun item => (freeName? namespacedSource item.2).map (item.1, ·)) =
        [(namespaces, "f")] := by
    intro namespaces start hstart
    have hopen : ScopeItem.ofKind "\x7b" = .other := by decide
    have hfunction : ScopeItem.ofKind "declaration" = .declaration := by decide
    have hclose : ScopeItem.ofKind "\x7d" = .other := by decide
    rw [scopeItems_cons_of_item (hopen ▸ ScopeItem.noConfusion) (hopen ▸ ScopeItem.noConfusion),
      scopeItems_cons_of_item (hfunction ▸ ScopeItem.noConfusion)
        (hfunction ▸ ScopeItem.noConfusion),
      scopeItems_cons_of_item (hclose ▸ ScopeItem.noConfusion) (hclose ▸ ScopeItem.noConfusion),
      scopeItems]
    simp only [List.filterMap_cons, freeName?_namespaced start hstart]
    rfl
  have hscope : ∀ start, start = 0 ∨ start = 26 → ∀ rest,
      scopeItems namespacedSource [] (functionNamespace start :: rest) =
        scopeItems namespacedSource [if start = 0 then "a" else "b"]
          [leaf "\x7b" false (start + 12) (start + 13), namespacedFunction start,
            leaf "\x7d" false (start + 24) (start + 25)] ++
          scopeItems namespacedSource [] rest := by
    intro start hstart rest
    have hname : (functionNamespace start).child? "name" = some ⟨_, _⟩ := rfl
    have hbody : (functionNamespace start).child? "body" = some ⟨_, _⟩ := rfl
    rw [scopeItems_cons_of_namespace rfl hname hbody]
    rcases hstart with rfl | rfl
    · rfl
    · rfl
  rw [namespacedTree, hscope 0 (Or.inl rfl), hscope 26 (Or.inr rfl), scopeItems, List.append_nil,
    List.filterMap_append]
  exact congrArg₂ (· ++ ·) (hinside ["a"] 0 (Or.inl rfl)) (hinside ["b"] 26 (Or.inr rfl))

theorem extractHeader_functions_namespaced :
    extractHeader namespacedSource "gp_Test.hxx" namespacedTree = .ok namespacedHeader ∧
      ∃ declared, DeclaresFunctions namespacedSource namespacedTree declared ∧
        Records (plainFunctions declared) [voidFunction] ∧
        Records (operatorFunctions declared) [] :=
  ⟨extractHeader_namespaced,
    extractHeader_functions _ _ _ _ extractHeader_namespaced⟩

/-- It is not so that a function is left out only if the same namespace has declared it before: of
    two functions that are spelled alike in different namespaces one is recorded. -/
theorem extractHeader_function_lost :
    ¬ ∀ (code : List Char) (path : Path) (tree : Node) (header : Header),
      extractHeader code path tree = .ok header →
      ∃ declared, DeclaresFunctions code tree declared ∧
        KeepsEach (plainFunctions declared) header.functions ∧
        KeepsEach (operatorFunctions declared) header.operators := by
  intro h
  rcases h _ _ _ _ extractHeader_namespaced with ⟨declared, hdeclared, hkeeps, _⟩
  have hnames := names_of_declaresFunctions hdeclared
  rw [scopeItems_namespaced] at hnames
  rcases List.map_eq_cons_iff.mp hnames with ⟨first, rest, rfl, hfirst, hrest⟩
  rcases List.map_eq_cons_iff.mp hrest with ⟨second, rest, rfl, hsecond, hrest⟩
  obtain rfl := List.map_eq_nil_iff.mp hrest
  rw [Prod.mk.injEq] at hfirst hsecond
  -- Neither is an operator and their namespaces differ, so both of them should be recorded.
  have hplain : plainFunctions [first, second] = [first, second] := by
    refine List.filter_eq_self.mpr ?_
    simp only [List.forall_mem_cons, hfirst.2, hsecond.2]
    decide
  have hboth : keptInNamespaces [first, second] = [first, second] := by
    refine firstsBy_eq_self ?_
    simp only [List.map_cons, List.map_nil, hfirst.1, hsecond.1]
    refine List.nodup_cons.mpr ⟨fun hmem => ?_, List.nodup_singleton _⟩
    exact absurd (Prod.mk.inj (List.mem_singleton.mp hmem)).1 (by decide)
  rw [hplain, KeepsEach, hboth] at hkeeps
  exact absurd hkeeps.length_le (Nat.not_le_of_lt Nat.one_lt_two)

end Namespaced

end Extraction

end HeaderBinding
