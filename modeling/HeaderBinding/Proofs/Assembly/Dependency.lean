import HeaderBinding.Proofs.Assembly.BindingModule
import HeaderBinding.Proofs.Except
import Mathlib.Data.List.TakeWhile

/-!
# The Modules that Headers Belong To

Which modules a module depends on.

The owner of a header is cut out of the header's spelling in three steps: what stands behind the
last slash, of that what stands in front of the first dot, and of that what stands in front of the
first underscore. Each step keeps characters as long as a test lets them through, so each can be
read as a way to write the text down (`takeWhile_eq_iff`). Put together they give one grammar: a
directory, the name of a module, and a rest (`moduleNameOf?_eq_some_iff`). The grammar does not say
which slash is the last or which dot is the first. It need not, as a name holds none of them.

The spellings of all headers are collected into a set before they are resolved. So the order of the
headers and their repetition are gone by then.

## Main definitions

* `ModuleName`: A name that a module can be told by.
* `HeaderOf`: The spelling of a header of a module.

## Theorems

* `lastPart_eq_iff`: What stands behind the last slash.
* `moduleNameOf?_eq_some_iff`: The owner of a header, by a grammar.
* `mem_resolveDependencies`: The modules that some spellings come to.
* `BindingModule.mem_dependencies`, `BindingModule.mem_dependencyHeaders`: What a module depends on,
  and what it remembers of its headers.
* `BindingModule.ofHeaders_dependencies`: The dependencies of a module.
-/

namespace HeaderBinding

/-- A name that a module can be told by: some characters, and none that would end it. -/
structure ModuleName (name : String) : Prop where
  ne_empty : name ≠ ""
  plain : ∀ c ∈ name.toList, c ≠ '/' ∧ c ≠ '\\' ∧ c ≠ '.' ∧ c ≠ '_'

instance (name : String) : Decidable (ModuleName name) :=
  decidable_of_iff
    (name ≠ "" ∧ name.toList.all fun c => c ≠ '/' ∧ c ≠ '\\' ∧ c ≠ '.' ∧ c ≠ '_')
    ⟨fun h => ⟨h.1, fun c hc => of_decide_eq_true (List.all_eq_true.mp h.2 c hc)⟩,
      fun h => ⟨h.ne_empty, List.all_eq_true.mpr fun c hc => decide_eq_true (h.plain c hc)⟩⟩

/-- What a file name may stand behind: nothing, or something that ends in a slash of either kind. -/
def DirectoryPart (dir : String) : Prop :=
  ∀ c, dir.toList.getLast? = some c → c = '/' ∨ c = '\\'

/-- What may stand behind the module in a file name: nothing, or something that starts with a dot or
    an underscore and has no slash in it. -/
structure HeaderRest (rest : String) : Prop where
  start : ∀ c, rest.toList.head? = some c → c = '.' ∨ c = '_'
  plain : ∀ c ∈ rest.toList, c ≠ '/' ∧ c ≠ '\\'

/-- A text spells a header of a module: a directory, the name of the module, and a rest. -/
def HeaderOf (module dependency : String) : Prop :=
  ModuleName module ∧ ∃ dir rest, dependency = dir ++ module ++ rest ∧ DirectoryPart dir ∧
    HeaderRest rest

section Cutting

/-- The characters that a test lets through, up to the first that it does not. -/
theorem takeWhile_eq_iff (p : Char → Bool) (cs front : List Char) :
    cs.takeWhile p = front ↔
      ∃ rest, cs = front ++ rest ∧ (∀ c ∈ front, p c = true) ∧
        ∀ c, rest.head? = some c → p c = false := by
  constructor
  · rintro rfl
    refine ⟨cs.dropWhile p, List.takeWhile_append_dropWhile.symm, fun c hc => ?_, fun c hc => ?_⟩
    · exact List.mem_takeWhile_imp hc
    · have hnot := List.head?_dropWhile_not p cs
      rw [hc] at hnot
      exact hnot
  · rintro ⟨rest, rfl, hfront, hrest⟩
    rw [List.takeWhile_append_of_pos hfront]
    cases rest with
    | nil => rw [List.takeWhile_nil, List.append_nil]
    | cons c rest =>
        have hc : ¬ p c = true := by
          rw [hrest c rfl]
          exact Bool.false_ne_true
        rw [List.takeWhile_cons_of_neg hc, List.append_nil]

/-- The part behind the last slash has no slash in it, and a directory stands in front of it. -/
theorem lastPart_eq_iff (path name : List Char) :
    lastPart path = name ↔
      ∃ dir, path = dir ++ name ∧ (∀ c, dir.getLast? = some c → c = '/' ∨ c = '\\') ∧
        ∀ c ∈ name, c ≠ '/' ∧ c ≠ '\\' := by
  -- Seen from the end, the part is what comes before the first slash.
  rw [lastPart, List.reverse_eq_iff, takeWhile_eq_iff]
  constructor
  · rintro ⟨rest, hpath, hname, hrest⟩
    refine ⟨rest.reverse, ?_, fun c hc => ?_, fun c hc => ?_⟩
    · rw [← List.reverse_reverse path, hpath, List.reverse_append, List.reverse_reverse]
    · rw [List.getLast?_reverse] at hc
      simpa only [bne_eq_false_iff_eq, Bool.and_eq_false_iff] using hrest c hc
    · simpa only [Bool.and_eq_true, bne_iff_ne] using hname c (List.mem_reverse.mpr hc)
  · rintro ⟨dir, rfl, hdir, hname⟩
    refine ⟨dir.reverse, List.reverse_append, fun c hc => ?_, fun c hc => ?_⟩
    · simpa only [Bool.and_eq_true, bne_iff_ne] using hname c (List.mem_reverse.mp hc)
    · rw [List.head?_reverse] at hc
      simpa only [bne_eq_false_iff_eq, Bool.and_eq_false_iff] using hdir c hc

/-- The part of a file name in front of its first dot and its first underscore. -/
theorem takeWhile_takeWhile_eq_iff (name stem : List Char) :
    (name.takeWhile (· != '.')).takeWhile (· != '_') = stem ↔
      ∃ rest, name = stem ++ rest ∧ (∀ c ∈ stem, c ≠ '.' ∧ c ≠ '_') ∧
        ∀ c, rest.head? = some c → c = '.' ∨ c = '_' := by
  rw [List.takeWhile_takeWhile, takeWhile_eq_iff]
  simp only [decide_eq_true_eq, decide_eq_false_iff_not, bne_iff_ne, not_and_or, not_not, ne_eq,
    and_comm]

end Cutting

theorem moduleNameOf?_eq_iff_stem (dependency module : String) :
    moduleNameOf? dependency = some module ↔ module ≠ "" ∧
      ((lastPart dependency.toList).takeWhile (· != '.')).takeWhile (· != '_') =
        module.toList := by
  unfold moduleNameOf?
  generalize ((lastPart dependency.toList).takeWhile (· != '.')).takeWhile (· != '_') = stem
  cases stem with
  | nil =>
      simp only [List.isEmpty_nil, if_true]
      refine iff_of_false (Option.some_ne_none module).symm fun ⟨hne, hstem⟩ => ?_
      exact hne (String.toList_eq_nil_iff.mp hstem.symm)
  | cons c stem =>
      simp only [List.isEmpty_cons, Bool.false_eq_true, if_false, Option.some.injEq]
      constructor
      · rintro rfl
        rw [String.toList_ofList, ne_eq, ← String.toList_eq_nil_iff, String.toList_ofList]
        exact ⟨List.cons_ne_nil c stem, rfl⟩
      · rintro ⟨_, hstem⟩
        rw [hstem, String.ofList_toList]

/-- A header belongs to a module if and only if it is spelled as one of the module's headers. -/
theorem moduleNameOf?_eq_some_iff (dependency module : String) :
    moduleNameOf? dependency = some module ↔ HeaderOf module dependency := by
  rw [moduleNameOf?_eq_iff_stem, takeWhile_takeWhile_eq_iff]
  constructor
  · -- The first cut gives the directory, the other two give the rest.
    rintro ⟨hne, rest, hlast, hstem, hrest⟩
    rcases (lastPart_eq_iff _ _).mp hlast with ⟨dir, hpath, hdir, hname⟩
    refine ⟨⟨hne, fun c hc => ?_⟩, String.ofList dir, String.ofList rest, ?_, ?_, ?_, ?_⟩
    · have hslash := hname c (List.mem_append_left rest hc)
      exact ⟨hslash.1, hslash.2, hstem c hc⟩
    · rw [← String.toList_inj, String.toList_append, String.toList_append, String.toList_ofList,
        String.toList_ofList, hpath, List.append_assoc]
    · rw [DirectoryPart, String.toList_ofList]
      exact hdir
    · rw [String.toList_ofList]
      exact hrest
    · rw [String.toList_ofList]
      exact fun c hc => hname c (List.mem_append_right _ hc)
  · -- There is no slash behind the directory, so it is what the first cut takes off.
    rintro ⟨hmodule, dir, rest, rfl, hdir, hrest⟩
    refine ⟨hmodule.ne_empty, rest.toList, (lastPart_eq_iff _ _).mpr ⟨dir.toList, ?_, hdir, ?_⟩,
      fun c hc => (hmodule.plain c hc).2.2, hrest.start⟩
    · rw [String.toList_append, String.toList_append, List.append_assoc]
    · intro c hc
      rcases List.mem_append.mp hc with hname | hrestMem
      · exact ⟨(hmodule.plain c hname).1, (hmodule.plain c hname).2.1⟩
      · exact hrest.plain c hrestMem

/-- Spellings come to the known modules, other than the one that asks, that some of them is a header
    of. -/
theorem mem_resolveDependencies (module : String) (dependencies known : List String)
    (other : String) :
    other ∈ resolveDependencies module dependencies known ↔
      other ∈ known ∧ other ≠ module ∧
        ∃ dependency ∈ dependencies, HeaderOf other dependency := by
  rw [resolveDependencies, Dict.mem_sortedNames, List.mem_filter, List.mem_filterMap]
  simp only [moduleNameOf?_eq_some_iff, Bool.and_eq_true, List.contains_iff_mem, bne_iff_ne, ne_eq]
  constructor
  · rintro ⟨howner, hknown, hother⟩
    exact ⟨hknown, hother, howner⟩
  · rintro ⟨hknown, hother, howner⟩
    exact ⟨howner, hknown, hother⟩

theorem resolveDependencies_congr (module : String) (dependencies : List String)
    {known other : List String} (h : ∀ name, name ∈ known ↔ name ∈ other) :
    resolveDependencies module dependencies known =
      resolveDependencies module dependencies other := by
  have hcontains : ∀ name, known.contains name = other.contains name := by
    intro name
    rw [Bool.eq_iff_iff, List.contains_iff_mem, List.contains_iff_mem, h]
  simp only [resolveDependencies, hcontains]

namespace BindingModule

/-- The dependencies of a module come from the set of all spellings in its headers. -/
theorem dependencies_of_ofHeaders (name : String) (headerDir : Path) (headers : List Header)
    (known : List String) (policy : CollisionPolicy) (m : BindingModule)
    (h : ofHeaders name headerDir headers known policy = .ok m) :
    m.dependencyHeaders = Dict.sortedNames (headers.flatMap (·.dependencies)) ∧
      m.dependencies = resolveDependencies name m.dependencyHeaders known := by
  rcases ofHeaders_cases name headerDir headers known policy with
    ⟨table, sorted, _, _, hok⟩ | ⟨e, _, _, herror⟩ | ⟨stuck, _, _, herror⟩
  · rw [hok] at h
    rw [← Except.ok.inj h]
    exact ⟨rfl, rfl⟩
  · exact absurd (herror.symm.trans h) (error_ne_ok _ m)
  · exact absurd (herror.symm.trans h) (error_ne_ok _ m)

section Included

variable {name : String} {headerDir : Path} {headers : List Header} {known : List String}
  {policy : CollisionPolicy} {m : BindingModule}

/-- A module remembers the spellings of all that its headers include. -/
theorem mem_dependencyHeaders (h : ofHeaders name headerDir headers known policy = .ok m)
    (dependency : String) :
    dependency ∈ m.dependencyHeaders ↔ ∃ header ∈ headers, dependency ∈ header.dependencies := by
  rw [(dependencies_of_ofHeaders _ _ _ _ _ m h).1, Dict.mem_sortedNames, List.mem_flatMap]

/-- A module depends on the known modules, other than itself, that its headers include a header
    of. -/
theorem mem_dependencies (h : ofHeaders name headerDir headers known policy = .ok m)
    (other : String) :
    other ∈ m.dependencies ↔ other ∈ known ∧ other ≠ name ∧
      ∃ header ∈ headers, ∃ dependency ∈ header.dependencies, HeaderOf other dependency := by
  rw [(dependencies_of_ofHeaders _ _ _ _ _ m h).2, mem_resolveDependencies]
  simp only [mem_dependencyHeaders h]
  constructor
  · rintro ⟨hknown, hother, dependency, ⟨header, hheader, hmem⟩, howner⟩
    exact ⟨hknown, hother, header, hheader, dependency, hmem, howner⟩
  · rintro ⟨hknown, hother, header, hheader, dependency, hmem, howner⟩
    exact ⟨hknown, hother, dependency, ⟨header, hheader, hmem⟩, howner⟩

end Included

/-- A module depends on the known modules, other than itself, that its headers include a header of,
    and on nothing else. It remembers the spellings of all that its headers include. Both are sets
    that the headers and the known names decide, whatever their order and however often they are
    repeated. -/
theorem ofHeaders_dependencies (name : String) (headerDir : Path) (headers : List Header)
    (known : List String) (policy : CollisionPolicy) (m : BindingModule)
    (h : ofHeaders name headerDir headers known policy = .ok m) :
    (∀ other, other ∈ m.dependencies ↔ other ∈ known ∧ other ≠ name ∧
      ∃ header ∈ headers, ∃ dependency ∈ header.dependencies, HeaderOf other dependency) ∧
    (∀ dependency, dependency ∈ m.dependencyHeaders ↔
      ∃ header ∈ headers, dependency ∈ header.dependencies) ∧
    name ∉ m.dependencies ∧
    m.dependencies.Pairwise (· < ·) ∧ m.dependencyHeaders.Pairwise (· < ·) ∧
    ∀ headerDir' headers' known' policy' m',
      ofHeaders name headerDir' headers' known' policy' = .ok m' →
      (∀ header, header ∈ headers' ↔ header ∈ headers) → (∀ other, other ∈ known' ↔ other ∈ known) →
        m'.dependencies = m.dependencies ∧ m'.dependencyHeaders = m.dependencyHeaders := by
  rcases dependencies_of_ofHeaders name headerDir headers known policy m h with
    ⟨hincluded, hresolved⟩
  refine ⟨mem_dependencies h, mem_dependencyHeaders h,
    fun hself => ((mem_dependencies h name).mp hself).2.1 rfl, ?_, ?_, ?_⟩
  · rw [hresolved]
    exact Dict.pairwise_sortedNames _
  · rw [hincluded]
    exact Dict.pairwise_sortedNames _
  · intro headerDir' headers' known' policy' m' h' hheaders hknown
    rcases dependencies_of_ofHeaders name headerDir' headers' known' policy' m' h' with
      ⟨hincluded', hresolved'⟩
    -- Headers that are the same as a set have the same set of spellings.
    have hsame : m'.dependencyHeaders = m.dependencyHeaders := by
      rw [hincluded', hincluded]
      refine Dict.sortedNames_congr _ _ fun dependency => ?_
      simp only [List.mem_flatMap, hheaders]
    refine ⟨?_, hsame⟩
    rw [hresolved', hresolved, hsame]
    exact resolveDependencies_congr name m.dependencyHeaders hknown

/-- Two headers that spell what they include in several ways: behind directories with either kind of
    slash, as a header of their own module, and as what is no header of a module. -/
def spellingHeaders : List Header :=
  [{ path := "Geom_Curve.hxx"
     dependencies := ["/inc/gp_Pnt.hxx", "Geom_Surface.hxx", "_private.hxx"] },
   { path := "Geom_Line.hxx"
     dependencies := ["C:\\inc\\Standard.lxx", "iostream", "/inc/gp_Pnt.hxx"] }]

theorem ofHeaders_dependencies_spellings :
    ∃ m, ofHeaders "Geom" "inc" spellingHeaders ["gp", "Geom", "Standard"] .reject = .ok m ∧
      "gp" ∈ m.dependencies ∧ "Standard" ∈ m.dependencies ∧ "Geom" ∉ m.dependencies ∧
      "iostream" ∉ m.dependencies ∧ "_private.hxx" ∈ m.dependencyHeaders := by
  refine ⟨_, rfl, ?_⟩
  rcases ofHeaders_dependencies "Geom" "inc" spellingHeaders ["gp", "Geom", "Standard"] .reject _
    rfl with ⟨hdependencies, hheaders, hself, _⟩
  refine ⟨?_, ?_, hself, ?_, ?_⟩
  · refine (hdependencies "gp").mpr ⟨by decide, by decide, _, .head _, "/inc/gp_Pnt.hxx", by decide,
      (moduleNameOf?_eq_some_iff _ _).mp (by decide)⟩
  · refine (hdependencies "Standard").mpr ⟨by decide, by decide, _, .tail _ (.head _),
      "C:\\inc\\Standard.lxx", by decide, (moduleNameOf?_eq_some_iff _ _).mp (by decide)⟩
  · exact fun hmem => absurd ((hdependencies "iostream").mp hmem).1 (by decide)
  · exact (hheaders "_private.hxx").mpr ⟨_, .head _, by decide⟩

end BindingModule

end HeaderBinding
