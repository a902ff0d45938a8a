import HeaderBinding.Proofs.Extraction.Members

/-!
# Bases

Which bases of a class are recorded.

A base clause is read from left to right with an access that changes on the way: a specifier sets
it, and a comma takes it back to the access that the kind of class stands for. What this comes to is
said without the walk. The clause is cut at its commas, each segment is read by itself, and the
access of a base is the last specifier in front of it in its own segment (`accessInSegment`). So a
specifier never reaches over a comma, and whatever else stands in a segment, such as `virtual` in
front of a base or behind the specifier, is not looked at.

The bases that are public in this sense are those of the record, in order and with even blanks, for
nothing that a member of the class files touches them (`parseClass_superclasses`).

## Main definitions

* `accessInSegment`: The access of a node in a segment of a base clause.
* `publicBase?`: The spelling of a node in a segment that is a public base.
* `publicBases`: The public bases of a clause, segment by segment.

## Theorems

* `baseStep_cases`: What one child of a base clause does.
* `clauseBases_eq`: Reading a clause from left to right is reading its segments.
* `ClassRecord.superclasses_fileAll`: What members file leaves the bases alone.
* `parseClass_superclasses`: The bases of a class.
-/

namespace HeaderBinding

/-- What members file leaves the bases of the class alone. -/
theorem ClassRecord.superclasses_fileAll (c : ClassRecord) (filings : List MemberFiling) :
    (c.fileAll filings).superclasses = c.superclasses := by
  unfold fileAll
  induction filings generalizing c with
  | nil => rfl
  | cons f filings ih =>
      rw [List.foldl_cons, ih]
      cases f with
      | constructor m =>
          change (Extraction.addConstructor c m).superclasses = _
          rw [Extraction.addConstructor, apply_ite superclasses]
          exact ite_self _
      | method m =>
          change (c.addMethod m).superclasses = _
          rw [addMethod, apply_ite superclasses]
          exact ite_self _
      | _ => rfl

namespace Extraction

open Syntax

section Segments

variable (code : List Char) (standard : Access)

/-- The access of a node in a segment of a base clause: the last specifier in front of it, or else
    the access that the kind of class stands for. -/
def accessInSegment (n : Located) : Access :=
  match n.before.find? (·.kind == "access_specifier") with
  | some specifier => .ofKeyword (spelled code specifier)
  | none => standard

/-- The spelling of a node in a segment of a base clause, if it is a public base. -/
def publicBase? (n : Located) : Option String :=
  if isBaseKind n.node.kind = true ∧ accessInSegment code standard n = .isPublic then
    some (String.ofList (normalize (spelled code n.node)))
  else none

/-- The public bases in a segment of a base clause, some of which has been read. -/
def segmentBases (before segment : List Node) : List String :=
  (locateFrom before segment).filterMap (publicBase? code standard)

/-- The public bases of a clause, which is cut at its commas. -/
def publicBases (clause : Node) : List String :=
  (clause.children.splitOnP (·.kind == ",")).flatMap (segmentBases code standard [])

variable {code standard} {bases bases' : List String}

/-- An empty segment has no bases. -/
theorem segmentBases_nil (before : List Node) : segmentBases code standard before [] = [] :=
  rfl

/-- What one child of a base clause does: a comma ends the segment, and anything else is a part of
    it, which sets the access or is a base or neither. -/
theorem baseStep_cases {access : Access} {before : List Node} {child : Node}
    (h : baseStep code standard (accessInSegment code standard ⟨child, before⟩, bases) child =
      .ok (access, bases')) :
    (child.kind = "," ∧ access = standard ∧ bases' = bases) ∨
    (child.kind ≠ "," ∧ (∀ next, access = accessInSegment code standard ⟨next, child :: before⟩) ∧
      bases' = bases ++ (publicBase? code standard ⟨child, before⟩).toList) := by
  -- Of the nodes in front, the child is the nearest, so a specifier there wins.
  have hbehind : ∀ next, accessInSegment code standard ⟨next, child :: before⟩ =
      if (child.kind == "access_specifier") = true then .ofKeyword (spelled code child)
      else accessInSegment code standard ⟨child, before⟩ := by
    intro next
    unfold accessInSegment
    rw [List.find?_cons]
    cases child.kind == "access_specifier" with
    | true => rfl
    | false => rfl
  unfold baseStep at h
  dsimp only at h
  split at h
  · next hspecifier =>
    simp only [bind_eq_ok, pure_eq_ok, Prod.mk.injEq] at h
    rcases h with ⟨text, htext, rfl, rfl⟩
    have hkind := beq_iff_eq.mp hspecifier
    -- A specifier is no base itself.
    have hnone : publicBase? code standard ⟨child, before⟩ = none := by
      refine if_neg fun hbase => ?_
      rw [hkind] at hbase
      exact absurd hbase.1 (by decide)
    refine Or.inr ⟨by rw [hkind]; decide, fun next => ?_, ?_⟩
    · rw [hbehind, if_pos hspecifier, spelled_eq htext]
    · rw [hnone]
      exact (List.append_nil _).symm
  · next hspecifier =>
    split at h
    · next hcomma =>
      rw [pure_eq_ok, Prod.mk.injEq] at h
      exact Or.inl ⟨beq_iff_eq.mp hcomma, h.1.symm, h.2.symm⟩
    · next hcomma =>
      refine Or.inr ⟨fun hkind => hcomma (beq_iff_eq.mpr hkind), ?_⟩
      split at h
      · next hpublic =>
        rw [Bool.and_eq_true, beq_iff_eq] at hpublic
        simp only [bind_eq_ok, pure_eq_ok, Prod.mk.injEq] at h
        rcases h with ⟨text, htext, rfl, rfl⟩
        refine ⟨fun next => by rw [hbehind, if_neg hspecifier], ?_⟩
        rw [publicBase?, if_pos hpublic, spelled_eq htext]
        rfl
      · next hpublic =>
        rw [Bool.and_eq_true, beq_iff_eq] at hpublic
        rw [pure_eq_ok, Prod.mk.injEq] at h
        rcases h with ⟨rfl, rfl⟩
        refine ⟨fun next => by rw [hbehind, if_neg hspecifier], ?_⟩
        rw [publicBase?, if_neg hpublic]
        exact (List.append_nil _).symm

/-- Reading on in a segment adds the public bases in the rest of it and in the segments behind
    it. -/
theorem foldlM_baseStep {before nodes : List Node} {start finish : Access}
    (hstart : ∀ next, start = accessInSegment code standard ⟨next, before⟩)
    (h : nodes.foldlM (baseStep code standard) (start, bases) = .ok (finish, bases')) :
    ∃ segment segments, nodes.splitOnP (·.kind == ",") = segment :: segments ∧
      bases' = bases ++ segmentBases code standard before segment ++
        segments.flatMap (segmentBases code standard []) := by
  induction nodes generalizing before start bases with
  | nil =>
      rw [List.foldlM_nil, pure_eq_ok, Prod.mk.injEq] at h
      refine ⟨[], [], List.splitOnP_nil, ?_⟩
      rw [← h.2, segmentBases_nil, List.flatMap_nil, List.append_nil, List.append_nil]
  | cons child nodes ih =>
      rw [List.foldlM_cons, bind_eq_ok] at h
      rcases h with ⟨⟨access, read⟩, hchild, hrest⟩
      rw [hstart child] at hchild
      rw [List.splitOnP_cons_eq_if_modifyHead]
      rcases baseStep_cases hchild with ⟨hcomma, rfl, rfl⟩ | ⟨hcomma, haccess, rfl⟩
      · -- Behind the comma nothing has been read of the segment.
        have hnew : ∀ next, access = accessInSegment code access ⟨next, []⟩ := fun _ => rfl
        rcases ih hnew hrest with ⟨segment, segments, hsplit, rfl⟩
        refine ⟨[], segment :: segments, ?_, ?_⟩
        · rw [if_pos (beq_iff_eq.mpr hcomma), hsplit]
        · rw [List.flatMap_cons, segmentBases_nil, List.append_nil, List.append_assoc]
      -- The child belongs to the segment that has been begun.
      · rcases ih haccess hrest with ⟨segment, segments, hsplit, rfl⟩
        refine ⟨child :: segment, segments, ?_, ?_⟩
        · rw [if_neg fun hbeq => hcomma (beq_iff_eq.mp hbeq), hsplit]
          rfl
        · simp only [segmentBases, locateFrom, List.filterMap_cons, List.append_assoc]
          cases publicBase? code standard ⟨child, before⟩ with
          | none => rfl
          | some base => rfl

/-- Reading a base clause from left to right is reading its segments one by one. -/
theorem clauseBases_eq {clause : Node} (h : clauseBases code standard clause = .ok bases) :
    bases = publicBases code standard clause := by
  simp only [clauseBases, bind_eq_ok, pure_eq_ok] at h
  rcases h with ⟨⟨access, found⟩, hfold, rfl⟩
  -- In front of the first segment nothing has been read.
  have hnew : ∀ next, standard = accessInSegment code standard ⟨next, []⟩ := fun _ => rfl
  rcases foldlM_baseStep hnew hfold with ⟨segment, segments, hsplit, hfound⟩
  rw [publicBases, hsplit, List.flatMap_cons]
  exact hfound

/-- The public bases of a class stand in its clauses. -/
theorem baseClasses_eq {n : Node} (h : baseClasses code n = .ok bases) :
    bases = (n.children.filter (·.kind == "base_class_clause")).flatMap
      (publicBases code (.ofKind n.kind)) := by
  simp only [baseClasses, bind_eq_ok, pure_eq_ok, mapM_eq_ok_iff] at h
  rcases h with ⟨lists, hlists, rfl⟩
  rw [← filterMap_flatten_of_forall₂ hlists (p := some) fun clause found hfound =>
    List.filterMap_some.trans (clauseBases_eq hfound), List.filterMap_some]

end Segments

section Classes

variable {code : List Char} {n : Located} {scope : String} {c : ClassRecord}

/-- The bases of a class are those of its clauses, whatever the members of the class file. -/
theorem baseClasses_of_parseClass (h : parseClass code n scope = .ok (some c)) :
    baseClasses code n.node = .ok c.superclasses := by
  unfold parseClass at h
  split at h
  · exact absurd (pure_eq_ok.mp h) (Option.some_ne_none c).symm
  · split at h
    · exact absurd (pure_eq_ok.mp h) (Option.some_ne_none c).symm
    · split at h
      · exact absurd (pure_eq_ok.mp h) (Option.some_ne_none c).symm
      -- The bases are read before the body, and the members of the body leave them alone.
      · simp only [bind_eq_ok, pure_eq_ok, Option.some.injEq] at h
        rcases h with ⟨_, _, _, _, superclasses, hbases, ⟨d, access⟩, hwalk, rfl⟩
        rcases visitMembers_items hwalk with ⟨items, _, hfold⟩
        rw [foldlM_fileMember_eq, map_eq_pure_bind, bind_eq_ok] at hfold
        rcases hfold with ⟨lists, _, hd⟩
        rw [hbases, ← pure_eq_ok.mp hd, ClassRecord.superclasses_fileAll]

/-- The bases of a class are the public bases in its clauses, segment by segment. -/
theorem parseClass_superclasses (h : parseClass code n scope = .ok (some c)) :
    c.superclasses = (n.node.children.filter (·.kind == "base_class_clause")).flatMap
      (publicBases code (.ofKind n.node.kind)) :=
  baseClasses_eq (baseClasses_of_parseClass h)

end Classes

section Derived

/-- A struct whose bases have all kinds of specifiers in front of them. -/
def derivedSource : List Char := "struct D : A, private virtual B, virtual C \x7b\x7d;".toList

/-- The struct `struct D`, which has a base of each access that can be told apart here. -/
def derivedStruct : Node :=
  { kind := "struct_specifier", named := true, start := 0, stop := 45
    fields := [("body", 3), ("name", 1)]
    children := [leaf "struct" false 0 6, leaf "type_identifier" true 7 8,
      { kind := "base_class_clause", named := true, start := 9, stop := 42, fields := []
        children := [leaf ":" false 9 10, leaf "type_identifier" true 11 12, leaf "," false 12 13,
          leaf "access_specifier" true 14 21, leaf "virtual" true 22 29,
          leaf "type_identifier" true 30 31, leaf "," false 31 32, leaf "virtual" true 33 40,
          leaf "type_identifier" true 41 42] },
      { kind := "field_declaration_list", named := true, start := 43, stop := 45, fields := []
        children := [leaf "\x7b" false 43 44, leaf "\x7d" false 44 45] }] }

/-- The struct of the example is read with its first and its last base. -/
theorem parseClass_derived : parseClass derivedSource ⟨derivedStruct, []⟩ "" =
    .ok (some { name := "D", superclasses := ["A", "C"] }) := by
  have hwalk : visitMembers derivedSource [] [leaf "\x7b" false 43 44, leaf "\x7d" false 44 45]
      ({ name := "D", superclasses := ["A", "C"] }, .isPublic) =
        .ok ({ name := "D", superclasses := ["A", "C"] }, .isPublic) := by
    rw [visitMembers_cons, bind_eq_ok]
    refine ⟨_, rfl, ?_⟩
    rw [visitMembers_cons, bind_eq_ok]
    refine ⟨_, rfl, ?_⟩
    rw [visitMembers]
    rfl
  exact parseClass_eq_ok rfl (by decide) rfl rfl rfl rfl hwalk

/-- The access of the second base ends with its segment. -/
theorem parseClass_superclasses_derived :
    parseClass derivedSource ⟨derivedStruct, []⟩ "" =
        .ok (some { name := "D", superclasses := ["A", "C"] }) ∧
      ["A", "C"] = (derivedStruct.children.filter (·.kind == "base_class_clause")).flatMap
        (publicBases derivedSource .isPublic) :=
  ⟨parseClass_derived, parseClass_superclasses parseClass_derived⟩

end Derived

end Extraction

end HeaderBinding
