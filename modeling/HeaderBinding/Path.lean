/-!
# Paths

Paths are texts whose parts are separated by slashes. Nothing is looked up: a path is cut and joined
by its spelling alone.

A path starts with an anchor, which is a slash, a lone dot, or nothing. Behind it, empty parts and
dots say nothing and are passed over from the right, so `a/b/./` and `a//b` both end in `b`.

## Main definitions

* `Path.join`: A path seen from another.
* `Path.fileName?`: The last part, if it is a name.
* `Path.parent?`: The path without its last part.
* `Path.withFileName`: The path with another last part.

## Theorems

* `Path.length_lt_of_parent?_eq_some`: A parent is shorter than the path.
-/

namespace HeaderBinding

/-- A path as it is spelled. -/
abbrev Path := String

namespace Path

/-- A path from the root. -/
def isAbsolute (path : Path) : Bool :=
  path.toList.head? == some '/'

/-- `rest` seen from `base`. An absolute `rest` stands for itself. -/
def join (base rest : Path) : Path :=
  if rest.isAbsolute then rest
  else if base.isEmpty || base.toList.getLast? == some '/' then base ++ rest
  else base ++ "/" ++ rest

/-- The length of the anchor: the slash of an absolute path, or a dot that is the whole first
    part. -/
def anchorLength : List Char → Nat
  | '/' :: _ => 1
  | ['.'] => 1
  | '.' :: '/' :: _ => 1
  | _ => 0

/-- Drop the parts that say nothing from the end of a path that is written backwards. -/
def dropVoid : List Char → List Char
  | '/' :: cs => dropVoid cs
  | '.' :: '/' :: cs => dropVoid cs
  | ['.'] => []
  | cs => cs

/-- The anchor of a path, and what follows it, backwards and without void parts at the end. -/
def split (path : Path) : List Char × List Char :=
  let cs := path.toList
  let n := anchorLength cs
  (cs.take n, dropVoid (cs.drop n).reverse)

/-- The last part of a path, if it is a name. -/
def fileName? (path : Path) : Option String :=
  let part := (split path).2.takeWhile (· != '/')
  if part.isEmpty || part == ['.', '.'] then none else some (String.ofList part.reverse)

/-- The path without its last part. A path that is only a root has none. -/
def parent? (path : Path) : Option Path :=
  let (anchor, body) := split path
  if body.isEmpty then
    if anchor == ['.'] then some "" else none
  else
    let rest := dropVoid ((body.dropWhile (· != '/')).drop 1)
    some (String.ofList (anchor ++ rest.reverse))

theorem length_dropVoid_le (cs : List Char) : (dropVoid cs).length ≤ cs.length := by
  fun_induction dropVoid cs with
  | case1 cs ih => exact Nat.le_succ_of_le ih
  | case2 cs ih => exact Nat.le_succ_of_le (Nat.le_succ_of_le ih)
  | case3 => exact Nat.zero_le _
  | case4 => exact Nat.le_refl _

theorem length_split_le (path : Path) :
    (split path).1.length + (split path).2.length ≤ path.length := by
  have h := length_dropVoid_le ((path.toList.drop (anchorLength path.toList)).reverse)
  simp only [List.length_reverse, List.length_drop, String.length_toList] at h
  simp only [split, List.length_take, String.length_toList]
  omega

/-- A parent is shorter than the path, so going up from parent to parent ends. -/
theorem length_lt_of_parent?_eq_some {path parent : Path} (h : parent? path = some parent) :
    parent.length < path.length := by
  have hle := length_split_le path
  unfold parent? at h
  rcases hsplit : split path with ⟨anchor, body⟩
  rw [hsplit] at h hle
  cases body with
  | nil =>
    -- Only a lone dot has a parent here, and that parent is empty.
    by_cases hdot : anchor == ['.']
    · simp only [List.isEmpty_nil, if_true, hdot, Option.some.injEq] at h
      have hanchor : anchor = ['.'] := by simpa using hdot
      subst h hanchor
      simp only [List.length_cons, List.length_nil] at hle
      simp only [String.length_empty]
      omega
    · simp [hdot] at h
  | cons c body =>
    simp only [List.isEmpty_cons, Bool.false_eq_true, if_false, Option.some.injEq] at h
    subst h
    have hdrop := length_dropVoid_le (((c :: body).dropWhile (· != '/')).drop 1)
    have hwhile := (List.dropWhile_suffix (· != '/') (l := c :: body)).length_le
    simp only [List.length_drop, List.length_cons] at hdrop hwhile hle
    simp only [String.length_ofList, List.length_append, List.length_reverse]
    omega

/-- The path with another last part. A path whose last part is no name keeps all its parts. -/
def withFileName (path : Path) (name : String) : Path :=
  match fileName? path, parent? path with
  | some _, some parent => parent.join name
  | _, _ => path.join name

end Path

end HeaderBinding
