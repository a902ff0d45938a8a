import HeaderBinding.Text.CaseTable
import HeaderBinding.Text.SmallTable

/-!
# Small Letters

A text in small letters. Most capitals have one small letter whatever stands around them. Two have
not: the dotted capital `İ` becomes an `i` with a dot of its own above it, and a capital sigma at
the end of a word becomes the final sigma.

A sigma ends a word if a letter with a case stands in front of it and none behind it. Marks and
apostrophes in between do not count, on either side.

## Main definitions

* `smallLetter`: The small letter of a capital.
* `meetsCased`: The next character that counts has a case.
* `smallLetters`: A text in small letters.
-/

namespace HeaderBinding

namespace Text

/-- The small letter of a capital, and any other character as it is. -/
def smallLetter (c : Char) : Char :=
  let n := c.toNat
  if n < 0x80 then c.toLower
  else match capitalRuns.find? fun (first, last, _, _) => first ≤ n && n ≤ last with
    | some (first, _, step, small) =>
      if (n - first) % step = 0 then Char.ofNat (small + (n - first)) else c
    | none => c

/-- A letter that has a case. -/
def isCased (c : Char) : Bool :=
  casedRanges.any fun r => r.1 ≤ c.toNat && c.toNat ≤ r.2

/-- A character that case passes over. It may have a case all the same. -/
def isCaseIgnorable (c : Char) : Bool :=
  caseIgnorableRanges.any fun r => r.1 ≤ c.toNat && c.toNat ≤ r.2

/-- The first character that case does not pass over has a case. -/
def meetsCased (cs : List Char) : Bool :=
  (cs.dropWhile isCaseIgnorable).head?.any isCased

/-- The rest of a text in small letters. `before` is the text in front of it, nearest character
    first. -/
def smallLettersFrom (before : List Char) : List Char → List Char
  | [] => []
  | 'İ' :: cs => 'i' :: '\u0307' :: smallLettersFrom ('İ' :: before) cs
  | 'Σ' :: cs =>
    (if meetsCased before && !meetsCased cs then 'ς' else 'σ') ::
      smallLettersFrom ('Σ' :: before) cs
  | c :: cs => smallLetter c :: smallLettersFrom (c :: before) cs

/-- A text in small letters. -/
def smallLetters (cs : List Char) : List Char :=
  smallLettersFrom [] cs

end Text

end HeaderBinding
