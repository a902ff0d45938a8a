import HeaderBinding.Text.Word

/-!
# Blanking Out Macros

Export decorations and the like stand in the way of reading a header. `stripMacros` replaces each of
them, where it stands as a whole word, by as many spaces as it has bytes, so that every later offset
stays valid.

At each place the macros are tried in their order and the first that stands there counts. A macro
without characters can stand anywhere between words; it replaces nothing, and hides the macros
behind it in the list.

## Main definitions

* `stripMacros`: The text without the macros.
-/

namespace HeaderBinding

/-- As many spaces as a character has bytes. -/
def blanksFor (c : Char) : List Char :=
  List.replicate c.utf8Size ' '

/-- The text without the macros. `before` is the text already passed, nearest character first; the
    next `skip` characters belong to a macro that has been found. -/
def stripFrom (macros : List (List Char)) : Nat → List Char → List Char → List Char
  | _, _, [] => []
  | skip + 1, before, c :: rest => blanksFor c ++ stripFrom macros skip (c :: before) rest
  | 0, before, c :: rest =>
    match macros.find? fun word => Text.standsAt word before (c :: rest) with
    | some (_ :: tail) => blanksFor c ++ stripFrom macros tail.length (c :: before) rest
    | _ => c :: stripFrom macros 0 (c :: before) rest

/-- The text with every whole-word use of a macro blanked out. -/
def stripMacros (macros : List String) (text : List Char) : List Char :=
  stripFrom (macros.map String.toList) 0 [] text

end HeaderBinding
