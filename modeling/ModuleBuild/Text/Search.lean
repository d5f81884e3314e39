/-!
# Searching text

## Main definitions

* `occurs` — whether a text occurs inside another one.
* `startsWith`, `endsWith` — whether it stands at an end.
* `trimEnd` — a text without the white space at its end.
-/

namespace ModuleBuild.Text

/-- Whether `needle` stands somewhere in `hay`. -/
def occursIn (needle : List Char) : List Char → Bool
  | [] => needle.isEmpty
  | c :: rest => needle.isPrefixOf (c :: rest) || occursIn needle rest

/-- Whether `needle` stands somewhere in `hay`. -/
def occurs (needle hay : String) : Bool :=
  occursIn needle.toList hay.toList

/-- Whether a text starts with `lead`. -/
def startsWith (text lead : String) : Bool :=
  lead.toList.isPrefixOf text.toList

/-- Whether a text ends with `tail`. -/
def endsWith (text tail : String) : Bool :=
  tail.toList.isSuffixOf text.toList

end ModuleBuild.Text
