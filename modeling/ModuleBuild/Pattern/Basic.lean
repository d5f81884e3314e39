import ModuleBuild.Text.LetterCase

/-!
# Patterns

Regular patterns over characters, searched for in a text. Only whether a pattern occurs matters, so
a pattern denotes the set of places where an occurrence from a given place may end.

## Main definitions

* `Pattern` — patterns.
* `Pattern.ends` — the places where an occurrence from a place may end.
* `Pattern.occursIn` — whether a pattern occurs somewhere in a text.
* `Pattern.literal`, `Pattern.oneOf` — a given text, and a choice.
* `Pattern.isTooLarge` — whether a pattern takes too much room with its repetitions written out.
-/

namespace ModuleBuild

/-- A condition on a place of the text. -/
inductive Pattern.Anchor where
  | textStart
  | textEnd
  | lineStart
  | lineEnd
  /-- Line ends are a carriage return, a line feed, or both. -/
  | lineStartAny
  | lineEndAny
  /-- Between a word character and another one, or not, as `word` tells them apart. -/
  | wordEdge (negated : Bool) (word : Char → Bool)
  | wordStart (word : Char → Bool)
  | wordEnd (word : Char → Bool)
  | wordStartHalf (word : Char → Bool)
  | wordEndHalf (word : Char → Bool)

/-- A regular pattern. -/
inductive Pattern where
  /-- The empty text. -/
  | empty
  /-- One character that passes a test. -/
  | one (test : Char → Bool)
  /-- The empty text at places that meet a condition. -/
  | anchor (spot : Pattern.Anchor)
  | seq (first second : Pattern)
  | alt (left right : Pattern)
  /-- At least `least` and at most `most` times. -/
  | repetition (least : Nat) (most : Option Nat) (body : Pattern)
  deriving Inhabited

namespace Pattern

/-- A place in a text: what stands before it, in reverse, and what stands after it. -/
structure Place where
  before : List Char
  after : List Char
  deriving Inhabited, DecidableEq

/-- Keeps one of the places of a text with the same distance to its end. -/
def distinct : List Place → List Place
  | [] => []
  | p :: ps => p :: (distinct ps).filter fun q => q.after.length != p.after.length

/-- Whether a word character stands at the head. -/
def headIs (word : Char → Bool) : List Char → Bool
  | c :: _ => word c
  | [] => false

/-- Whether a place meets a condition. -/
def Anchor.holds (p : Place) : Anchor → Bool
  | textStart => p.before.isEmpty
  | textEnd => p.after.isEmpty
  | lineStart => p.before.isEmpty || p.before.head? == some '\n'
  | lineEnd => p.after.isEmpty || p.after.head? == some '\n'
  | lineStartAny =>
    p.before.isEmpty || p.before.head? == some '\n' ||
      (p.before.head? == some '\r' && p.after.head? != some '\n')
  | lineEndAny =>
    p.after.isEmpty || p.after.head? == some '\r' ||
      (p.after.head? == some '\n' && p.before.head? != some '\r')
  | wordEdge negated word => (headIs word p.before != headIs word p.after) != negated
  | wordStart word => !headIs word p.before && headIs word p.after
  | wordEnd word => headIs word p.before && !headIs word p.after
  | wordStartHalf word => !headIs word p.before
  | wordEndHalf word => !headIs word p.after

/-- The places where an occurrence from a place may end. -/
def ends : Pattern → Place → List Place
  | empty, p => [p]
  | one test, p =>
    match p.after with
    | c :: rest => if test c then [⟨c :: p.before, rest⟩] else []
    | [] => []
  | anchor a, p => if a.holds p then [p] else []
  | seq first second, p => distinct ((first.ends p).flatMap second.ends)
  | alt left right, p => distinct (left.ends p ++ right.ends p)
  | repetition least most body, p =>
    let step (ps : List Place) : List Place := distinct (ps.flatMap body.ends)
    let more (ps : List Place) : List Place := distinct (ps ++ step ps)
    let extra := match most with
      | some m => min (m - least) (p.after.length + 1)
      | none => p.after.length + 1
    Nat.repeat more extra (Nat.repeat step least [p])

/-- Whether the pattern occurs at a place behind `before`. -/
def occursAfter (pattern : Pattern) (before : List Char) : List Char → Bool
  | [] => !(pattern.ends ⟨before, []⟩).isEmpty
  | c :: rest =>
    !(pattern.ends ⟨before, c :: rest⟩).isEmpty || occursAfter pattern (c :: before) rest

/-- Whether the pattern occurs somewhere in a text. -/
def occursIn (pattern : Pattern) (text : String) : Bool :=
  pattern.occursAfter [] text.toList

/-- Exactly these characters. -/
def literal (cs : List Char) : Pattern :=
  cs.foldr (fun c rest => seq (one (· == c)) rest) empty

/-- One of the patterns; the empty text if there is none. -/
def oneOf : List Pattern → Pattern
  | [] => empty
  | [p] => p
  | p :: q :: rest => alt p (oneOf (q :: rest))

/-- All patterns in order. -/
def inOrder (ps : List Pattern) : Pattern :=
  ps.foldr seq empty

/-! ## Size -/

/-- Whether only the empty text can be an occurrence. -/
def isEmptyOnly : Pattern → Bool
  | empty | anchor _ => true
  | one _ => false
  | seq first second => first.isEmptyOnly && second.isEmptyOnly
  | alt left right => left.isEmptyOnly && right.isEmptyOnly
  | repetition _ most body => most == some 0 || body.isEmptyOnly

/-- A repetition. What is empty need not be repeated. -/
def repeated (least : Nat) (most : Option Nat) (body : Pattern) : Pattern :=
  if body.isEmptyOnly then repetition (min least 1) (some (min (most.getD 1) 1)) body
  else repetition least most body

/-- The room, in bytes, that the states of an automaton for the pattern take, where `unit` says what
a test of one character takes. A state takes 32 bytes and a way out of it another 4. -/
def room (unit : (Char → Bool) → Nat) : Pattern → Nat
  | empty => 0
  | anchor _ => 32
  | one test => unit test
  | seq first second => first.room unit + second.room unit
  | alt left right => left.room unit + right.room unit + 36
  | repetition least none body => max least 1 * body.room unit + 40
  | repetition least (some most) body =>
    least * body.room unit + if most ≤ least then 0 else (most - least) * (body.room unit + 40) + 32

/-- How many runs of code points pass a test, and how many code points. Planes that hold no letters
are left out. -/
def countRuns (test : Char → Bool) : Nat × Nat :=
  let (_, runs, size) := (List.range 0x32000).foldl (fun (inside, runs, size) n =>
    let passes := n.isValidChar && test (Char.ofNat n)
    (passes, if passes && !inside then runs + 1 else runs, if passes then size + 1 else size))
    (false, 0, 0)
  (runs, size)

/-- The room that a test of one character takes: a state for each byte of a single character, else
about two states for each run. -/
def testRoom (test : Char → Bool) : Nat :=
  match countRuns test with
  | (1, 1) => 32
  | (runs, _) => 64 * (runs + 1)

/-- The most room that the states of an automaton may take. -/
def roomLimit : Nat := 10 * Nat.pow 2 20

/-- Whether a pattern takes too much room. The tests are looked at only if it matters. -/
def isTooLarge (p : Pattern) : Bool :=
  roomLimit < p.room (fun _ => 32) ||
    (roomLimit < p.room (fun _ => 50000) && roomLimit < p.room testRoom)

/-! ## Ignoring case -/

/-- The characters that differ from `c` in case only, `c` among them. -/
def caseVariants (c : Char) : List Char :=
  let f := Text.fold c
  let others := Text.foldRuns.toList.filterMap fun (s, k, step, d) =>
    let n := (f.toNat : Int) - d
    if (s : Int) ≤ n && n < s + k * step && (n.toNat - s) % step == 0 then
      some (Char.ofNat n.toNat)
    else none
  f :: others

/-- The test that holds of a character if it holds of one that differs in case only. -/
def ignoringCase (test : Char → Bool) (c : Char) : Bool :=
  test c || (caseVariants c).any test

end Pattern

end ModuleBuild
