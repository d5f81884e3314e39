import ModuleBuild.Proofs.Helper.Renaming

/-!
# Reading declarations piece by piece

Functions and export lists can be told from the pieces of a text alone: a function goes up to the brace that
closes it, and an export list up to its semicolon. A reader that goes so from piece to piece takes names as
they are, and reads the same statements under other names.

## Main definitions

* `Reading` — what has been read of a statement.
* `readPieces?` — the statements of a text of functions and export lists.

## Main statements

* `Reading.Renamed.step` — a step under other names.
* `namesExchangeable_readPieces` — what the names are does not matter.
-/

namespace ModuleBuild

open Script Text

/-- What has been read of a statement. -/
inductive Reading where
  | between
  /-- Behind the keyword of a function. -/
  | heading (start : Nat)
  /-- In a function, with as many braces open. -/
  | inside (start : Nat) (name : String) (depth : Nat)
  /-- In an export list. -/
  | listing (start : Nat) (words : List String)
  deriving DecidableEq, Inhabited, Repr

/-- The entries of an export list, from its words. -/
def exportPairs? : List String → Option (List (String × String))
  | [] => some []
  | l :: word :: exported :: rest =>
    if word = "as" then (exportPairs? rest).map ((l, exported) :: ·) else none
  | _ => none

/-- Goes on with a piece at a position, and gives the statement that it ends. -/
def Reading.step (place : Nat) (r : Reading) (piece : String) : Option (Reading × List ModuleItem) :=
  match r with
  | .between =>
    if piece = "function" then some (.heading place, [])
    else if piece = "export" then some (.listing place [], [])
    else if piece = " " ∨ piece = "\n" then some (.between, [])
    else none
  | .heading start => if piece = " " then some (.heading start, []) else some (.inside start piece 0, [])
  | .inside start name depth =>
    if piece = "\x7b" then some (.inside start name (depth + 1), [])
    else if piece = "\x7d" then
      if depth = 1 then some (.between, [.declaration ⟨start, place + 1⟩ (some [name])])
      else some (.inside start name (depth - 1), [])
    else some (.inside start name depth, [])
  | .listing start words =>
    if piece = ";" then
      (exportPairs? words).map fun pairs => (.between, [.exportList ⟨start, place + 1⟩ pairs none])
    else if piece = " " ∨ piece = "," ∨ piece = "\x7b" ∨ piece = "\x7d" then some (.listing start words, [])
    else some (.listing start (words ++ [piece]), [])

/-- The statements of pieces from a position on. -/
def readPiecesFrom? : Nat → Reading → List String → Option (List ModuleItem)
  | _, r, [] => if r = .between then some [] else none
  | place, r, piece :: rest =>
    (r.step place piece).bind fun (next, items) =>
      (readPiecesFrom? (place + piece.utf8ByteSize) next rest).map (items ++ ·)

/-- The statements of a text of functions and export lists. -/
def readPieces? (text : String) : Option (List ModuleItem) :=
  readPiecesFrom? 0 .between (pieces text)

/-- What is read under other names. -/
inductive Reading.Renamed (newOf : String → String) : Reading → Reading → Prop
  | between : Renamed newOf .between .between
  | heading (start start' : Nat) : Renamed newOf (.heading start) (.heading start')
  | inside (start start' : Nat) (name : String) (depth : Nat) :
    Renamed newOf (.inside start name depth) (.inside start' (newOf name) depth)
  | listing (start start' : Nat) (words : List String) :
    Renamed newOf (.listing start words) (.listing start' (words.map newOf))

section Renamed

variable {newOf : String → String}

/-- A renaming that leaves all signs and keywords alone. -/
def KeepsSigns (newOf : String → String) : Prop :=
  ∀ sign, ¬ IsUnderscored sign → ∀ piece, newOf piece = sign ↔ piece = sign

theorem exportPairs?_map (hsigns : KeepsSigns newOf) (words : List String) :
    exportPairs? (words.map newOf) =
      (exportPairs? words).map fun pairs => pairs.map fun pair => (newOf pair.1, newOf pair.2) := by
  fun_induction exportPairs? words with
  | case1 => rfl
  | case2 l exported rest ih =>
    have hnew : newOf "as" = "as" := (hsigns "as" (by decide) "as").2 rfl
    rw [List.map_cons, List.map_cons, List.map_cons, exportPairs?, if_pos hnew, ih]
    cases exportPairs? rest <;> rfl
  | case3 l word exported rest has =>
    have hnew : newOf word ≠ "as" := fun h => has ((hsigns "as" (by decide) word).1 h)
    rw [List.map_cons, List.map_cons, List.map_cons, exportPairs?, if_neg hnew]
    rfl
  | case4 words hnil hcons =>
    match words with
    | [] => exact absurd rfl hnil
    | [_] => rfl
    | [_, _] => rfl
    | l :: word :: exported :: rest => exact absurd rfl (hcons l word exported rest)

/-- A step under other names, possibly in another place. -/
theorem Reading.Renamed.step {r r' next : Reading} {items : List ModuleItem} {place : Nat} {piece : String}
    (h : Reading.Renamed newOf r r') (hsigns : KeepsSigns newOf) (place' : Nat)
    (hstep : r.step place piece = some (next, items)) : ∃ next' items',
      r'.step place' (newOf piece) = some (next', items') ∧ Reading.Renamed newOf next next' ∧
        List.Forall₂ (RenamedItem newOf) items items' := by
  have hsign (sign : String) (hnot : ¬ IsUnderscored sign) : newOf piece = sign ↔ piece = sign :=
    hsigns sign hnot piece
  have hfunction := hsign "function" (by decide)
  have hexport := hsign "export" (by decide)
  have hblank := hsign " " (by decide)
  have hbreak := hsign "\n" (by decide)
  have hopen := hsign "\x7b" (by decide)
  have hclose := hsign "\x7d" (by decide)
  have hend := hsign ";" (by decide)
  have hcomma := hsign "," (by decide)
  cases h with
  | between =>
    simp only [Reading.step, hfunction, hexport, hblank, hbreak] at hstep ⊢
    split_ifs at hstep ⊢ <;> cases hstep <;> exact ⟨_, _, rfl, by constructor, .nil⟩
  | heading start start' =>
    simp only [Reading.step, hblank] at hstep ⊢
    split_ifs at hstep ⊢ <;> cases hstep <;> exact ⟨_, _, rfl, by constructor, .nil⟩
  | inside start start' name depth =>
    simp only [Reading.step, hopen, hclose] at hstep ⊢
    split_ifs at hstep ⊢ <;> cases hstep
    · exact ⟨_, _, rfl, .inside .., .nil⟩
    · exact ⟨_, _, rfl, .between, .cons (.declaration _ _ [name]) .nil⟩
    · exact ⟨_, _, rfl, .inside .., .nil⟩
    · exact ⟨_, _, rfl, .inside .., .nil⟩
  | listing start start' words =>
    simp only [Reading.step, hend, hblank, hcomma, hopen, hclose] at hstep ⊢
    split_ifs at hstep ⊢ with hstop hskip
    · obtain ⟨pairs, hpairs, heq⟩ := Option.map_eq_some_iff.1 hstep
      cases heq
      rw [exportPairs?_map hsigns, hpairs]
      exact ⟨_, _, rfl, .between, .cons (.exportList _ _ pairs) .nil⟩
    · cases hstep
      exact ⟨_, _, rfl, .listing .., .nil⟩
    · cases hstep
      refine ⟨_, _, rfl, ?_, .nil⟩
      have hmore : Reading.Renamed newOf (.listing start (words ++ [piece]))
          (.listing start' ((words ++ [piece]).map newOf)) := .listing ..
      simpa using hmore

/-- A text under other names is read as it was. -/
theorem Reading.Renamed.run {r r' : Reading} {ps : List String} {items : List ModuleItem} {place : Nat}
    (h : Reading.Renamed newOf r r') (hsigns : KeepsSigns newOf) (place' : Nat)
    (hread : readPiecesFrom? place r ps = some items) : ∃ items',
      readPiecesFrom? place' r' (ps.map newOf) = some items' ∧ List.Forall₂ (RenamedItem newOf) items items' := by
  induction ps generalizing r r' place place' items with
  | nil =>
    rw [readPiecesFrom?] at hread
    split at hread
    · cases hread
      cases h <;> first | exact ⟨[], rfl, .nil⟩ | contradiction
    · cases hread
  | cons piece rest ih =>
    rw [readPiecesFrom?] at hread
    obtain ⟨⟨next, first⟩, hstep, hread⟩ := Option.bind_eq_some_iff.1 hread
    obtain ⟨more, hmore, rfl⟩ := Option.map_eq_some_iff.1 hread
    obtain ⟨next', first', hstep', hnext, hfirst⟩ := h.step hsigns place' hstep
    obtain ⟨more', hmore', hrest⟩ := ih hnext (place' + (newOf piece).utf8ByteSize) hmore
    refine ⟨first' ++ more', ?_, List.rel_append hfirst hrest⟩
    simp only [List.map_cons, readPiecesFrom?, hstep', Option.bind_some, hmore', Option.map_some]

end Renamed

/-- Where nothing that is renamed stands behind a point, each piece has its new name. -/
theorem renamePieces_eq_map {image : String → Option String} {point : Bool} {ps : List String}
    (hhead : point = true → ∀ piece ∈ ps.head?, image piece = none)
    (hpoint : ∀ name before behind, ps = before ++ "." :: name :: behind → image name = none) :
    renamePieces image point ps = ps.map fun name => (image name).getD name := by
  induction ps generalizing point with
  | nil => rfl
  | cons piece rest ih =>
    have hnext : (piece == ".") = true → ∀ next ∈ rest.head?, image next = none := fun h next hnext => by
      obtain ⟨behind, rfl⟩ := List.head?_eq_some_iff.1 hnext
      exact hpoint next [] behind (by simpa using h)
    rw [renamePieces, List.map_cons, ih hnext fun name before behind heq =>
      hpoint name (piece :: before) behind (by rw [heq]; rfl)]
    cases point with
    | false => rfl
    | true =>
      rw [hhead rfl piece rfl]
      rfl

theorem FreshNames.keepsSigns {text : String} {image : String → Option String} (h : FreshNames text image) :
    KeepsSigns fun name => (image name).getD name := by
  intro sign hsign piece
  cases hlookup : image piece with
  | none => simp [hlookup]
  | some new =>
    obtain ⟨hname, hnew⟩ := h.underscored piece new hlookup
    have hleft : new ≠ sign := fun heq => hsign (heq ▸ hnew)
    have hright : piece ≠ sign := fun heq => hsign (heq ▸ hname)
    simp [hlookup, hleft, hright]

/-- What names are does not matter to the reader. -/
theorem namesExchangeable_readPieces : NamesExchangeable readPieces? where
  read_rename {text image items} _ hfresh hread _ := by
    have himage (name new : String) (h : image name = some new) : IsWord name ∧ IsWord new := by
      obtain ⟨hname, hnew⟩ := hfresh.underscored name new h
      exact ⟨hname.isWord, hnew.isWord⟩
    unfold readPieces? at hread ⊢
    rw [pieces_rename himage, renamePieces_eq_map (by simp) hfresh.point]
    exact Reading.Renamed.between.run hfresh.keepsSigns 0 hread

/-! ## An example -/

/-- A project of which only the helper module is read: all that a class needs to have a parent. -/
def inheritsProject : Project Id where
  load _ := .ok ""
  resolve _ _ := .ok .outside
  read := readPieces?
  helperText := helperBundle helperRegistry (some ["inherits"]) .module
  depth := 1

theorem helpersOf_inherits : helpersOf (some ["inherits"]) = [setPrototypeOf, inheritsHelper] := by
  decide +kernel

/-- The reader reads this helper module as it is written. -/
theorem readAs_inherits : ReadAs readPieces? (helperBundle helperRegistry (some ["inherits"]) .module) id
    (helpersOf (some ["inherits"])) (providedOf (some ["inherits"])) := by
  have hprovided : providedOf (some ["inherits"]) = [inheritsHelper] := by decide +kernel
  refine ⟨[⟨0, 199⟩, ⟨200, 672⟩], ⟨673, 706⟩, by rw [helpersOf_inherits]; rfl, ?_⟩
  rw [readPieces?, pieces_helperBundle, helpersOf_inherits, hprovided]
  simp only [pieces, setPrototypeOf, inheritsHelper, List.flatMap_cons, List.flatMap_nil, String.toList_intercalate,
    List.map_cons, List.map_nil, String.toList_append]
  repeat rw [String.toList_ofList]
  decide +kernel

/-- Other modules have names of both helpers, and the second name of one of them. -/
theorem helperModule_hygienic_inherits :
    let owned := ["_inherits", "_setPrototypeOf", "_setPrototypeOf2"]
    let renames := [("_inherits", "_inherits2"), ("_setPrototypeOf", "_setPrototypeOf3")]
    ReadAs inheritsProject.read (helperBundle helperRegistry (some ["inherits"]) .module) id
      (helpersOf (some ["inherits"])) (providedOf (some ["inherits"])) ∧
    NamesExchangeable inheritsProject.read ∧
    inheritsProject.helperText = helperBundle helperRegistry (some ["inherits"]) .module ∧
    ∃ code record, helperModule inheritsProject owned = .ok (code, record) ∧
      record.declared = ["_setPrototypeOf3", "_inherits2"] ∧ record.exports = [("inherits", "_inherits2")] ∧
      List.Forall₂ (Rebound [setPrototypeOf, inheritsHelper] renames) (pieces inheritsProject.helperText)
        (pieces code) := by
  intro owned renames
  obtain ⟨-, -, first, record, -, hmodule, -, hfirst, hexports, hrecord, hdeclared, -, -, -, hpieces⟩ :=
    @helperModule_hygienic _ inheritsProject _ owned readAs_inherits namesExchangeable_readPieces rfl
  have hrenames : helperRenames owned ((helpersOf (some ["inherits"])).map (·.localName)) = renames := by
    decide +kernel
  refine ⟨readAs_inherits, namesExchangeable_readPieces, rfl, _, record, hmodule, ?_, ?_, ?_⟩
  · rw [hdeclared, hfirst]
    decide +kernel
  · rw [hrecord, hexports]
    decide +kernel
  · rw [hrenames, helpersOf_inherits] at hpieces
    rwa [hrenames]

end ModuleBuild
