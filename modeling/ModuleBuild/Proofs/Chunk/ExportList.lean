import Mathlib
import ModuleBuild.Proofs.Chunk.Tokens
import ModuleBuild.Proofs.Script.Ink

/-!
# Export lists

An export list writes exported names as they are, so it says its exports if the names are names. It says them
only then: the tokens of any list that says these exports take all the space that the text has, so none is left
for the quotes of a string or for escapes.

## Main definitions

* `rowCost` — the space that tokens take at least.
* `specifierInk` — the space that an entry has.

## Main statements

* `ChunkParts.saidExports?_exportList` — a list with names says its exports.
* `ChunkParts.isName_of_saidExports?` — a list that says its exports has names.
-/

namespace ModuleBuild

open Script Text

/-! ## Space -/

/-- The space that the tokens of a row take at least. -/
def rowCost (ks : List TokenKind) : Nat :=
  (ks.map TokenKind.cost).sum

theorem rowCost_append (ks ls : List TokenKind) : rowCost (ks ++ ls) = rowCost ks + rowCost ls := by
  simp [rowCost]

/-- The commas between entries take space as well. -/
theorem rowCost_intercalate {rows : List (List TokenKind)} (hrows : rows ≠ []) :
    rowCost ([.punct ","].intercalate rows) + 1 = (rows.map rowCost).sum + rows.length := by
  have hcomma : rowCost [.punct ","] = 1 := by decide +kernel
  induction rows with
  | nil => exact absurd rfl hrows
  | cons row rest ih =>
    cases rest with
    | nil => simp
    | cons row' rest =>
      have hrest := ih (List.cons_ne_nil _ _)
      rw [List.intercalate_cons_cons, rowCost_append, rowCost_append, hcomma, List.map_cons, List.sum_cons,
        List.length_cons]
      omega

theorem ink_intercalate {pieces : List String} (hpieces : pieces ≠ []) :
    ink (", ".intercalate pieces).toList + 1 = (pieces.map (ink ·.toList)).sum + pieces.length := by
  have hcomma : ink [',', ' '] = 1 := by decide
  induction pieces with
  | nil => exact absurd rfl hpieces
  | cons piece rest ih =>
    cases rest with
    | nil => simp
    | cons piece' rest =>
      have hrest := ih (List.cons_ne_nil _ _)
      have htext : (", ".intercalate (piece :: piece' :: rest)).toList =
          piece.toList ++ ([',', ' '] ++ (", ".intercalate (piece' :: rest)).toList) := by
        simp [String.toList_intercalate]
      rw [htext, ink_append, ink_append, hcomma, List.map_cons, List.sum_cons, List.length_cons]
      omega

/-- Entries with the commas between them are the tokens again, but for a comma behind the last entry. -/
theorem intercalate_entriesOf (ks : List TokenKind) :
    ∃ rest ∈ [[], [[]]], ks = [.punct ","].intercalate (entriesOf ks ++ rest) ∧ entriesOf ks ++ rest ≠ [] := by
  have hne : ks.splitOn (.punct ",") ≠ [] := List.splitOn_ne_nil _ _
  by_cases hlast : (ks.splitOn (.punct ",")).getLast? = some []
  · have hsplit : entriesOf ks ++ [[]] = ks.splitOn (.punct ",") := by
      rw [entriesOf, if_pos hlast]
      exact List.dropLast_append_getLast? _ hlast
    refine ⟨[[]], by simp, ?_, by simp⟩
    rw [hsplit, List.intercalate_splitOn]
  · have hsplit : entriesOf ks = ks.splitOn (.punct ",") := if_neg hlast
    refine ⟨[], by simp, ?_, by rwa [List.append_nil, hsplit]⟩
    rw [List.append_nil, hsplit, List.intercalate_splitOn]

theorem rowCost_entriesOf_le (ks : List TokenKind) :
    ((entriesOf ks).map rowCost).sum + (entriesOf ks).length ≤ rowCost ks + 1 := by
  obtain ⟨rest, -, hks, hne⟩ := intercalate_entriesOf ks
  conv_rhs => rw [hks]
  rw [rowCost_intercalate hne, List.map_append, List.sum_append, List.length_append]
  omega

theorem mem_intercalate {rows : List (List TokenKind)} {k : TokenKind} (hk : k ≠ .punct ",") :
    k ∈ [.punct ","].intercalate rows ↔ ∃ row ∈ rows, k ∈ row := by
  induction rows with
  | nil => simp
  | cons row rest ih =>
    cases rest with
    | nil => simp
    | cons row' rest => simp_all [List.intercalate_cons_cons]

theorem mem_entriesOf {ks : List TokenKind} {k : TokenKind} (hk : k ≠ .punct ",") :
    k ∈ ks ↔ ∃ row ∈ entriesOf ks, k ∈ row := by
  obtain ⟨rest, hrest, hks, -⟩ := intercalate_entriesOf ks
  conv_lhs => rw [hks, mem_intercalate hk]
  have hempty : ∀ row ∈ rest, k ∉ row := by
    rcases List.mem_cons.1 hrest with rfl | hrest
    · simp
    · rw [List.mem_singleton.1 hrest]
      simp
  constructor
  · rintro ⟨row, hrow, hmem⟩
    rcases List.mem_append.1 hrow with hrow | hrow
    · exact ⟨row, hrow, hmem⟩
    · exact absurd hmem (hempty row hrow)
  · rintro ⟨row, hrow, hmem⟩
    exact ⟨row, List.mem_append_left _ hrow, hmem⟩

/-- The space that an entry takes in an export list. -/
def specifierInk (e : String × String) : Nat :=
  ink (exportSpecifier e.1 e.2).toList

theorem specifierInk_eq (e : String × String) :
    specifierInk e = ink e.2.toList + if e.1 = e.2 then 0 else 2 + ink e.1.toList := by
  have has : ink [' ', 'a', 's', ' '] = 2 := by decide
  unfold specifierInk exportSpecifier
  by_cases hsame : e.1 = e.2
  · rw [if_pos (by simpa using hsame), if_pos hsame]
    rfl
  · have htext : (e.2 ++ " as " ++ e.1).toList = e.2.toList ++ ([' ', 'a', 's', ' '] ++ e.1.toList) := by simp
    rw [if_neg (by simpa using hsame), if_neg hsame, htext, ink_append, ink_append, has]

theorem variableName?_eq_some {k : TokenKind} {x : String} (h : k.variableName? = some x) :
    ∃ escaped, k = .word x escaped := by
  cases k with
  | word text escaped =>
    by_cases hreserved : text ∈ reservedWords
    · rw [TokenKind.variableName?, if_pos hreserved] at h
      cases h
    · rw [TokenKind.variableName?, if_neg hreserved] at h
      exact ⟨escaped, by rw [Option.some.inj h]⟩
  | _ => cases h

/-- A name that is not a word without escapes takes more. -/
theorem exportedName?_spec {k : TokenKind} {name : String} (h : k.exportedName? = some name) :
    (k = .word name false ∨ ink name.toList < k.cost) ∧ k.isPlain = true := by
  cases k with
  | word text escaped =>
    obtain rfl : text = name := Option.some.inj h
    cases escaped with
    | false => exact ⟨.inl rfl, rfl⟩
    | true => exact ⟨.inr (Nat.lt_succ_self _), rfl⟩
  | string lit =>
    cases hlone : lit.hasLoneSurrogate with
    | true => simp [TokenKind.exportedName?, hlone] at h
    | false =>
      have hvalue : lit.value = name := by simpa [TokenKind.exportedName?, hlone] using h
      subst hvalue
      exact ⟨.inr (Nat.lt_add_of_pos_right (by decide)), by rw [TokenKind.isPlain, hlone]; rfl⟩
  | _ => cases h

/-- The tokens of an entry take as much as the entry is written with, and if they take no more, the name is a
word without escapes. -/
theorem specifier?_spec {row : List TokenKind} {e : String × String} (h : specifier? row = some e) :
    specifierInk e ≤ rowCost row ∧ (rowCost row ≤ specifierInk e → e.1 = e.2 ∨ .word e.1 false ∈ row) ∧
      ∀ k ∈ row, k.isPlain = true := by
  rw [specifierInk_eq]
  unfold specifier? at h
  split at h
  · rename_i value
    obtain ⟨l, hl, rfl⟩ := Option.map_eq_some_iff.1 h
    obtain ⟨escaped, rfl⟩ := variableName?_eq_some hl
    refine ⟨?_, fun _ => .inl rfl, by simp [TokenKind.isPlain]⟩
    simp [rowCost, TokenKind.cost]
  · rename_i value as name
    split at h
    · rename_i has
      obtain ⟨n, hn, h⟩ := Option.bind_eq_some_iff.1 h
      obtain ⟨l, hl, h⟩ := Option.bind_eq_some_iff.1 h
      obtain rfl := Option.some.inj h
      obtain ⟨escaped, rfl⟩ := variableName?_eq_some hl
      obtain ⟨hname, hplain⟩ := exportedName?_spec hn
      subst has
      have hword (x : String) (b : Bool) : (TokenKind.word x b).cost = ink x.toList + b.toNat := rfl
      have hrow : rowCost [.word l escaped, .word "as" false, name] =
          ink l.toList + escaped.toNat + 2 + name.cost := by
        have has : (TokenKind.word "as" false).cost = 2 := by decide +kernel
        simp only [rowCost, List.map_cons, List.map_nil, List.sum_cons, List.sum_nil, has, hword]
        omega
      dsimp only
      refine ⟨?_, fun hle => ?_,
        List.forall_mem_cons.2 ⟨rfl, List.forall_mem_cons.2 ⟨rfl, List.forall_mem_singleton.2 hplain⟩⟩⟩
      · rw [hrow]
        rcases hname with rfl | hname
        · rw [hword]
          split <;> omega
        · split <;> omega
      · by_cases hsame : n = l
        · exact .inl hsame
        · rw [hrow, if_neg hsame] at hle
          rcases hname with rfl | hname
          · exact .inr (by simp)
          · omega
    · cases h
  · cases h

/-- An export list that takes no more than the text it stands for has its names as words. -/
theorem word_mem_of_mapM_specifier? {rows : List (List TokenKind)} {exports : List (String × String)}
    (h : rows.mapM specifier? = some exports) :
    (exports.map specifierInk).sum ≤ (rows.map rowCost).sum ∧ exports.length = rows.length ∧
      ((rows.map rowCost).sum ≤ (exports.map specifierInk).sum →
        ∀ e ∈ exports, e.1 = e.2 ∨ ∃ row ∈ rows, .word e.1 false ∈ row) ∧
      ∀ row ∈ rows, ∀ k ∈ row, k.isPlain = true := by
  induction rows generalizing exports with
  | nil =>
    obtain rfl := Option.some.inj h
    simp
  | cons row rest ih =>
    rw [List.mapM_cons] at h
    obtain ⟨e, he, h⟩ := Option.bind_eq_some_iff.1 h
    obtain ⟨more, hmore, h⟩ := Option.bind_eq_some_iff.1 h
    obtain rfl := Option.some.inj h
    obtain ⟨hsum, hlength, hwords, hplain⟩ := ih hmore
    obtain ⟨hcost, hword, hrow⟩ := specifier?_spec he
    simp only [List.map_cons, List.sum_cons, List.length_cons]
    refine ⟨by omega, by omega, fun hle => ?_, List.forall_mem_cons.2 ⟨hrow, hplain⟩⟩
    refine List.forall_mem_cons.2 ⟨?_, fun e' he' => ?_⟩
    · exact (hword (by omega)).imp_right fun hmem => ⟨row, List.mem_cons_self, hmem⟩
    · exact (hwords (by omega) e' he').imp_right fun ⟨row', hrow', hmem⟩ =>
        ⟨row', List.mem_cons_of_mem row hrow', hmem⟩

namespace ChunkParts

variable {parts : ChunkParts}

theorem exportList_eq (hne : parts.exports ≠ []) : parts.exportList =
    "export" ++ " \x7b " ++ ", ".intercalate (parts.exports.map fun e => exportSpecifier e.1 e.2) ++ " " ++
      "\x7d;\n" := by
  rw [exportList, if_neg (by simpa using hne)]
  exact String.toList_inj.1 (by simp)

/-- An export list with names says its exports. -/
theorem saidExports?_exportList (hnames : ∀ e ∈ parts.exports, IsName e.1)
    (hlocals : ∀ e ∈ parts.exports, IsVariable e.2) :
    (tokens? parts.exportList).bind (saidExports? .es) = some parts.exports := by
  rcases eq_or_ne parts.exports [] with hempty | hne
  · have htext : parts.exportList = "" := by rw [exportList, hempty]; rfl
    have htokens : tokens? "" = some [] := by decide +kernel
    rw [htext, htokens, hempty]
    rfl
  have hexport : IsName "export" := by decide +kernel
  have hclosing : "\x7d;\n".toList.filterMap mark? = puncts ["\x7d", ";"] := by decide +kernel
  have hpiece : ∀ e ∈ parts.exports, ∀ cs tokens, EndsWord cs → Reads cs tokens →
      Reads ((exportSpecifier e.1 e.2).toList ++ cs)
        (if false then none else tokens.map (specifierTokens e ++ ·)) :=
    fun e he cs tokens hcs h => reads_specifier (hnames e he) (hlocals e he).1 hcs h
  have htoks : ∀ e ∈ parts.exports, .punct "," ∉ specifierTokens e ∧ specifierTokens e ≠ [] := by
    intro e _
    unfold specifierTokens
    split <;> simp
  have hread : ∀ e ∈ parts.exports, specifier? (specifierTokens e) = some e := by
    intro e he
    unfold specifierTokens
    split
    · rename_i hsame
      rw [specifier?, TokenKind.variableName?, if_neg (hlocals e he).2]
      exact congrArg some (Prod.ext hsame.symm rfl)
    · rw [specifier?, if_pos rfl, TokenKind.exportedName?, TokenKind.variableName?, if_neg (hlocals e he).2]
      rfl
  have hnone : parts.exports.any (fun _ => false) = false := by simp
  rw [exportList_eq hne, tokens?_braced hexport hpiece (by decide), hnone, if_neg Bool.false_ne_true,
    Option.bind_some, hclosing]
  dsimp only [saidExports?]
  rw [if_neg (by simp)]
  exact readBraced?_tokens htoks hread

theorem ink_exportList (hne : parts.exports ≠ []) :
    ink parts.exportList.toList + 1 =
      7 + (parts.exports.map specifierInk).sum + parts.exports.length + 2 := by
  have hexport : ink "export".toList = 6 := by decide
  have hopen : ink " \x7b ".toList = 1 := by decide
  have hspace : ink " ".toList = 0 := by decide
  have hclose : ink "\x7d;\n".toList = 2 := by decide
  have hlist : ink (", ".intercalate (parts.exports.map fun e => exportSpecifier e.1 e.2)).toList + 1 =
      (parts.exports.map specifierInk).sum + parts.exports.length := by
    rw [ink_intercalate (by simpa using hne), List.map_map, List.length_map]
    rfl
  rw [exportList_eq hne]
  simp only [String.toList_append, ink_append, hexport, hopen, hspace, hclose]
  omega

/-- Only names make an export list that says its exports. -/
theorem isName_of_saidExports? (hlocals : ∀ e ∈ parts.exports, IsVariable e.2)
    (h : (tokens? parts.exportList).bind (saidExports? .es) = some parts.exports) :
    ∀ e ∈ parts.exports, IsName e.1 := by
  rcases eq_or_ne parts.exports [] with hempty | hne
  · rw [hempty]
    exact List.forall_mem_nil _
  obtain ⟨ks, hks, h⟩ := Option.bind_eq_some_iff.1 h
  dsimp only [saidExports?] at h
  split at h
  · exact absurd (Option.some.inj h).symm hne
  obtain ⟨inner, hinner, h⟩ := Option.bind_eq_some_iff.1 h
  rw [inside?_eq_some] at hinner
  obtain ⟨hsum, hlength, hwords, hplain⟩ := word_mem_of_mapM_specifier? h
  have hcomma {k : TokenKind} (hk : k ∈ inner) : k.isPlain = true := by
    by_cases hcomma : k = .punct ","
    · rw [hcomma]
      rfl
    · obtain ⟨row, hrow, hmem⟩ := (mem_entriesOf hcomma).1 hk
      exact hplain row hrow k hmem
  have hall : ∀ k ∈ ks, k.isPlain = true := by
    rw [hinner]
    simpa [puncts, or_imp, forall_and, TokenKind.isPlain] using fun k => hcomma
  have hcost : rowCost ks ≤ ink parts.exportList.toList := cost_readTokens? hks hall
  have hinnerCost : rowCost ks = 7 + rowCost inner + 2 := by
    have hopen : rowCost [.word "export" false, .punct "\x7b"] = 7 := by decide +kernel
    have hclose : rowCost (puncts ["\x7d", ";"]) = 2 := by decide +kernel
    rw [hinner, rowCost_append, rowCost_append, hopen, hclose]
  -- The entries take no more than the text has, and the names as words take all of it: nothing is left for
  -- quotes or escapes.
  have hrows := rowCost_entriesOf_le inner
  have hink := ink_exportList hne
  intro e he
  rcases hwords (by omega) e he with hsame | ⟨row, hrow, hmem⟩
  · rw [hsame]
    exact (hlocals e he).1
  · have hmem' : .word e.1 false ∈ inner := (mem_entriesOf (by simp)).2 ⟨row, hrow, hmem⟩
    have hmem'' : .word e.1 false ∈ ks := by
      rw [hinner]
      exact List.mem_append_left _ (List.mem_append_right _ hmem')
    exact isName_of_readTokens? hks hmem''

end ChunkParts

end ModuleBuild
