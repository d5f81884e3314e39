import Mathlib
import ModuleBuild.Proofs.Script.Strings

/-!
# The characters that tokens take

Tokens do not overlap, so all of them together take no more characters than the text has. White space and
comments take some as well, so only the other characters are counted. An escape stands for one character and
takes more, so a token takes at least what it stands for.

## Main definitions

* `ink` — how many characters of a text are no white space.
* `TokenKind.cost` — how many of them a token takes at least.

## Main statements

* `cost_readTokens?` — the tokens of a text take no more than the text has.
-/

namespace ModuleBuild.Script

open Text

/-! ## Ink -/

/-- The number of characters that are not passed over between tokens. -/
def ink (cs : List Char) : Nat :=
  cs.countP (!isTrivia ·)

theorem ink_append (cs ds : List Char) : ink (cs ++ ds) = ink cs + ink ds :=
  List.countP_append

theorem ink_cons (c : Char) (cs : List Char) : ink (c :: cs) = ink [c] + ink cs :=
  ink_append [c] cs

theorem ink_singleton_le (c : Char) : ink [c] ≤ 1 :=
  List.countP_le_length

theorem ink_le_of_suffix {cs ds : List Char} (h : cs <:+ ds) : ink cs ≤ ink ds :=
  h.sublist.countP_le

/-- How many such characters a token takes at least. -/
def TokenKind.cost : TokenKind → Nat
  | .word text escaped => ink text.toList + escaped.toNat
  | .punct text => ink text.toList
  | .string lit => ink lit.value.toList + 2
  | _ => 0

theorem readUnicode?_suffix {cs rest : List Char} {n : Nat} (h : readUnicode? cs = some (n, rest)) :
    rest <:+ cs := by
  unfold readUnicode? at h
  split at h
  · rename_i inside
    obtain ⟨m, -, h⟩ := Option.bind_eq_some_iff.1 h
    dsimp only at h
    split at h
    · cases h
    · split at h
      · rename_i tail htail
        obtain ⟨rfl, rfl⟩ := Prod.mk.inj (Option.some.inj h)
        have hdrop := List.drop_suffix (inside.takeWhile (· != '\x7d')).length inside
        rw [htail] at hdrop
        exact ((List.suffix_cons _ _).trans hdrop).trans (List.suffix_cons _ _)
      · cases h
  · dsimp only at h
    split at h
    · cases h
    · obtain ⟨m, -, h⟩ := Option.bind_eq_some_iff.1 h
      obtain ⟨rfl, rfl⟩ := Prod.mk.inj (Option.some.inj h)
      exact List.drop_suffix _ _

/-- What is read as a word takes no less than the word, and more if it is written with escapes. -/
theorem ink_readWordChars (fuel : Nat) (first : Bool) (cs : List Char) :
    ink (readWordChars fuel first cs).1 + (readWordChars fuel first cs).2.1.toNat +
      ink (readWordChars fuel first cs).2.2 ≤ ink cs := by
  fun_induction readWordChars fuel first cs with
  | case1 first fuel rest n rest' hread c hc word _ tail hword ih =>
    have hsuffix := ink_le_of_suffix (readUnicode?_suffix hread)
    rw [hword] at ih
    have hescape : ink ('\\' :: 'u' :: rest) = 2 + ink rest := ink_append ['\\', 'u'] rest
    have hone := ink_singleton_le c
    rw [ink_cons c]
    dsimp only [Bool.toNat_true] at ih ⊢
    omega
  | case2 => simp [ink]
  | case3 => simp [ink]
  | case4 first fuel c rest _ hc word escaped tail hword ih =>
    rw [hword] at ih
    rw [ink_cons c, ink_cons c rest]
    dsimp only at ih ⊢
    omega
  | case5 => simp [ink]
  | case6 => simp [ink]

/-- An escape stands for no more than one character. -/
theorem readEscape?_spec {cs rest : List Char} {points : List Nat} (h : readEscape? cs = some (points, rest)) :
    points.length ≤ 1 ∧ rest <:+ cs := by
  have hunicode {inside tail : List Char} {n : Nat} (h : readUnicode? inside = some (n, tail)) :
      tail <:+ 'u' :: inside := (readUnicode?_suffix h).trans (List.suffix_cons _ _)
  unfold readEscape? at h
  split at h
  -- The escapes of one character come first.
  all_goals try
    obtain ⟨rfl, rfl⟩ := Prod.mk.inj (Option.some.inj h)
    exact ⟨Nat.le_refl _, List.suffix_cons _ _⟩
  · cases h
  · obtain ⟨rfl, rfl⟩ := Prod.mk.inj (Option.some.inj h)
    exact ⟨Nat.zero_le _, (List.suffix_cons _ _).trans (List.suffix_cons _ _)⟩
  · rename_i a b tail
    obtain ⟨n, -, heq⟩ := Option.map_eq_some_iff.1 h
    obtain ⟨rfl, rfl⟩ := Prod.mk.inj heq
    exact ⟨Nat.le_refl _, List.suffix_append ['x', a, b] _⟩
  · cases h
  · rename_i inside
    obtain ⟨⟨hi, tail⟩, hhi, h⟩ := Option.bind_eq_some_iff.1 h
    dsimp only at h
    split at h
    · split at h
      · rename_i more
        split at h
        · rename_i lo last hlo
          split at h
          · obtain ⟨rfl, rfl⟩ := Prod.mk.inj (Option.some.inj h)
            refine ⟨Nat.le_refl _, ((readUnicode?_suffix hlo).trans ?_).trans (hunicode hhi)⟩
            exact List.suffix_append ['\\', 'u'] _
          · obtain ⟨rfl, rfl⟩ := Prod.mk.inj (Option.some.inj h)
            exact ⟨Nat.le_refl _, hunicode hhi⟩
        · cases h
      · obtain ⟨rfl, rfl⟩ := Prod.mk.inj (Option.some.inj h)
        exact ⟨Nat.le_refl _, hunicode hhi⟩
    · obtain ⟨rfl, rfl⟩ := Prod.mk.inj (Option.some.inj h)
      exact ⟨Nat.le_refl _, hunicode hhi⟩
  · split at h
    · obtain ⟨rfl, rfl⟩ := Prod.mk.inj (Option.some.inj h)
      exact ⟨Nat.zero_le _, List.suffix_cons _ _⟩
    dsimp only at h
    split at h
    · obtain ⟨rfl, rfl⟩ := Prod.mk.inj (Option.some.inj h)
      exact ⟨Nat.le_refl _, List.drop_suffix _ _⟩
    · obtain ⟨rfl, rfl⟩ := Prod.mk.inj (Option.some.inj h)
      exact ⟨Nat.le_refl _, List.suffix_cons _ _⟩

/-- What is read as a string takes no less than its characters, and the closing quote. -/
theorem ink_readStringPoints {quote : Char} (hquote : ink [quote] = 1) {fuel : Nat} {cs rest : List Char}
    {points : List Nat} (h : readStringPoints quote fuel cs = some (points, rest)) :
    ink (points.map Char.ofNat) + 1 + ink rest ≤ ink cs := by
  fun_induction readStringPoints quote fuel cs generalizing points with
  | case1 fuel inside ih =>
    obtain ⟨⟨ps, tail⟩, hescape, h⟩ := Option.bind_eq_some_iff.1 h
    obtain ⟨⟨more, last⟩, hmore, h⟩ := Option.bind_eq_some_iff.1 h
    obtain ⟨rfl, rfl⟩ := Prod.mk.inj (Option.some.inj h)
    obtain ⟨hlength, hsuffix⟩ := readEscape?_spec hescape
    have hps : ink (ps.map Char.ofNat) ≤ 1 :=
      List.countP_le_length.trans ((List.length_map _).trans_le hlength)
    have hbackslash : ink ('\\' :: inside) = 1 + ink inside := ink_append ['\\'] inside
    have htail := ink_le_of_suffix hsuffix
    have hrest := ih tail hmore
    rw [List.map_append, ink_append]
    omega
  | case2 fuel c inside hfirst hc =>
    obtain rfl : c = quote := by simpa using hc
    obtain ⟨rfl, rfl⟩ := Prod.mk.inj (Option.some.inj h)
    rw [ink_cons, hquote]
    exact Nat.le_of_eq (congrArg (· + _) (Nat.zero_add 1))
  | case3 => cases h
  | case4 fuel c inside hfirst hc hline ih =>
    obtain ⟨⟨more, last⟩, hmore, h⟩ := Option.bind_eq_some_iff.1 h
    obtain ⟨rfl, rfl⟩ := Prod.mk.inj (Option.some.inj h)
    have hrest := ih hmore
    rw [List.map_cons, Char.ofNat_toNat, ink_cons, ink_cons c inside]
    omega
  | case5 => cases h

theorem PlainToken.cost_le {cs rest : List Char} {k : TokenKind} (h : PlainToken cs k rest) :
    k.cost + ink rest ≤ ink cs := by
  cases h with
  | @word text escaped rest read_eq =>
    have hink := ink_readWordChars (cs.length + 1) true cs
    unfold readWord? at read_eq
    split at read_eq
    · cases read_eq
    · rename_i word e tail _ hword
      obtain ⟨rfl, heq⟩ := Prod.mk.inj (Option.some.inj read_eq)
      obtain ⟨rfl, rfl⟩ := Prod.mk.inj heq
      rw [hword] at hink
      rw [TokenKind.cost, String.toList_ofList]
      exact hink
  | @string quote inside lit rest cs_eq quote_eq read_eq value =>
    subst cs_eq
    obtain ⟨⟨points, tail⟩, hpoints, h⟩ := Option.bind_eq_some_iff.1 read_eq
    have hquote : ink [quote] = 1 := by rcases quote_eq with rfl | rfl <;> decide
    have hink := ink_readStringPoints hquote hpoints
    cases htext : textOfPoints points with
    | mk text lone =>
      simp only [htext] at h
      obtain ⟨rfl, rfl⟩ := Prod.mk.inj (Option.some.inj h)
      obtain rfl : lone = false := value
      obtain rfl : String.ofList (points.map Char.ofNat) = text := by
        rw [textOfPoints_eq (by rw [htext])] at htext
        exact (Prod.mk.inj htext).1
      rw [ink_cons, hquote, TokenKind.cost, String.toList_ofList]
      omega
  | @punct text rest cs_eq =>
    subst cs_eq
    rw [TokenKind.cost, ink_append]

/-- The tokens of a text take no more than the text. -/
theorem cost_readTokens? {fuel : Nat} {cs : List Char} {ks : List TokenKind}
    (h : readTokens? fuel cs = some ks) (hplain : ∀ k ∈ ks, k.isPlain = true) :
    (ks.map TokenKind.cost).sum ≤ ink cs := by
  induction fuel generalizing cs ks with
  | zero => cases h
  | succ fuel ih =>
    obtain ⟨start, hstart, h⟩ := Option.bind_eq_some_iff.1 h
    obtain ⟨⟨k, rest⟩, hread, h⟩ := Option.bind_eq_some_iff.1 h
    dsimp only at h
    split at h
    · obtain rfl := Option.some.inj h
      exact Nat.zero_le _
    · obtain ⟨more, hmore, h⟩ := Option.bind_eq_some_iff.1 h
      obtain rfl := Option.some.inj h
      have hk := (PlainToken.of_readToken? hread (hplain k List.mem_cons_self)).cost_le
      have hrest := ih hmore fun k' hk' => hplain k' (List.mem_cons_of_mem k hk')
      have hskip := ink_le_of_suffix (of_skip? hstart).1
      rw [List.map_cons, List.sum_cons]
      omega

end ModuleBuild.Script
