import ModuleBuild.Helper.Bundle
import ModuleBuild.Proofs.Script.Spelling

/-!
# Helpers as phrases

Each helper of the registry is a function that phrases are made of, and its text is what this function is written as.

## Main definitions

* `PlainFunction` — a function that is declared by a phrase.
* `Helper.code` — the function of a helper.

## Main statements

* `chars_code` — the text of a helper is its function as it is written.
* `clear_code`, `name_code` — the tokens of the function are clear of each other, and it has the name of the helper's
  binding.
-/

namespace ModuleBuild

namespace Script

/-! ## Functions -/

/-- A function that is declared by a phrase. -/
structure PlainFunction where
  name : Name
  parameters : List Name
  body : Phrase (.statements true)

namespace PlainFunction

/-- The declaration of a function. -/
def phrase {returns : Bool} (f : PlainFunction) : Phrase (.statement returns) :=
  .function f.name f.parameters f.body

/-- The text of a function. -/
def chars (f : PlainFunction) : List Char :=
  (f.phrase : Phrase (.statement true)).chars

/-- The tokens of a function are clear of each other up to the end of its last line. -/
def Clear (f : PlainFunction) : Prop :=
  Spelled (some '\n') ((f.phrase : Phrase (.statement true)).row [] 0)

instance (f : PlainFunction) : Decidable f.Clear :=
  inferInstanceAs (Decidable (Spelled ..))

/-- The trees of a function, wherever it stands. -/
def Shape (f : PlainFunction) (n : Node) : Prop :=
  ∃ span inner ps ss, n = .func span {} (some f.name.text) ps (.body inner ss) ∧ BindsNames f.parameters ps ∧
    f.body.Shape ss

section

variable {returns : Bool} {f : PlainFunction}

-- Whether one may return around a declaration makes no difference to it.
@[simp] theorem chars_phrase : (f.phrase : Phrase (.statement returns)).chars = f.chars := rfl

theorem Clear.spelled (h : f.Clear) : Spelled (some '\n') ((f.phrase : Phrase (.statement returns)).row [] 0) := h

theorem shape_phrase {n : Node} : (f.phrase : Phrase (.statement returns)).Shape n ↔ ∃ g, n = .decl g ∧ f.Shape g := by
  constructor
  · rintro ⟨span, inner, ps, ss, rfl, hps, hss⟩
    exact ⟨_, rfl, span, inner, ps, ss, rfl, hps, hss⟩
  · rintro ⟨_, rfl, span, inner, ps, ss, rfl, hps, hss⟩
    exact ⟨span, inner, ps, ss, rfl, hps, hss⟩

end

end PlainFunction

namespace Phrase

variable {least : Nat} {returns a b : Bool}

/-- A property of what stands before it, and nothing more. -/
def property₁ (key : String) : Phrase (.links a true) :=
  .member key .noLink

/-- A value without operators. -/
def ofValue (v : Phrase .value) : Phrase (.operation least) :=
  .operand (.plain v)

/-- A value by itself. -/
def alone (v : Phrase .value) : Phrase .assignment :=
  .simple (ofValue v)

/-- A variable. -/
def ofName (x : Name) : Phrase .value :=
  .name x .noLink

/-- The value of a variable by itself. -/
def valueOf (x : String) (plain : x ∉ notableWords := by decide) : Phrase .assignment :=
  alone (ofName ⟨x, plain⟩)

/-- A function called with these values. -/
def callOf (values : List (Phrase .assignment)) : Phrase (.links a false) :=
  .call (arguments values) .noLink
where
  /-- Values between commas. -/
  arguments : List (Phrase .assignment) → Phrase .arguments
    | [] => .noArgument
    | [v] => .lastArgument v
    | v :: w :: vs => .argument v (arguments (w :: vs))

/-- Properties between commas. -/
def propertiesOf (key : String) (v : Phrase .assignment) : List (String × Phrase .assignment) → Phrase .properties
  | [] => .lastProperty key v
  | (next, w) :: rest => .property key v (propertiesOf next w rest)

end Phrase

end Script

open Script Phrase

/-! ## The helpers -/

/-- The function of the `extends` helper. -/
def extendsCode : PlainFunction where
  name := .mk "_extends"
  parameters := []
  body := .list [
    .set (.mk "_extends") .noLink (.cond (ofValue (.name (.mk "Object") (property₁ "assign")))
      (alone (.name (.mk "Object") (.member "assign" (.member "bind" (callOf [])))))
      (alone (.func [.mk "target"] (.list [
        .forFrom (.mk "i") "1"
          (.one (.simple (.binary .less (ofValue (ofName (.mk "i")))
            (ofValue (.name (.mk "arguments") (property₁ "length"))))))
          (.one (.simple (.operand (.increment (.mk "i")))))
          (.block (.list [
            .var (.mk "source") (alone (.name (.mk "arguments") (.index (.one (valueOf "i")) .noLink))),
            .forIn (.mk "key") (.one (valueOf "source")) (.block (.list [
              .ifThen
                (.one (alone (.name (.mk "Object") (.member "prototype" (.member "hasOwnProperty" (.member "call"
                  (callOf [valueOf "source", valueOf "key"])))))))
                (.block (.list [
                  .set (.mk "target") (.index (.one (valueOf "key")) .noLink)
                    (alone (.name (.mk "source") (.index (.one (valueOf "key")) .noLink)))]))]))])),
        .ret (.one (valueOf "target"))])))),
    .ret (.one (alone (.name (.mk "_extends") (.member "apply"
      (callOf [alone .this, valueOf "arguments"])))))]

/-- The function of the `setPrototypeOf` helper. -/
def setPrototypeOfCode : PlainFunction where
  name := .mk "_setPrototypeOf"
  parameters := [.mk "o", .mk "p"]
  body := .list [
    .set (.mk "_setPrototypeOf") .noLink (.cond (ofValue (.name (.mk "Object") (property₁ "setPrototypeOf")))
      (alone (.name (.mk "Object") (.member "setPrototypeOf" (.member "bind" (callOf [])))))
      (alone (.func [.mk "o", .mk "p"] (.list [
        .set (.mk "o") (property₁ "__proto__") (valueOf "p"),
        .ret (.one (valueOf "o"))])))),
    .ret (.one (alone (.name (.mk "_setPrototypeOf") (callOf [valueOf "o", valueOf "p"]))))]

/-- The function of the `inherits` helper. -/
def inheritsCode : PlainFunction where
  name := .mk "_inherits"
  parameters := [.mk "subClass", .mk "superClass"]
  body := .list [
    .ifThen
      (.one (.simple (.binary .and
        (.binary .different (.operand (.typeOf (.plain (ofName (.mk "superClass"))))) (ofValue (.string "function")))
        (.binary .different (ofValue (ofName (.mk "superClass"))) (ofValue .null)))))
      (.block (.list [
        .throw (.one (alone (.new (.mk "TypeError") (.lastArgument
          (alone (.string "Super expression must either be null or a function"))))))])),
    .set (.mk "subClass") (property₁ "prototype") (alone (.name (.mk "Object") (.member "create" (callOf [
      .simple (.binary .and (ofValue (ofName (.mk "superClass")))
        (ofValue (.name (.mk "superClass") (property₁ "prototype")))),
      alone (.object true (.lastProperty "constructor" (alone (.object false (propertiesOf "value" (valueOf "subClass")
        [("writable", alone (.bool true)), ("configurable", alone (.bool true))])))))])))),
    .perform (.mk "Object") (.member "defineProperty" (callOf
      [valueOf "subClass", alone (.string "prototype"),
      alone (.object false (.lastProperty "writable" (alone (.bool false))))])),
    .ifThen (.one (valueOf "superClass"))
      (.perform (.mk "_setPrototypeOf") (callOf [valueOf "subClass", valueOf "superClass"]))]

/-- The function of the `classCallCheck` helper. -/
def classCallCheckCode : PlainFunction where
  name := .mk "_classCallCheck"
  parameters := [.mk "instance", .mk "Constructor"]
  body := .list [
    .ifThen
      (.one (.simple (.operand (.notParen (.one (.simple
        (.binary .instanceOf (ofValue (ofName (.mk "instance"))) (ofValue (ofName (.mk "Constructor"))))))))))
      (.block (.list [
        .throw (.one (alone (.new (.mk "TypeError") (.lastArgument
          (alone (.string "Cannot call a class as a function"))))))]))]

/-- The test whether there are symbols, which the `typeof` helper makes twice. -/
def hasSymbols {least : Nat} (h : least ≤ 7 := by decide) : Phrase (.operation least) :=
  .binary .equal (ofValue (.string "function")) (.operand (.typeOf (.plain (ofName (.mk "Symbol"))))) h

/-- The function of the `typeof` helper. -/
def typeofCode : PlainFunction where
  name := .mk "_typeof"
  parameters := [.mk "o"]
  body := .list [
    .ret (.comma
      (.assign (.mk "_typeof") .noLink (.cond
        (.binary .and hasSymbols
          (.binary .equal (ofValue (.string "symbol"))
            (.operand (.typeOf (.plain (.name (.mk "Symbol") (property₁ "iterator")))))))
        (alone (.func [.mk "o"] (.list [.ret (.one (.simple (.operand (.typeOf (.plain (ofName (.mk "o")))))))])))
        (alone (.func [.mk "o"] (.list [.ret (.one (.cond
          (.binary .and
            (.binary .and
              (.binary .and (ofValue (ofName (.mk "o"))) hasSymbols)
              (.binary .same (ofValue (.name (.mk "o") (property₁ "constructor"))) (ofValue (ofName (.mk "Symbol")))))
            (.binary .different (ofValue (ofName (.mk "o"))) (ofValue (.name (.mk "Symbol") (property₁ "prototype")))))
          (alone (.string "symbol"))
          (.simple (.operand (.typeOf (.plain (ofName (.mk "o"))))))))])))))
      (alone (.name (.mk "_typeof") (callOf [valueOf "o"]))))]

/-- The function of the `defineProperty` helper. -/
def definePropertyCode : PlainFunction where
  name := .mk "_defineProperty"
  parameters := [.mk "obj", .mk "key", .mk "value"]
  body := .list [
    .ifElse (.one (.simple (.binary .isIn (ofValue (ofName (.mk "key"))) (ofValue (ofName (.mk "obj"))))))
      (.list [
        .perform (.mk "Object") (.member "defineProperty" (callOf
          [valueOf "obj", valueOf "key",
          alone (.object false (propertiesOf "value" (valueOf "value") [("enumerable", alone (.bool true)),
            ("configurable", alone (.bool true)), ("writable", alone (.bool true))]))]))])
      (.block (.list [
        .set (.mk "obj") (.index (.one (valueOf "key")) .noLink) (valueOf "value")])),
    .ret (.one (valueOf "obj"))]

/-- The function of a helper of the registry. -/
def Helper.code (h : Helper) : PlainFunction :=
  match h.name with
  | "extends" => extendsCode
  | "setPrototypeOf" => setPrototypeOfCode
  | "inherits" => inheritsCode
  | "classCallCheck" => classCallCheckCode
  | "typeof" => typeofCode
  | _ => definePropertyCode

/-! ## What they are written as -/

/-- The text of a helper is its function as it is written. -/
theorem chars_code : ∀ h ∈ helperRegistry, h.code.chars = h.body.toList := by
  intro h hh
  simp only [helperRegistry, List.mem_cons, List.not_mem_nil, or_false] at hh
  rcases hh with rfl | rfl | rfl | rfl | rfl | rfl
  -- The characters of the lines are written out before both texts are compared.
  all_goals
    rw [← beq_iff_eq]
    simp only [extendsHelper, setPrototypeOf, inheritsHelper, classCallCheck, typeofHelper, defineProperty,
      String.toList_intercalate, List.map_cons, List.map_nil, String.toList_append]
    repeat rw [String.toList_ofList]
    decide +kernel

/-- The tokens of the function are clear of each other. -/
theorem clear_code : ∀ h ∈ helperRegistry, h.code.Clear := by
  decide +kernel

/-- The function has the name of the helper's binding. -/
theorem name_code : ∀ h ∈ helperRegistry, h.code.name.text = h.localName := by
  decide +kernel

end ModuleBuild
