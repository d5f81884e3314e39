/-!
# Paths

Paths of files, as text with `/` between their segments. Empty segments and `.` segments carry no
meaning except for a `.` at the very start, so paths are compared by their components.

## Main definitions

* `Path` — a path.
* `Path.components`, `Path.same` — what a path says, and when two paths say the same.
* `Path.parent?`, `Path.ancestors` — the directories above.
* `Path.join`, `Path.fileName?`, `Path.extension?` — the usual parts.
-/

namespace ModuleBuild

/-- A path, kept as it was written. -/
structure Path where
  /-- The written form. -/
  text : String
  deriving DecidableEq, Inhabited, Repr

namespace Path

/-- The segments of a text between slashes, at least one. -/
def splitSegments : List Char → List (List Char)
  | [] => [[]]
  | c :: cs =>
    if c = '/' then [] :: splitSegments cs
    else
      match splitSegments cs with
      | [] => [[c]]
      | s :: rest => (c :: s) :: rest

/-- The text of segments. -/
def joinSegments : List (List Char) → List Char
  | [] => []
  | [s] => s
  | s :: t :: rest => s ++ '/' :: joinSegments (t :: rest)

theorem splitSegments_ne_nil (cs : List Char) : splitSegments cs ≠ [] := by
  cases cs with
  | nil => simp [splitSegments]
  | cons c cs =>
    by_cases h : c = '/'
    · simp [splitSegments, h]
    · cases hs : splitSegments cs <;> simp [splitSegments, h, hs]

theorem joinSegments_splitSegments (cs : List Char) : joinSegments (splitSegments cs) = cs := by
  induction cs with
  | nil => rfl
  | cons c cs ih =>
    cases hs : splitSegments cs with
    | nil => exact absurd hs (splitSegments_ne_nil cs)
    | cons s rest =>
      rw [hs] at ih
      by_cases h : c = '/'
      · simp [splitSegments, h, hs, joinSegments, ih]
      · cases rest with
        | nil => simp_all [splitSegments, joinSegments]
        | cons t rest => simp_all [splitSegments, joinSegments]

theorem length_joinSegments_append (xs ys : List (List Char)) :
    (joinSegments xs).length ≤ (joinSegments (xs ++ ys)).length := by
  induction xs with
  | nil => simp [joinSegments]
  | cons x xs ih =>
    cases xs with
    | nil => cases ys <;> simp [joinSegments]
    | cons y xs => simpa [joinSegments] using ih

theorem length_joinSegments_concat (xs : List (List Char)) (x : List Char) :
    (joinSegments xs).length + x.length ≤ (joinSegments (xs ++ [x])).length := by
  induction xs with
  | nil => simp [joinSegments]
  | cons y xs ih =>
    cases xs with
    | nil => simp [joinSegments]
    | cons z xs => simp [joinSegments] at ih ⊢; omega

/-- Segments without meaning. -/
def isIdle (s : List Char) : Bool :=
  s == [] || s == ['.']

/-- Drops the segments without meaning at the end. -/
def trimEnd (segments : List (List Char)) : List (List Char) :=
  (segments.reverse.dropWhile isIdle).reverse

theorem exists_append_trimEnd (xs : List (List Char)) : ∃ ys, xs = trimEnd xs ++ ys := by
  refine ⟨(xs.reverse.takeWhile isIdle).reverse, ?_⟩
  rw [trimEnd, ← List.reverse_append, List.takeWhile_append_dropWhile, List.reverse_reverse]

/-- Whether the path starts at the root. -/
def isAbsolute (p : Path) : Bool :=
  p.text.toList.head? == some '/'

/-- How many characters stand before the segments: a root, or a `.` that means the current
directory. -/
def leadLength (cs : List Char) : Nat :=
  match cs with
  | '/' :: _ => 1
  | ['.'] => 1
  | '.' :: '/' :: _ => 1
  | _ => 0

/-- The root or the current directory before the segments. -/
def lead (p : Path) : List Char :=
  p.text.toList.take (leadLength p.text.toList)

/-- The segments behind the lead. -/
def body (p : Path) : List (List Char) :=
  splitSegments (p.text.toList.drop (leadLength p.text.toList))

/-- A step of a path. -/
inductive Component where
  | root
  | current
  | up
  | name (text : String)
  deriving DecidableEq, Inhabited, Repr

/-- The steps that a path says. -/
def components (p : Path) : List Component :=
  let lead := match p.lead with
    | ['/'] => [.root]
    | ['.'] => [.current]
    | _ => []
  lead ++ (p.body.filter fun s => !isIdle s).map fun s =>
    if s == ['.', '.'] then .up else .name (String.ofList s)

/-- Whether two paths say the same steps. -/
def same (p q : Path) : Bool :=
  p.components == q.components

/-- The directory that holds the last step; none for the root and for the empty path. -/
def parent? (p : Path) : Option Path :=
  let body := trimEnd p.body
  if body.isEmpty then
    if p.lead == ['.'] then some ⟨""⟩ else none
  else
    some ⟨String.ofList (p.lead ++ joinSegments (trimEnd body.dropLast))⟩

theorem length_parent? {p q : Path} (h : p.parent? = some q) :
    q.text.length < p.text.length := by
  have total : p.lead.length + (joinSegments p.body).length = p.text.length := by
    rw [body, joinSegments_splitSegments, lead, ← List.length_append, List.take_append_drop,
      String.length_toList]
  simp only [parent?] at h
  split at h
  · split at h
    · rename_i h1
      have : p.lead = ['.'] := by simpa using h1
      simp only [Option.some.injEq] at h
      subst h
      simp [this] at total ⊢
      omega
    · simp at h
  · rename_i hne
    simp only [Option.some.injEq] at h
    subst h
    have hne : trimEnd p.body ≠ [] := by simpa using hne
    obtain ⟨ys, hys⟩ := exists_append_trimEnd p.body
    have h1 := length_joinSegments_append (trimEnd p.body) ys
    rw [← hys] at h1
    have h2 := length_joinSegments_concat (trimEnd p.body).dropLast ((trimEnd p.body).getLast hne)
    rw [List.dropLast_concat_getLast] at h2
    obtain ⟨zs, hzs⟩ := exists_append_trimEnd (trimEnd p.body).dropLast
    have h3 := length_joinSegments_append (trimEnd (trimEnd p.body).dropLast) zs
    rw [← hzs] at h3
    have h4 : (trimEnd p.body).getLast hne ≠ [] := by
      have hn : p.body.reverse.dropWhile isIdle ≠ [] := by simpa [trimEnd] using hne
      have h5 : isIdle ((p.body.reverse.dropWhile isIdle).head hn) = false := by
        have := List.head_dropWhile_not isIdle hn
        simpa using this
      have h6 : (trimEnd p.body).getLast hne = (p.body.reverse.dropWhile isIdle).head hn := by
        simp [trimEnd, List.getLast_reverse]
      intro h7
      rw [← h6, h7] at h5
      simp [isIdle] at h5
    have h5 : 0 < ((trimEnd p.body).getLast hne).length := List.length_pos_iff.mpr h4
    simp only [String.length_ofList, List.length_append]
    omega

/-- The directories above a path, from its own to the top. -/
def ancestors (p : Path) : List Path :=
  match _above : p.parent? with
  | none => []
  | some q => q :: ancestors q
termination_by p.text.length
decreasing_by exact length_parent? ‹_›

/-- The path `q` as seen from `p`. -/
def join (p q : Path) : Path :=
  if q.isAbsolute || p.text.isEmpty then q
  else if p.text.toList.getLast? == some '/' then ⟨p.text ++ q.text⟩
  else ⟨p.text ++ "/" ++ q.text⟩

/-- The last step, if it is a name. -/
def fileName? (p : Path) : Option String :=
  match p.components.getLast? with
  | some (.name s) => some s
  | _ => none

/-- What stands behind the last point of the file name; a point at the start does not count. -/
def extension? (p : Path) : Option String := do
  let name ← p.fileName?
  let reversed := name.toList.reverse
  match reversed.dropWhile (· != '.') with
  | '.' :: _ :: _ => some (String.ofList (reversed.takeWhile (· != '.')).reverse)
  | _ => none

end Path

end ModuleBuild
