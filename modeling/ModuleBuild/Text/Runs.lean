/-!
# Runs of code points

Tables over all code points are kept as texts of runs: a name, and the length of the run, which is
left out when it is one. A decoded table is searched by the start of its runs.

## Main definitions

* `takeLength` — reads the length of a run.
* `lastRun` — the run that holds a code point.
-/

namespace ModuleBuild.Text

/-- Splits off a run length, which is one where no digit stands. -/
def takeLength (cs : List Char) : Nat × List Char :=
  match cs.takeWhile Char.isDigit with
  | [] => (1, cs)
  | ds => (ds.foldl (fun n d => 10 * n + (d.toNat - 48)) 0, cs.dropWhile Char.isDigit)

/-- The index of the last run that starts at or before `n`, between `lo` and `hi`; `fuel` bounds the
number of times the space between them is halved. -/
def lastRun (start : Nat → Nat) (n : Nat) : Nat → Nat → Nat → Nat
  | 0, lo, _ => lo
  | fuel + 1, lo, hi =>
    if hi ≤ lo + 1 then lo
    else
      let mid := (lo + hi) / 2
      if start mid ≤ n then lastRun start n fuel mid hi
      else lastRun start n fuel lo mid

end ModuleBuild.Text
