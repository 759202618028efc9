/-!
# Tables of code points

Classes of characters are given by ascending tables: closed intervals, runs with a step, and runs
whose members move by a fixed distance.
-/

namespace Script.Text

/-- A closed interval of code points. -/
abbrev Interval := Nat × Nat

/-- Some interval of the table holds the code point. -/
def Interval.mem (table : List Interval) (n : Nat) : Bool :=
  table.any fun (first, last) => first ≤ n && n ≤ last

/-- Every code point from the first to the last that lies whole steps from the first. -/
abbrev Run := Nat × Nat × Nat

/-- Some run of the table holds the code point. -/
def Run.mem (table : List Run) (n : Nat) : Bool :=
  table.any fun (first, last, step) => first ≤ n && n ≤ last && (n - first) % step == 0

/-- A run whose members all move by the same distance. -/
abbrev Shift := Nat × Nat × Nat × Int

/-- Where the code point moves, if a run of the table holds it. -/
def Shift.apply? (table : List Shift) (n : Nat) : Option Nat :=
  (table.find? fun (first, last, step, _) =>
    first ≤ n && n ≤ last && (n - first) % step == 0).map
    fun (_, _, _, distance) => ((n : Int) + distance).toNat

end Script.Text
