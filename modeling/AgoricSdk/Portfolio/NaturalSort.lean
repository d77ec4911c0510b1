import Mathlib.Tactic

/-!
The order of names in which runs of digits count as the numbers they write, so that `e2`
comes before `e10`.
-/

namespace AgoricSdk.Portfolio

def compareStrings (a b : List Char) : Ordering := compareOfLessAndEq a b

def digitsValue (digits : List Char) : Nat :=
  digits.foldl (fun n c => 10 * n + (c.toNat - '0'.toNat)) 0

/-- The comparison of numbers that comes first in the source only spares that of big
integers. -/
def compareNats (a b : List Char) : Ordering :=
  (compare (digitsValue a) (digitsValue b)).then (compare a.length b.length)

/-- `a.split(/([0-9]+)/)`: texts at even places, digits between them. -/
def splitDigits (name : List Char) : List (List Char) :=
  let runs := name.splitBy fun c d => c.isDigit == d.isDigit
  let runs := if runs.head?.all fun run => run.any Char.isDigit then [] :: runs else runs
  if runs.getLast?.any fun run => run.any Char.isDigit then runs ++ [[]] else runs

def compareParts : List (List Char) → List (List Char) → Ordering
  | a :: aDigits :: as, b :: bDigits :: bs =>
    ((compareStrings a b).then (compareNats aDigits bDigits)).then (compareParts as bs)
  | a :: aDigits :: _, [b] => compareStrings (a ++ aDigits) b
  | [a], b :: bDigits :: _ => compareStrings a (b ++ bDigits)
  | [a], [b] => compareStrings a b
  | _, _ => .eq

def naturalCompare (a b : String) : Ordering :=
  compareParts (splitDigits a.toList) (splitDigits b.toList)

example : ["ko100", "ko42", "parent1.child10", "parent1.child8"].insertionSort
      (fun a b => naturalCompare a b ≠ .gt) =
    ["ko42", "ko100", "parent1.child8", "parent1.child10"] := by
  decide +kernel

end AgoricSdk.Portfolio
