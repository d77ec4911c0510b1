import AgoricSdk.Timer.Numbers
import Mathlib.Data.List.Lex

/-!
The comparison of a natural sort. A string is split at its runs of decimal digits, and two
strings are compared by their parts in turn.
-/

namespace AgoricSdk.NaturalSort

open Timer (Number)

/-- Strings are compared by their UTF-16 code units. -/
abbrev CodeUnit := Fin 65536

abbrev Text := List CodeUnit

section Comparisons

def isDigit (c : CodeUnit) : Bool := 48 ≤ c && c ≤ 57

/-- The integer that a run of digits stands for. -/
def digitsValue (digits : Text) : ℕ := Nat.ofDigits 10 (digits.reverse.map fun c => c.val - 48)

/-- `Math.sign`, which is never asked about a number that is not one. -/
def sign : Number → Ordering
  | .finite q => compare q 0
  | .infinity negative => if negative then .lt else .gt
  | .nan => .eq

def compareNats (a b : Text) : Ordering :=
  let diff := (Number.ofBigInt (digitsValue a)).sub (.ofBigInt (digitsValue b))
  -- Ties are resolved by integers of any size, and then by the number of leading zeros.
  let resolved := if a = b then Number.finite 0
    else
      let big := Number.ofBigInt ((digitsValue a : ℤ) - digitsValue b)
      if big = .finite 0 then .finite ((a.length : ℚ) - b.length) else big
  sign <| match diff with
    | .finite q => if q = 0 then resolved else .finite q
    | _ => resolved

def compareStrings (a b : Text) : Ordering := compareOfLessAndEq a b

end Comparisons

section Parts

/-- The parts of a string: texts, each but the last followed by a run of digits. -/
inductive Parts where
  | suffix (text : Text)
  | run (text digits : Text) (rest : Parts)
  deriving DecidableEq

/-- `a.split(/([0-9]+)/)` -/
def splitDigits : Text → Parts
  | [] => .suffix []
  | c :: cs =>
    if isDigit c then
      match splitDigits cs with
      | .run [] digits rest => .run [] (c :: digits) rest
      | parts => .run [] [c] parts
    else
      match splitDigits cs with
      | .run text digits rest => .run (c :: text) digits rest
      | .suffix text => .suffix (c :: text)

def compareParts : Parts → Parts → Ordering
  | .run a aDigits aRest, .run b bDigits bRest =>
    ((compareStrings a b).then (compareNats aDigits bDigits)).then (compareParts aRest bRest)
  -- After a common prefix one operand has digits where the other does not.
  | .run a aDigits _, .suffix b => compareStrings (a ++ aDigits) b
  | .suffix a, .run b bDigits _ => compareStrings a (b ++ bDigits)
  | .suffix a, .suffix b => compareStrings a b

def naturalCompare (a b : Text) : Ordering := compareParts (splitDigits a) (splitDigits b)

end Parts

end AgoricSdk.NaturalSort
