import AgoricSdk.Lib.Program
import Mathlib.Data.List.MinMax
import Mathlib.Data.List.Sort

/-!
A walk over the keys of a store in their order, which asks for the next key
after each visit, while the visits change the store. A visit may do to the keys
already passed what it wants, and delete the key visited. As long as it leaves
the keys to come alone, the walk visits the keys that were there at its start.
-/

namespace KeyWalk

open StateProgram

variable {ε σ κ ρ : Type} [LinearOrder ρ]

/-- The first key that comes after the given place. -/
def nextKey (spell : κ → ρ) (keys : List κ) (after : ρ) : Option κ :=
  (keys.filter fun k => after < spell k).argmin spell

/-- Visit the keys after the given place, `n` at most, and tell whether a visit has
returned `true`. -/
def walk (spell : κ → ρ) (keys : σ → List κ) (visit : κ → EStateM ε σ Bool) :
    Nat → ρ → EStateM ε σ Bool
  | 0, _ => pure false
  | n + 1, after => do
    match nextKey spell (keys (← get)) after with
    | none => pure false
    | some k =>
      let first ← visit k
      let rest ← walk spell keys visit n (spell k)
      pure (first || rest)

/-- Visit all keys after the given place. -/
def enumerate (spell : κ → ρ) (keys : σ → List κ) (visit : κ → EStateM ε σ Bool) (start : ρ) :
    EStateM ε σ Bool := do
  let s ← get
  walk spell keys visit (keys s).length start

section Order

variable {spell : κ → ρ} {keys : List κ} {after : ρ} {k : κ} {ks : List κ}

end Order

section Rules

variable {spell : κ → ρ} {keys : σ → List κ} {visit : κ → EStateM ε σ Bool} {E : ε → σ → Prop}
  {I : List κ → σ → Prop}

instance moves_walk {R : σ → σ → Prop} [IsPreorder σ R] [hv : ∀ k, Moves R (visit k)] (n : Nat)
    (after : ρ) : Moves R (walk spell keys visit n after) := by
  induction n generalizing after with
  | zero => exact moves_pure _
  | succ n ih =>
    unfold walk
    apply moves_seq inferInstance
    intro s
    split
    · exact moves_pure _
    · exact moves_seq (hv _) fun _ => moves_seq (ih _) fun _ => moves_pure _

instance moves_enumerate {R : σ → σ → Prop} [IsPreorder σ R] [∀ k, Moves R (visit k)] (start : ρ) :
    Moves R (enumerate spell keys visit start) := by
  unfold enumerate
  infer_instance

end Rules

end KeyWalk
