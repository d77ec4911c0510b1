import AgoricSdk.Lib.Table

/-!
A write-back cache over a table. Reads fill the stash, writes and deletions mark
their key as dirty, and a flush brings the table up to date. What a user of the
cache sees is its content, which neither a read nor a flush changes.
-/

/-- A cache with the keys that were written or deleted since the last flush. What
was only read is stashed as the table has it. -/
structure WriteBackCache (κ α : Type) [DecidableEq κ] where
  backing : Table κ α
  stash : Table κ α
  dirtyKeys : List κ
  coherent : ∀ k a, k ∉ dirtyKeys → stash.lookup k = some a → backing.lookup k = some a

namespace WriteBackCache

variable {κ α : Type} [DecidableEq κ] {c : WriteBackCache κ α} {k : κ} {a : α}

def ofTable (t : Table κ α) : WriteBackCache κ α := ⟨t, ∅, [], fun _ _ _ h => nomatch h⟩

instance : Inhabited (WriteBackCache κ α) := ⟨ofTable ∅⟩

/-- Write one dirty key to the table: its value, or its deletion. -/
def writeKey (stash t : Table κ α) (k : κ) : Table κ α :=
  match stash.lookup k with
  | some a => t.insert k a
  | none => t.erase k

/-- The table as it is once everything has been written to it. -/
def content (c : WriteBackCache κ α) : Table κ α := c.dirtyKeys.foldl (writeKey c.stash) c.backing

/-- The value of a key, with the cache that remembers it. -/
def get (c : WriteBackCache κ α) (k : κ) : Option α × WriteBackCache κ α :=
  match c.stash.lookup k with
  | some a => (some a, c)
  | none =>
    if hk : k ∈ c.dirtyKeys then
      -- respect a pending deletion
      (none, c)
    else
      match hb : c.backing.lookup k with
      | none => (none, c)
      | some a =>
        (some a,
          { c with
            stash := c.stash.insert k a
            coherent := by
              intro k' a' hk' h'
              rw [Table.lookup_insert] at h'
              split at h'
              case isTrue heq =>
                cases h'
                exact heq ▸ hb
              case isFalse => exact c.coherent k' a' hk' h' })

def set (c : WriteBackCache κ α) (k : κ) (a : α) : WriteBackCache κ α where
  backing := c.backing
  stash := c.stash.insert k a
  dirtyKeys := k :: c.dirtyKeys
  coherent := by
    intro k' a' hk' h'
    rw [List.mem_cons, not_or] at hk'
    rw [Table.lookup_insert, if_neg hk'.1] at h'
    exact c.coherent k' a' hk'.2 h'

def delete (c : WriteBackCache κ α) (k : κ) : WriteBackCache κ α where
  backing := c.backing
  stash := c.stash.erase k
  dirtyKeys := k :: c.dirtyKeys
  coherent := by
    intro k' a' hk' h'
    rw [List.mem_cons, not_or] at hk'
    rw [Table.lookup_erase, if_neg hk'.1] at h'
    exact c.coherent k' a' hk'.2 h'

def flush (c : WriteBackCache κ α) : WriteBackCache κ α := ofTable c.content

@[simp] theorem content_flush (c : WriteBackCache κ α) : c.flush.content = c.content := rfl

@[simp] theorem content_ofTable (t : Table κ α) : (ofTable t).content = t := rfl

section Weights

variable (f : κ → α → Nat)

end Weights

end WriteBackCache
