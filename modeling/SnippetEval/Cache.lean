import SnippetEval.Fingerprint
import SnippetEval.Table
/-!
Entries that live as long as the generation they were stored under is the latest seen. An access
under a later generation drops everything; one under an earlier generation neither finds nor
stores.
-/

namespace SnippetEval

structure Cache (α : Type) where
  observed : Option Nat := none
  entries : Table Fingerprint α := .empty

namespace Cache

variable {α : Type}

def empty : Cache α := {}

def sync (c : Cache α) (generation : Nat) : Cache α :=
  match c.observed with
  | some seen => if generation ≤ seen then c else ⟨some generation, .empty⟩
  | none => ⟨some generation, .empty⟩

def isCurrent (c : Cache α) (generation : Nat) : Bool := c.observed = some generation

def getSynced (c : Cache α) (f : Fingerprint) (generation : Nat) : Option α × Cache α :=
  let c := c.sync generation
  (if c.isCurrent generation then c.entries.get? f else none, c)

def get (c : Cache α) (f : Fingerprint) (generation : Nat) : Option α × Cache α :=
  if c.isCurrent generation then (c.entries.get? f, c) else c.getSynced f generation

def put (c : Cache α) (f : Fingerprint) (a : α) (generation : Nat) : Cache α :=
  let c := c.sync generation
  if c.isCurrent generation then { c with entries := c.entries.insert f a } else c

def clear (c : Cache α) : Cache α := { c with entries := .empty }

def size (c : Cache α) : Nat := c.entries.size

def isEmpty (c : Cache α) : Bool := c.entries.isEmpty

def map (f : α → α) (c : Cache α) : Cache α := { c with entries := c.entries.map fun _ a => f a }

end Cache

end SnippetEval
