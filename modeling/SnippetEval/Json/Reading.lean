import SnippetEval.Json.Tree

namespace SnippetEval.Json

def maxNesting : Nat := 127

def fail {α : Type} (m : Mismatch) : Read α := .error (.mismatch m)

def enter : Nat → Read Nat
  | 0 => .error .malformed
  | n + 1 => .ok n

def found : Json → Read Found
  | null => .ok .null
  | bool b => .ok (.bool b)
  | number (some (.integer n)) => .ok (.integer n)
  | number (some (.float x)) => .ok (.float x)
  | number none => .error .malformed
  | string (some s) => .ok (.text s)
  | string none => .error .malformed
  | array .. => .ok .sequence
  | object .. => .ok .map
  | flaw f => .error f.read

def wrongType {α : Type} (v : Json) (expected : String) : Read α := do
  fail (.wrongType (← v.found) expected)

def readString : Json → Read String
  | string (some s) => .ok s
  | v => v.wrongType "a string"

def readBool : Json → Read Bool
  | bool b => .ok b
  | v => v.wrongType "a boolean"

def readSize : Json → Read Nat
  | number (some (.integer n)) =>
    if 0 ≤ n then .ok n.toNat else fail (.wrongValue (.integer n) "usize")
  | v => v.wrongType "usize"

def readOption {α : Type} (f : Json → Read α) : Json → Read (Option α)
  | null => .ok none
  | v => (f v).map some

def readEnding : Option Flaw → Read Unit
  | none => .ok ()
  | some f => .error f.read

def readList {α : Type} (f : Nat → Json → Read α) (depth : Nat) : Json → Read (List α)
  | array items ending => do
    let depth ← enter depth
    let values ← items.mapM (f depth)
    readEnding ending
    return values
  | v => v.wrongType "a sequence"

def skip : Json → Read Unit
  | array _ (some f) | object _ (some f) | flaw f => .error f.skipped
  | _ => .ok ()

def readKey : Option String → Read String
  | some k => .ok k
  | none => .error .malformed

def check : Nat → Json → Read Unit
  | n + 1, array items ending => do
    items.forM (check n)
    readEnding ending
  | n + 1, object members ending => do
    members.forM fun (k, v) => do
      let _ ← readKey k
      check n v
    readEnding ending
  | 0, array .. | 0, object .. => .error .malformed
  | _, v => do
    let _ ← v.found
    return ()

structure RecordField (σ : Type) where
  name : String
  isSet : σ → Bool
  isRequired : Bool
  read : Nat → Json → σ → Read σ

def RecordField.of {σ α : Type} (name : String) (isRequired : Bool) (read : Nat → Json → Read α)
    (get : σ → Option α) (set : α → σ → σ) : RecordField σ where
  name := name
  isSet d := (get d).isSome
  isRequired := isRequired
  read depth v d := do
    let a ← read depth v
    return set a d

variable {σ : Type}

def checkMissing (d : σ) : List (RecordField σ) → Read σ
  | [] => .ok d
  | f :: fs => if f.isRequired && !f.isSet d then fail (.missingField f.name) else checkMissing d fs

def readMembers (fields : List (RecordField σ)) (depth : Nat) :
    List (Option String × Json) → σ → Read σ
  | [], d => .ok d
  | (key, v) :: ms, d => do
    let k ← readKey key
    match fields.find? (·.name = k) with
    | none =>
      skip v
      readMembers fields depth ms d
    | some f =>
      if f.isSet d then fail (.duplicateField k) else
        readMembers fields depth ms (← f.read depth v d)

def readItems (record : String) (fields : List (RecordField σ)) (depth : Nat)
    (ending : Option Flaw) : Nat → List (RecordField σ) → List Json → σ → Read σ
  | _, [], [], d => do
    readEnding ending
    return d
  | _, [], _ :: _, _ => .error .malformed
  | i, f :: fs, v :: vs, d => do
    readItems record fields depth ending (i + 1) fs vs (← f.read depth v d)
  | i, f :: fs, [], d => do
    readEnding ending
    if f.isRequired then
      fail (.wrongLength i
        ("struct " ++ record ++ " with " ++ toString fields.length ++ " elements"))
    else readItems record fields depth ending (i + 1) fs [] d

def readRecord (record : String) (fields : List (RecordField σ)) (empty : σ) (depth : Nat) :
    Json → Read σ
  | object members ending => do
    let depth ← enter depth
    let d ← readMembers fields depth members empty
    readEnding ending
    checkMissing d fields
  | array items ending => do
    let depth ← enter depth
    readItems record fields depth ending 0 fields items empty
  | v => v.wrongType ("struct " ++ record)

def readVariant {α : Type} (ofName? : String → Option α) (known : List String) (depth : Nat) :
    Json → Read α
  | string s => do variant (← readKey s)
  | object members ending => do
    let _ ← enter depth
    match members with
    | [] => .error ((ending.map Flaw.named).getD .malformed)
    | (key, v) :: rest =>
      let a ← variant (← readKey key)
      match v with
      | null => pure ()
      | v => v.wrongType "unit"
      match rest, ending with
      | [], none => return a
      | [], some f => .error f.named
      | _ :: _, _ => .error .malformed
  | flaw f => .error f.named
  | _ => .error .malformed
where
  variant (name : String) : Read α :=
    match ofName? name with
    | some a => .ok a
    | none => fail (.unknownVariant name known)

def readText {α : Type} (f : Nat → Json → Read α) (text : String) : Read α := do
  let (v, more) := ofText text
  let a ← f maxNesting v
  if more then .error .malformed else return a

end SnippetEval.Json
