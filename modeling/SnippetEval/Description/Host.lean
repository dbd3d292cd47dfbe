import SnippetEval.Description.Types
import SnippetEval.Value

namespace SnippetEval

inductive FieldValue
  | null
  | bool (value : Bool)
  | int (value : Int64)
  | float (value : Float)
  | text (value : String)
  | ref (id : String)
  | unsupported

structure ObjectDef where
  id : String
  typeName : String
  fields : Table String FieldValue := .empty
  outer : Option String := none

structure HostDescription where
  types : List TypeDef := []
  objects : List ObjectDef := []

inductive HostError
  | unreadable (path reason : String)
  | description (problem : Json.Problem)
  | unknownObject (id referencedBy : String)
  | unsupportedValue (object field : String)
  | cycle (id : String)
  | duplicateObject (id : String)

def HostError.message : HostError → String
  | unreadable path reason => "cannot read host file " ++ path ++ ": " ++ reason
  | description (.mismatch m) => "invalid host description: " ++ m.message
  | description .malformed => "invalid host description: malformed text"
  | description .unfinished => "invalid host description: unexpected end of text"
  | unknownObject id referrer =>
    "object `" ++ referrer ++ "` refers to unknown object `" ++ id ++ "`"
  | unsupportedValue object field =>
    "field `" ++ field ++ "` of object `" ++ object ++ "` has an unsupported value"
  | cycle id => "object `" ++ id ++ "` is part of a reference cycle"
  | duplicateObject id => "duplicate object id `" ++ id ++ "`"

namespace Description

open Json

def fieldValue : Json → FieldValue
  | .null => .null
  | .bool b => .bool b
  | .number (some (.integer n)) =>
    match Decimal.int64? n with
    | some m => .int m
    | none => .float (Number.toFloat n.toNat)
  | .number (some (.float x)) => .float x
  | .string (some s) => .text s
  | .object members _ =>
    match members.reverse with
    | (some "ref", .string (some id)) :: rest =>
      if rest.all (·.1 = some "ref") then .ref id else .unsupported
    | _ => .unsupported
  | _ => .unsupported

def readFieldValues (depth : Nat) : Json → Read (Table String FieldValue)
  | object members ending => do
    let depth ← enter depth
    let entries ← members.mapM fun (key, v) => do
      let k ← readKey key
      check depth v
      return (k, fieldValue v)
    readEnding ending
    return Table.ofList entries
  | v => v.wrongType "a map"

structure ObjectDraft where
  id : Option String := none
  typeName : Option String := none
  fields : Option (Table String FieldValue) := none
  outer : Option (Option String) := none

def objectFields : List (RecordField ObjectDraft) := [
  .of "id" true (fun _ => readString) (·.id) (fun a d => { d with id := some a }),
  .of "type" true (fun _ => readString) (·.typeName) (fun a d => { d with typeName := some a }),
  .of "fields" false readFieldValues (·.fields) (fun a d => { d with fields := some a }),
  .of "outer" false (fun _ => readOption readString) (·.outer)
    (fun a d => { d with outer := some a })]

def readObject (depth : Nat) (v : Json) : Read ObjectDef := do
  let d ← readRecord "ObjectDef" objectFields {} depth v
  return {
    id := d.id.getD ""
    typeName := d.typeName.getD ""
    fields := d.fields.getD .empty
    outer := d.outer.getD none }

structure HostDraft where
  types : Option (List TypeDef) := none
  objects : Option (List ObjectDef) := none

def hostFields : List (RecordField HostDraft) := [
  .of "types" false (readList readTypeDef) (·.types) (fun a d => { d with types := some a }),
  .of "objects" false (readList readObject) (·.objects) (fun a d => { d with objects := some a })]

def readHost (depth : Nat) (v : Json) : Read HostDescription := do
  let d ← readRecord "HostDescription" hostFields {} depth v
  return ⟨d.types.getD [], d.objects.getD []⟩

end Description

def takeOut (id : String) : List ObjectDef → Option (ObjectDef × List ObjectDef)
  | [] => none
  | d :: ds =>
    if d.id = id then some (d, ds) else (takeOut id ds).map fun (f, rest) => (f, d :: rest)

theorem length_of_takeOut {id : String} {ds rest : List ObjectDef} {d : ObjectDef}
    (h : takeOut id ds = some (d, rest)) : ds.length = rest.length + 1 := by
  induction ds generalizing d rest with
  | nil => simp [takeOut] at h
  | cons e es ih =>
    simp only [takeOut] at h
    split at h
    · cases h; rfl
    · obtain ⟨⟨f, rest'⟩, hf, he⟩ := Option.map_eq_some_iff.1 h
      cases he
      simp [ih hf]

abbrev Objects := Table String Instance

mutual

/-- Builds an object and what it refers to. Descriptions whose object is being built are not among
the available ones, so a reference back to them is a cycle. -/
def buildObject (stamp : Nat) (ids : List String) (available : List ObjectDef) (built : Objects)
    (id referencedBy : String) : Except HostError (Instance × Objects) :=
  match built.get? id with
  | some o => .ok (o, built)
  | none =>
    match h : takeOut id available with
    | none => .error (if ids.contains id then .cycle id else .unknownObject id referencedBy)
    | some (d, rest) =>
      have := length_of_takeOut h
      match buildFields stamp ids rest id built d.fields.sorted with
      | .error e => .error e
      | .ok (fields, built) =>
        match d.outer with
        | none =>
          let o := Instance.mk ⟨stamp, id⟩ d.typeName fields none
          .ok (o, built.insert id o)
        | some outer =>
          match buildObject stamp ids rest built outer id with
          | .error e => .error e
          | .ok (around, built) =>
            let o := Instance.mk ⟨stamp, id⟩ d.typeName fields (some around)
            .ok (o, built.insert id o)
termination_by (available.length, 0)

def buildFields (stamp : Nat) (ids : List String) (available : List ObjectDef) (owner : String)
    (built : Objects) :
    List (String × FieldValue) → Except HostError (List (String × Value) × Objects)
  | [] => .ok ([], built)
  | (name, v) :: fs =>
    match buildValue stamp ids available owner name built v with
    | .error e => .error e
    | .ok (value, built) =>
      match buildFields stamp ids available owner built fs with
      | .error e => .error e
      | .ok (rest, built) => .ok ((name, value) :: rest, built)
termination_by fs => (available.length, fs.length + 2)

def buildValue (stamp : Nat) (ids : List String) (available : List ObjectDef) (owner name : String)
    (built : Objects) : FieldValue → Except HostError (Value × Objects)
  | .null => .ok (.null, built)
  | .bool b => .ok (.bool b, built)
  | .int n => .ok (.int n, built)
  | .float x => .ok (.float x, built)
  | .text s => .ok (.text s, built)
  | .unsupported => .error (.unsupportedValue owner name)
  | .ref id =>
    match buildObject stamp ids available built id owner with
    | .error e => .error e
    | .ok (o, built) => .ok (.object o, built)
termination_by (available.length, 1)

end

def duplicateId? (seen : List String) : List ObjectDef → Option String
  | [] => none
  | d :: ds => if seen.contains d.id then some d.id else duplicateId? (d.id :: seen) ds

def buildAll (stamp : Nat) (all : List ObjectDef) (built : Objects) :
    List ObjectDef → Except HostError Objects
  | [] => .ok built
  | d :: ds =>
    match buildObject stamp (all.map ObjectDef.id) all built d.id d.id with
    | .error e => .error e
    | .ok (_, built) => buildAll stamp all built ds

namespace HostDescription

def objectGraph (d : HostDescription) (stamp : Nat) : Except HostError Objects :=
  match duplicateId? [] d.objects with
  | some id => .error (.duplicateObject id)
  | none => buildAll stamp d.objects .empty d.objects

/-- Defines the types, which stay defined if the objects cannot be built. -/
def install (d : HostDescription) (stamp : Nat) (s : Sandbox) :
    Except HostError Objects × Sandbox :=
  (d.objectGraph stamp, d.types.foldl Sandbox.define s)

def ofText (text : String) : Except HostError HostDescription :=
  (Json.readText Description.readHost text).mapError .description

end HostDescription

end SnippetEval
