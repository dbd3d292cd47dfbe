import SnippetEval.Json.Reading
import SnippetEval.Sandbox
/-!
Types and their sources as a description writes them. A source node is one flat object: its span
and its children are read where they stand, and everything else is taken whole and read afterwards
as the node's kind.
-/

namespace SnippetEval.Description

open Json

structure SpanDraft where
  start : Option Nat := none
  stop : Option Nat := none

def spanFields : List (RecordField SpanDraft) := [
  .of "start" true (fun _ => readSize) (·.start) (fun a d => { d with start := some a }),
  .of "end" true (fun _ => readSize) (·.stop) (fun a d => { d with stop := some a })]

def readSpan (depth : Nat) (v : Json) : Read Span := do
  let d ← readRecord "Span" spanFields {} depth v
  return ⟨d.start.getD 0, d.stop.getD 0⟩

def typeNames : List String := ValueType.all.map ValueType.name

def readType (depth : Nat) (v : Json) : Read ValueType :=
  readVariant ValueType.ofName? typeNames depth v

inductive KindName
  | type
  | function
  | block
  | declaration
  | closure
  | statement
  deriving DecidableEq, Repr

namespace KindName

def name : KindName → String
  | type => "type"
  | function => "function"
  | block => "block"
  | declaration => "local"
  | closure => "closure"
  | statement => "statement"

def all : List KindName := [type, function, block, declaration, closure, statement]

def read : Json → Read KindName
  | string (some s) =>
    match all.find? (·.name = s) with
    | some k => .ok k
    | none => fail (.unknownVariant s (all.map name))
  | number (some (.integer n)) =>
    if n < 0 then fail (.wrongType (.integer n) "variant identifier")
    else match all[n.toNat]? with
      | some k => .ok k
      | none => fail (.wrongValue (.integer n) "variant index 0 <= i < 6")
  | v => v.wrongType "variant identifier"

end KindName

def readTakenType : Json → Read ValueType
  | string s => do readType.variant (← readKey s)
  | object [(key, v)] _ => do
    let t ← readType.variant (← readKey key)
    match v with
    | null | object [] _ => return t
    | v => v.wrongType "unit"
  | object .. => fail (.wrongValue .map "map with a single key")
  | v => v.wrongType "string or map"
where
  readType.variant (name : String) : Read ValueType :=
    readVariant.variant ValueType.ofName? typeNames name

structure KindDraft where
  name : Option String := none
  isStatic : Option Bool := none
  type : Option ValueType := none

def nameField : RecordField KindDraft :=
  .of "name" true (fun _ => readString) (·.name) (fun a d => { d with name := some a })

def staticField : RecordField KindDraft :=
  .of "is_static" false (fun _ => readBool) (·.isStatic) (fun a d => { d with isStatic := some a })

def typeField : RecordField KindDraft :=
  .of "ty" true (fun _ => readTakenType) (·.type) (fun a d => { d with type := some a })

def KindName.fields : KindName → List (RecordField KindDraft)
  | type => [nameField]
  | function => [nameField, staticField]
  | declaration => [nameField, typeField]
  | block | closure | statement => []

def KindName.build (k : KindName) (d : KindDraft) : NodeKind :=
  let name := d.name.getD ""
  match k with
  | type => .type name
  | function => .function name (d.isStatic.getD false)
  | block => .block
  | declaration => .declaration name (d.type.getD .any)
  | closure => .closure
  | statement => .statement

def readKindName (members : List (Option String × Json)) (seen : Option KindName) :
    Read KindName :=
  match members, seen with
  | [], some k => .ok k
  | [], none => fail (.missingField "kind")
  | (key, v) :: ms, seen =>
    if key ≠ some "kind" then readKindName ms seen
    else if seen.isSome then fail (.duplicateField "kind")
    else do readKindName ms (some (← KindName.read v))

def readKind (members : List (Option String × Json)) : Read NodeKind := do
  let k ← readKindName members none
  let d ← readMembers k.fields 0 (members.filter (·.1 ≠ some "kind")) {}
  return k.build (← checkMissing d k.fields)

structure NodeDraft where
  span : Option Span := none
  children : Option (List SourceNode) := none
  taken : List (Option String × Json) := []

def readNodeMembers (readChildren : Json → Read (List SourceNode)) (depth : Nat) :
    List (Option String × Json) → NodeDraft → Read NodeDraft
  | [], d => .ok d
  | (key, v) :: ms, d => do
    let k ← readKey key
    if k = "span" then
      if d.span.isSome then fail (.duplicateField k)
      else readNodeMembers readChildren depth ms { d with span := some (← readSpan depth v) }
    else if k = "children" then
      if d.children.isSome then fail (.duplicateField k)
      else readNodeMembers readChildren depth ms { d with children := some (← readChildren v) }
    else do
      check depth v
      readNodeMembers readChildren depth ms { d with taken := d.taken ++ [(key, v)] }

def readNodeWith (readChild : Json → Read SourceNode) (depth : Nat) : Json → Read SourceNode
  | object members ending => do
    let depth ← enter depth
    let d ← readNodeMembers (readList (fun _ => readChild) depth) depth members {}
    readEnding ending
    match d.span with
    | none => fail (.missingField "span")
    | some span => return .node (← readKind d.taken) span (d.children.getD [])
  | v => v.wrongType "struct SourceNode"

def readNode : Nat → Json → Read SourceNode
  | n + 2 => readNodeWith (readNode n) (n + 2)
  | n => readNodeWith (fun _ => .error .malformed) n

structure FieldDraft where
  name : Option String := none
  type : Option ValueType := none

def fieldFields : List (RecordField FieldDraft) := [
  .of "name" true (fun _ => readString) (·.name) (fun a d => { d with name := some a }),
  .of "ty" false readType (·.type) (fun a d => { d with type := some a })]

def readField (depth : Nat) (v : Json) : Read FieldDef := do
  let d ← readRecord "FieldDef" fieldFields {} depth v
  return ⟨d.name.getD "", d.type.getD .any⟩

structure TypeDraft where
  name : Option String := none
  enclosing : Option (Option String) := none
  source : Option (Option SourceNode) := none
  fields : Option (List FieldDef) := none
  hidden : Option Bool := none

def typeFields : List (RecordField TypeDraft) := [
  .of "name" true (fun _ => readString) (·.name) (fun a d => { d with name := some a }),
  .of "enclosing" false (fun _ => readOption readString) (·.enclosing)
    (fun a d => { d with enclosing := some a }),
  .of "source" false (fun depth => readOption (readNode depth)) (·.source)
    (fun a d => { d with source := some a }),
  .of "fields" false (readList readField) (·.fields) (fun a d => { d with fields := some a }),
  .of "hidden" false (fun _ => readBool) (·.hidden) (fun a d => { d with hidden := some a })]

def readTypeDef (depth : Nat) (v : Json) : Read TypeDef := do
  let d ← readRecord "TypeDef" typeFields {} depth v
  return {
    name := d.name.getD ""
    enclosing := d.enclosing.getD none
    source := d.source.getD none
    fields := d.fields.getD []
    hidden := d.hidden.getD false }

end SnippetEval.Description
