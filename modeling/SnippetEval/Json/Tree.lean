import SnippetEval.Json.Token
/-!
A JSON text as a tree that keeps its first flaw where it stands. Reading a tree in the order of the
text therefore meets whatever is wrong first, in shape or in spelling. Every array and object around
a flaw ends with it.
-/

namespace SnippetEval

inductive Json
  | null
  | bool (value : Bool)
  | number (value : Option Json.Number)
  | string (value : Option String)
  | array (items : List Json) (ending : Option Json.Flaw)
  | object (members : List (Option String × Json)) (ending : Option Json.Flaw)
  | flaw (f : Json.Flaw)

namespace Json

inductive Open
  | array (items : List Json)
  | object (members : List (Option String × Json))
  | member (key : Option String) (members : List (Option String × Json))

inductive Want
  | value
  | itemOrClose
  | keyOrClose
  | key
  | colon (key : Option String)
  | separator

def unwind (f : Flaw) (v : Json) : List Open → Json
  | [] => v
  | .array items :: os => unwind f (.array (items.reverse ++ [v]) (some f)) os
  | .member key members :: os => unwind f (.object (members.reverse ++ [(key, v)]) (some f)) os
  | .object members :: os => unwind f (.object members.reverse (some f)) os

def breakOff (f : Flaw) : List Open → Json
  | .array items :: os => unwind f (.array items.reverse (some f)) os
  | .object members :: os => unwind f (.object members.reverse (some f)) os
  | os => unwind f (.flaw f) os

def Token.valueFlaw : Token → Flaw
  | .broken f => { f with named := .malformed }
  | .brokenString f => f
  | _ => .always .malformed

def Token.keyFlaw (first : Bool) : Token → Flaw
  | .brokenString f => if first then f else { f with named := .malformed }
  | _ => .always .malformed

def Token.scalar? : Token → Option Json
  | .null => some .null
  | .bool b => some (.bool b)
  | .number n => some (.number n)
  | .string s => some (.string s)
  | _ => none

def place (v : Json) : List Open → Option (List Open)
  | .array items :: os => some (.array (v :: items) :: os)
  | .member key members :: os => some (.object ((key, v) :: members) :: os)
  | _ => none

def build : List Open → Want → List Token → Json × List Token
  | os, .value, [] => (unwind (.always .unfinished) (.flaw (.always .unfinished)) os, [])
  | os, .key, [] => (breakOff ⟨.unfinished, .unfinished, .malformed⟩ os, [])
  | os, .colon key, [] =>
    let f := Flaw.always .unfinished
    match os with
    | .object members :: os => (unwind f (.flaw f) (.member key members :: os), [])
    | os => (breakOff f os, [])
  | os, _, [] => (breakOff (.always .unfinished) os, [])
  | .array items :: os, .itemOrClose, .closeArray :: ts
  | .array items :: os, .separator, .closeArray :: ts =>
    let v := Json.array items.reverse none
    match place v os with
    | some os => build os .separator ts
    | none => (v, ts)
  | .object members :: os, .keyOrClose, .closeObject :: ts
  | .object members :: os, .separator, .closeObject :: ts =>
    let v := Json.object members.reverse none
    match place v os with
    | some os => build os .separator ts
    | none => (v, ts)
  | .array items :: os, .separator, .comma :: ts => build (.array items :: os) .value ts
  | .object members :: os, .separator, .comma :: ts => build (.object members :: os) .key ts
  | os, .separator, _ :: _ => (breakOff (.always .malformed) os, [])
  | .object members :: os, .colon key, .colon :: ts => build (.member key members :: os) .value ts
  | .object members :: os, .colon key, _ :: _ =>
    let f := Flaw.always .malformed
    (unwind f (.flaw f) (.member key members :: os), [])
  | os, .colon _, _ :: _ => (breakOff (.always .malformed) os, [])
  | os, .key, .string s :: ts => build os (.colon s) ts
  | os, .keyOrClose, .string s :: ts => build os (.colon s) ts
  | os, .key, t :: _ => (breakOff (t.keyFlaw false) os, [])
  | os, .keyOrClose, t :: _ => (breakOff (t.keyFlaw true) os, [])
  | os, _, .openArray :: ts => build (.array [] :: os) .itemOrClose ts
  | os, _, .openObject :: ts => build (.object [] :: os) .keyOrClose ts
  | os, _, t :: ts =>
    match t.scalar? with
    | some v =>
      match place v os with
      | some os => build os .separator ts
      | none => (v, ts)
    | none => (unwind t.valueFlaw (.flaw t.valueFlaw) os, [])

def ofText (s : String) : Json × Bool :=
  let (v, rest) := build [] .value (tokens s.toList)
  (v, !rest.isEmpty)

end Json

end SnippetEval
