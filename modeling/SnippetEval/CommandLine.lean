import SnippetEval.Bridge
import SnippetEval.Description.Host
import SnippetEval.Evaluator

namespace SnippetEval.CommandLine

structure Options where
  snippet : Option String := none
  host : Option String := none
  context : Option String := none
  immediate : Option String := none
  offset : Option Nat := none
  receiver : Option String := none
  symbols : List String := []
  times : Option Nat := none
  noCache : Bool := false
  maxDepth : Option Nat := none
  verbose : Bool := false

inductive Command
  | usageError
  | version
  | evaluate (o : Options)

def once {α : Type} (old : Option α) (new : Option α) : Option (Option α) :=
  match old, new with
  | none, some a => some (some a)
  | _, _ => none

def onceFlag (old : Bool) : Option Bool := if old then none else some true

def readSize (s : String) : Option Nat := Decimal.readNat UInt64.size s.toList

def readTimes (s : String) : Option Nat :=
  (Decimal.readNat UInt32.size s.toList).filter (· ≠ 0)

def setValue (o : Options) (name value : String) : Option Options :=
  match name with
  | "host" => do
    let path ← if value.isEmpty then none else some value
    return { o with host := ← once o.host (some path) }
  | "context" => do return { o with context := ← once o.context (some value) }
  | "immediate" => do return { o with immediate := ← once o.immediate (some value) }
  | "at" => do return { o with offset := ← once o.offset (readSize value) }
  | "this" => do return { o with receiver := ← once o.receiver (some value) }
  | "sym" => some { o with symbols := value :: o.symbols }
  | "repeat" => do return { o with times := ← once o.times (readTimes value) }
  | "max-depth" => do return { o with maxDepth := ← once o.maxDepth (readSize value) }
  | _ => none

def takesValue (name : String) : Bool :=
  ["host", "context", "immediate", "at", "this", "sym", "repeat", "max-depth"].contains name

def setFlag (o : Options) (name : String) : Option Options :=
  match name with
  | "no-cache" => do return { o with noCache := ← onceFlag o.noCache }
  | "verbose" => do return { o with verbose := ← onceFlag o.verbose }
  | _ => none

def setSnippet (o : Options) (s : String) : Option Options := do
  return { o with snippet := ← once o.snippet (some s) }

def splitAtEquals (cs : List Char) : List Char × Option (List Char) :=
  match cs.dropWhile (· ≠ '=') with
  | _ :: value => (cs.takeWhile (· ≠ '='), some value)
  | [] => (cs, none)

/-- Only a lone dash may look like an option and be a value. -/
def isValue (s : String) : Bool :=
  match s.toList with
  | '-' :: _ :: _ => false
  | _ => true

def finish (o : Options) : Command := if o.snippet.isSome then .evaluate o else .usageError

def parsePlain (o : Options) : List String → Command
  | [] => finish o
  | a :: as =>
    match setSnippet o a with
    | some o => parsePlain o as
    | none => .usageError

/-- The first problem decides, and the version is shown as soon as it is asked for. -/
def parse (o : Options) : List String → Command
  | [] => finish o
  | a :: as =>
    match a.toList with
    | ['-', '-'] => parsePlain o as
    | '-' :: 'V' :: _ => .version
    | '-' :: '-' :: cs =>
      let (name, value) := splitAtEquals cs
      let name := String.ofList name
      match value, as with
      | some value, as =>
        match setValue o name (String.ofList value) with
        | some o => parse o as
        | none => .usageError
      | none, as =>
        if name = "version" then .version
        else if takesValue name then
          match as with
          | v :: as =>
            match if isValue v then setValue o name v else none with
            | some o => parse o as
            | none => .usageError
          | [] => .usageError
        else
          match setFlag o name with
          | some o => parse o as
          | none => .usageError
    | '-' :: _ :: _ => .usageError
    | _ =>
      match setSnippet o a with
      | some o => parse o as
      | none => .usageError

def readValue (s : String) : Value :=
  match s with
  | "null" => .null
  | "true" => .bool true
  | "false" => .bool false
  | s =>
    match Decimal.readInt s.toList, Decimal.readFloat s.toList with
    | some n, _ => .int n
    | none, some x => .float x
    | none, none => .text s

inductive SymbolError
  | noValue (argument : String)
  | noName (argument : String)

def SymbolError.message : SymbolError → String
  | noValue a => "expected NAME=VALUE, got `" ++ a ++ "`"
  | noName a => "missing symbol name in `" ++ a ++ "`"

def readSymbol (a : String) : Except SymbolError (List Value) :=
  match splitAtEquals a.toList with
  | (_, none) => .error (.noValue a)
  | ([], some _) => .error (.noName a)
  | (name, some value) => .ok [.text (String.ofList name), readValue (String.ofList value)]

structure Report where
  code : Nat
  output : String := ""
  messages : List String := []

def say (s : String) : String := "ctxeval: " ++ s ++ "\n"

def complain (messages : List String) (s : String) : Report :=
  { code := 2, messages := messages ++ [say ("error: " ++ s)] }

def versionReport : Report := { code := 0, output := "ctxeval 0.1.0\n" }

def evaluateTimes (e : Evaluator) (r : Request) :
    Nat → Value → EvalState → Except EvalError Value × EvalState
  | 0, last, s => (.ok last, s)
  | n + 1, _, s =>
    let b : Bridge Evaluator := { fallback := .direct e }
    match b.evaluate Evaluator.evaluate "ctxeval" r s with
    | (.ok v, s) => evaluateTimes e r n v s
    | (.error err, s) => (.error err, s)

def Options.request (o : Options) (receiver : Option Instance) (symbols : List Value) : Request :=
  { source := o.snippet.getD ""
    enclosing := o.context
    immediate := o.immediate
    offset := if o.context.isSome then o.offset.getD 0 else 0
    receiver, symbols }

def Options.arguments (o : Options) (objects : Objects) :
    Except String (Option Instance × List Value) := do
  let receiver ← match o.receiver with
    | none => pure none
    | some id =>
      match objects.get? id with
      | some obj => pure (some obj)
      | none => throw ("no object `" ++ id ++ "` in host")
  let symbols ← (o.symbols.reverse.mapM readSymbol).mapError SymbolError.message
  return (receiver, symbols.flatten)

def Options.run (o : Options) (host : Except HostError HostDescription) : Report :=
  match host with
  | .error e => complain [] e.message
  | .ok host =>
    let (installed, sandbox) := host.install 0 {}
    match installed with
    | .error e => complain [] e.message
    | .ok objects =>
      let loud (s : String) : List String := if o.verbose then [say s] else []
      let loaded := loud (toString sandbox.types.size ++ " types, " ++ toString objects.size ++
        " objects")
      match o.arguments objects with
      | .error message => complain loaded message
      | .ok (receiver, symbols) =>
        let evaluator : Evaluator := { maxDepth := o.maxDepth.getD 64, caches := !o.noCache }
        let times := o.times.getD 1
        let request := o.request receiver symbols
        match evaluateTimes evaluator request times .null { sandbox } with
        | (.error e, _) => { code := 1, messages := loaded ++ [say e.message] }
        | (.ok v, s) =>
          { code := 0
            output := v.display ++ "\n"
            messages := loaded ++ loud (toString times ++ " evaluation(s), " ++
              toString s.sandbox.compiles ++ " compile(s)") }

end SnippetEval.CommandLine
