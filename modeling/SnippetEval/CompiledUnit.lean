import SnippetEval.Diagnostic
import SnippetEval.Fingerprint
import SnippetEval.Snippet.Tree

namespace SnippetEval

inductive ParamKind
  | receiver
  | environment
  deriving DecidableEq, Repr

def ParamKind.name : ParamKind → String
  | .receiver => "instance"
  | .environment => "environment"

structure UnitShape where
  instanceBound : Bool
  takesEnv : Bool
  deriving DecidableEq, Repr

namespace UnitShape

def params (s : UnitShape) : List ParamKind :=
  (if s.instanceBound then [.receiver] else []) ++ (if s.takesEnv then [.environment] else [])

def static : UnitShape := ⟨false, false⟩

def name : UnitShape → String
  | ⟨false, false⟩ => "Static"
  | ⟨false, true⟩ => "StaticWithEnv"
  | ⟨true, false⟩ => "InstanceBound"
  | ⟨true, true⟩ => "InstanceBoundWithEnv"

def all : List UnitShape := [⟨false, false⟩, ⟨false, true⟩, ⟨true, false⟩, ⟨true, true⟩]

def ofName? (s : String) : Option UnitShape := all.find? (·.name = s)

end UnitShape

structure Program where
  snippet : Snippet
  /-- Names read from the instance; other free names are read from the environment. -/
  instanceFields : List String
  context : Option String
  revoked : Bool := false

inductive UnitBody
  | program (p : Program)
  | foreign

def UnitBody.isValid : UnitBody → Bool
  | .program p => !p.revoked
  | .foreign => true

structure CompiledUnit where
  fingerprint : Fingerprint
  shape : UnitShape
  body : Option UnitBody
  issues : List Diagnostic

namespace CompiledUnit

def invalid (fingerprint : Fingerprint) (issues : List Diagnostic) : CompiledUnit :=
  ⟨fingerprint, .static, none, issues⟩

def program? (u : CompiledUnit) : Option Program :=
  match u.body with
  | some (.program p) => some p
  | _ => none

def errors (u : CompiledUnit) : List Diagnostic := u.issues.filter Diagnostic.isError

def isValid (u : CompiledUnit) : Bool :=
  u.errors.isEmpty && (u.body.map UnitBody.isValid).getD false

def revoke (u : CompiledUnit) : CompiledUnit :=
  match u.body with
  | some (.program p) => { u with body := some (.program { p with revoked := true }) }
  | _ => u

def isAgainst (u : CompiledUnit) (context : String) : Bool :=
  match u.program? with
  | some p => p.context = some context
  | none => false

end CompiledUnit

end SnippetEval
