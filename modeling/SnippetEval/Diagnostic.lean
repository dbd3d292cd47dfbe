import SnippetEval.Source.Span

namespace SnippetEval

inductive Severity
  | error
  | warning
  deriving DecidableEq, Repr

structure Diagnostic where
  code : Option String := none
  severity : Severity
  span : Span
  message : String
  hint : Option String := none
  deriving DecidableEq, Repr

namespace Code

def unparsable : String := "E0001"
def unknownName : String := "E0101"
def noInstance : String := "E0102"
def typeError : String := "E0201"
def shadowing : String := "W0301"

end Code

def Severity.name : Severity → String
  | error => "error"
  | warning => "warning"

namespace Diagnostic

def isError (d : Diagnostic) : Bool := d.severity = .error

def display (d : Diagnostic) : String :=
  let code := match d.code with
    | some c => "[" ++ c ++ "]"
    | none => ""
  let hint := match d.hint with
    | some h => "\n  hint: " ++ h
    | none => ""
  d.severity.name ++ code ++ ": " ++ d.message ++ hint

end Diagnostic

end SnippetEval
