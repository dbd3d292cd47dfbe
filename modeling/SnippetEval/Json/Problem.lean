import SnippetEval.Decimal.Shortest
import SnippetEval.Text.Quoted

namespace SnippetEval.Json

inductive Found
  | null
  | bool (value : Bool)
  | integer (value : Int)
  | float (value : Float)
  | text (value : String)
  | sequence
  | map

def Found.display : Found → String
  | null => "null"
  | bool b => "boolean `" ++ toString b ++ "`"
  | integer n => "integer `" ++ toString n ++ "`"
  | float x => "floating point `" ++ Decimal.descriptionLayout.render x ++ "`"
  | text s => "string " ++ Text.quote s
  | sequence => "sequence"
  | map => "map"

inductive Mismatch
  | missingField (name : String)
  | duplicateField (name : String)
  | unknownVariant (name : String) (known : List String)
  | wrongType (found : Found) (expected : String)
  | wrongValue (found : Found) (expected : String)
  | wrongLength (length : Nat) (expected : String)

def ticked (s : String) : String := "`" ++ s ++ "`"

def Mismatch.message : Mismatch → String
  | missingField name => "missing field " ++ ticked name
  | duplicateField name => "duplicate field " ++ ticked name
  | unknownVariant name known =>
    "unknown variant " ++ ticked name ++ ", expected one of " ++
      String.intercalate ", " (known.map ticked)
  | wrongType found expected => "invalid type: " ++ found.display ++ ", expected " ++ expected
  | wrongValue found expected => "invalid value: " ++ found.display ++ ", expected " ++ expected
  | wrongLength n expected => "invalid length " ++ toString n ++ ", expected " ++ expected

inductive Problem
  | unfinished
  | malformed
  | mismatch (m : Mismatch)

abbrev Read := Except Problem

end SnippetEval.Json
