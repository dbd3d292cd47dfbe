import SnippetEval.Sha256

namespace SnippetEval

structure Fingerprint where
  bytes : List UInt8
  deriving DecidableEq, Repr

namespace Fingerprint

def littleEndian : Nat → Nat → List UInt8
  | 0, _ => []
  | n + 1, x => UInt8.ofNat x :: littleEndian n (x / 256)

def utf8 (s : String) : List UInt8 := s.toList.flatMap String.utf8EncodeChar

def textStream (s : String) : List UInt8 := littleEndian 8 (utf8 s).length ++ utf8 s

def optionStream : Option String → List UInt8
  | none => [0]
  | some s => 1 :: textStream s

def requestStream (source : String) (enclosing immediate : Option String) (offset : Nat) :
    List UInt8 :=
  textStream source ++ optionStream enclosing ++ optionStream immediate ++ littleEndian 8 offset

def nameSet (names : List String) : List String :=
  (names.mergeSort (fun a b => a ≤ b)).eraseDups

def externalsStream (base : List UInt8) (names : List String) : List UInt8 :=
  base ++ littleEndian 8 names.length ++ names.flatMap textStream

def compute (source : String) (enclosing immediate : Option String) (offset : Nat) : Fingerprint :=
  ⟨Sha256.digest (requestStream source enclosing immediate offset)⟩

/-- Order and repetition do not matter, and no names change nothing. -/
def withExternals (f : Fingerprint) (names : List String) : Fingerprint :=
  match nameSet names with
  | [] => f
  | n :: ns => ⟨Sha256.digest (externalsStream f.bytes (n :: ns))⟩

instance : Ord Fingerprint := ⟨fun a b => List.compareLex compare a.bytes b.bytes⟩

def hexByte (b : UInt8) : List Char :=
  [Nat.digitChar (b.toNat / 16), Nat.digitChar (b.toNat % 16)]

def hex (f : Fingerprint) : String := String.ofList (f.bytes.flatMap hexByte)

def unitName (f : Fingerprint) : String :=
  "eval_" ++ String.ofList ((f.bytes.take 8).flatMap hexByte)

def display (f : Fingerprint) : String := "Fingerprint(" ++ f.unitName ++ ")"

end Fingerprint

end SnippetEval
