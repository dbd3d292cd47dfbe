import SnippetEval.EvalError
import SnippetEval.Table

namespace SnippetEval

inductive Entry (ε : Type)
  | direct (target : ε)
  | through (module : String) (entry : Entry ε)

abbrev Runner (ε ρ σ α : Type) := ε → ρ → σ → Except EvalError α × σ

namespace Entry

variable {ε ρ σ α : Type}

def name : Entry ε → String
  | direct _ => "local"
  | through module _ => module

def target : Entry ε → ε
  | direct t => t
  | through _ entry => entry.target

def run (f : Runner ε ρ σ α) (request : ρ) (s : σ) : Entry ε → Except EvalError α × σ
  | direct t => f t request s
  | through module entry =>
    match entry.run f request s with
    | (.ok a, s) => (.ok a, s)
    | (.error e, s) => (.error (.forwarded module e), s)

end Entry

abbrev Registry (ε : Type) := Table String (Entry ε)

def Registry.register {ε : Type} (r : Registry ε) (module : String) (entry : Entry ε) :
    Registry ε :=
  r.insert module (.through module entry)

/-- What a caller sees of an error: its root, and of issues only the first. -/
def EvalError.surface (e : EvalError) : EvalError :=
  match e.root with
  | .compilation issues => .compilation (issues.take 1)
  | root => root

structure Bridge (ε : Type) where
  fallback : Entry ε
  registry : Option (Registry ε) := none

namespace Bridge

variable {ε ρ σ α : Type}

def entryFor (b : Bridge ε) (module : String) : Entry ε :=
  (b.registry.bind (·.get? module)).getD b.fallback

def evaluate (b : Bridge ε) (f : Runner ε ρ σ α) (module : String) (request : ρ) (s : σ) :
    Except EvalError α × σ :=
  match (b.entryFor module).run f request s with
  | (.ok a, s) => (.ok a, s)
  | (.error e, s) => (.error e.surface, s)

end Bridge

end SnippetEval
