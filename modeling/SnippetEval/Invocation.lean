import SnippetEval.CompiledUnit
import SnippetEval.Snippet.Running

namespace SnippetEval

inductive CallArg
  | receiver (value : Instance)
  | environment (value : RuntimeEnv)

namespace CallArg

def kind : CallArg → ParamKind
  | .receiver _ => .receiver
  | .environment _ => .environment

def display : CallArg → String
  | .receiver o => "instance " ++ o.display
  | .environment env => "environment [" ++ toString env.size ++ " symbols]"

end CallArg

structure ShapeMismatch where
  expected : List ParamKind
  actual : List CallArg

def ShapeMismatch.toError (m : ShapeMismatch) : EvalError :=
  .invocationShape (String.intercalate ", " (m.expected.map ParamKind.name))
    (String.intercalate ", " (m.actual.map CallArg.display))

def matchShape (expected : List ParamKind) (actual : List CallArg) (env : Option RuntimeEnv) :
    Except ShapeMismatch (List CallArg) :=
  let kinds := actual.map CallArg.kind
  if kinds = expected then .ok actual
  else match env with
    | some env =>
      if actual ≠ [] ∧ expected = kinds ++ [.environment] then .ok (actual ++ [.environment env])
      else .error ⟨expected, actual⟩
    | none => .error ⟨expected, actual⟩

def Frame.take (f : Frame) : CallArg → Frame
  | .receiver o => { f with receiver := some o }
  | .environment env => { f with env := some env }

abbrev Executor (σ : Type) := CompiledUnit → List CallArg → σ → Run Value × σ

namespace CompiledUnit

def execute (u : CompiledUnit) (args : List CallArg) : Run Value :=
  match u.program? with
  | some p =>
    let start : Frame := { receiver := none, env := none, fields := p.instanceFields }
    (args.foldl Frame.take start).run p.snippet
  | none => fault .host ("unit " ++ u.fingerprint.unitName ++ " has no sandbox program")

def callArgs (shape : UnitShape) (receiver : Option Instance) (env : RuntimeEnv) :
    List CallArg × Option RuntimeEnv :=
  match shape with
  | ⟨false, false⟩ => ([], some env)
  | ⟨false, true⟩ => ([.environment env], none)
  | ⟨true, _⟩ => ((receiver.map CallArg.receiver).toList, some env)

def invokeBy {σ : Type} (run : Executor σ) (u : CompiledUnit) (receiver : Option Instance)
    (env : RuntimeEnv) (s : σ) : Except EvalError Value × σ :=
  let (actual, spare) := callArgs u.shape receiver env
  match matchShape u.shape.params actual spare with
  | .error m => (.error m.toError, s)
  | .ok args =>
    match run u args s with
    | (.error f, s) => (.error (.execution f), s)
    | (.ok v, s) => (.ok v, s)

def invoke (u : CompiledUnit) (receiver : Option Instance) (env : RuntimeEnv) :
    Except EvalError Value :=
  (u.invokeBy (fun u args s => (u.execute args, s)) receiver env ()).1

theorem invoke_eq (u : CompiledUnit) (receiver : Option Instance) (env : RuntimeEnv) :
    u.invoke receiver env =
      match matchShape u.shape.params (callArgs u.shape receiver env).1
          (callArgs u.shape receiver env).2 with
      | .error m => .error m.toError
      | .ok args =>
        match u.execute args with
        | .error f => .error (.execution f)
        | .ok v => .ok v := by
  simp only [invoke, invokeBy]
  cases matchShape u.shape.params (callArgs u.shape receiver env).1
    (callArgs u.shape receiver env).2 with
  | error m => rfl
  | ok args =>
    dsimp only
    cases u.execute args <;> rfl

end CompiledUnit

end SnippetEval
