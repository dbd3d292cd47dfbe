import SnippetEval.Proofs.Snippet.Grammar
import SnippetEval.Snippet.Running
import SnippetEval.Snippet.Typing

namespace SnippetEval

def Diagnostic.erase (d : Diagnostic) : Diagnostic := { d with span := default }

def Findings.erase (f : Findings) : Findings := { f with issues := f.issues.map Diagnostic.erase }

section checking

variable {s : Scope}

@[simp] theorem erase_append (a b : Findings) : (a ++ b).erase = a.erase ++ b.erase := by
  change (Findings.append a b).erase = Findings.append a.erase b.erase
  simp only [Findings.append, Findings.erase, List.map_append]

@[simp] theorem erase_typeError (span : Span) (message : String) :
    (typeError span message).erase = typeError default message := rfl

theorem takeInstance_erase (s : Scope) (span : Span) (what : String) (fields : List String) :
    s.takeInstance default what fields = (s.takeInstance span what fields).erase := by
  unfold Scope.takeInstance
  split <;> rfl

theorem inferName_erase (s : Scope) (i : Ident) :
    s.inferName ⟨i.name, default⟩ = ((s.inferName i).1, (s.inferName i).2.erase) := by
  unfold Scope.inferName
  cases s.bound.get? i.name with
  | some t => rfl
  | none =>
    cases s.symbols.get? i.name with
    | none => rfl
    | some info =>
      obtain ⟨t, k⟩ := info
      cases k with
      | field => simp only [takeInstance_erase s i.span]
      | _ => rfl

theorem infer_erase (s : Scope) (e : Expr) :
    infer s e.erase = ((infer s e).1, (infer s e).2.erase) := by
  induction e with
  | literal l span => rfl
  | name i => exact inferName_erase s i
  | this span => simp only [Expr.erase, infer, takeInstance_erase s span]
  | field e i span ih =>
    simp only [Expr.erase, infer, ih]
    split <;> simp
  | unary op e span ih =>
    simp only [Expr.erase, infer, ih]
    split <;> simp
  | binary op l r span ihl ihr =>
    simp only [Expr.erase, infer, ihl, ihr]
    split <;> simp

theorem checkBinding_erase (s : Scope) (b : Binding) :
    checkBinding s b.erase = ((checkBinding s b).1.erase, (checkBinding s b).2) := by
  simp only [checkBinding, Binding.erase, infer_erase]
  split
  · rw [erase_append]
    rfl
  · rfl

theorem checkBindings_erase (s : Scope) (bs : List Binding) :
    checkBindings s (bs.map Binding.erase) =
      ((checkBindings s bs).1.erase, (checkBindings s bs).2) := by
  induction bs generalizing s with
  | nil => rfl
  | cons b bs ih => simp [checkBindings, checkBinding_erase, ih]

theorem check_erase (t : Snippet) (s : Scope) : t.erase.check s = (t.check s).erase := by
  obtain ⟨bindings, result, span⟩ := t
  simp only [Snippet.erase, Snippet.check, checkBindings_erase]
  cases result with
  | none => rfl
  | some e => simp [infer_erase]

end checking

namespace Frame

theorem eval_erase (f : Frame) (e : Expr) : f.eval e.erase = f.eval e := by
  induction e with
  | literal | name | this => rfl
  | field e i span ih => simp only [Expr.erase, eval, ih]
  | unary op e span ih => simp only [Expr.erase, eval, ih]
  | binary op l r span ihl ihr => cases op <;> simp only [Expr.erase, eval, ihl, ihr]

theorem runBindings_erase (f : Frame) (bs : List Binding) :
    f.runBindings (bs.map Binding.erase) = f.runBindings bs := by
  induction bs generalizing f with
  | nil => rfl
  | cons b bs ih => simp only [List.map_cons, runBindings, Binding.erase, eval_erase, ih]

theorem run_erase (f : Frame) (t : Snippet) : f.run t.erase = f.run t := by
  obtain ⟨bindings, result, span⟩ := t
  simp only [run, Snippet.erase, runBindings_erase]
  cases result with
  | none => rfl
  | some e => simp only [Option.map_some, eval_erase]

end Frame

end SnippetEval
