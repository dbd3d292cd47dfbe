import SnippetEval.Invocation
import SnippetEval.Proofs.Snippet.Reading

namespace SnippetEval

namespace UnitShape

def Lacks (shape : UnitShape) (receiver : Option Instance) : Prop :=
  shape.instanceBound = true ∧ receiver = none

def frame (shape : UnitShape) (fields : List String) (receiver : Option Instance)
    (env : RuntimeEnv) : Frame where
  receiver := if shape.instanceBound then receiver else none
  env := if shape.takesEnv then some env else none
  fields := fields

variable {shape : UnitShape} {receiver : Option Instance}

theorem exists_of_not_lacks (h : ¬ shape.Lacks receiver) (hbound : shape.instanceBound = true) :
    ∃ o, receiver = some o :=
  Option.ne_none_iff_exists'.mp fun hnone => h ⟨hbound, hnone⟩

theorem matchShape_callArgs (h : ¬ shape.Lacks receiver) (fields : List String) (env : RuntimeEnv) :
    ∃ args, matchShape shape.params (CompiledUnit.callArgs shape receiver env).1
        (CompiledUnit.callArgs shape receiver env).2 = .ok args ∧
      args.foldl Frame.take { receiver := none, env := none, fields } =
        shape.frame fields receiver env := by
  obtain ⟨takesInstance, takesEnv⟩ := shape
  cases takesInstance with
  | false =>
    cases takesEnv
    · exact ⟨[], rfl, rfl⟩
    · exact ⟨[.environment env], rfl, rfl⟩
  | true =>
    obtain ⟨o, rfl⟩ := exists_of_not_lacks h rfl
    cases takesEnv
    · exact ⟨[.receiver o], rfl, rfl⟩
    · exact ⟨[.receiver o, .environment env], rfl, rfl⟩

end UnitShape

namespace CompiledUnit

variable {u v : CompiledUnit} {p p' : Program} {receiver receiver' : Option Instance}
  {env env' : RuntimeEnv}

theorem invoke_of_lacks (h : u.shape.Lacks receiver) :
    u.invoke receiver env = .error (ShapeMismatch.toError ⟨u.shape.params, []⟩) := by
  obtain ⟨hbound, rfl⟩ := h
  obtain ⟨f, ⟨takesInstance, takesEnv⟩, body, issues⟩ := u
  obtain rfl : takesInstance = true := hbound
  cases takesEnv <;> simp [invoke_eq, callArgs, UnitShape.params, matchShape]

theorem invoke_of_not_lacks (hp : u.program? = some p) (h : ¬ u.shape.Lacks receiver) :
    u.invoke receiver env =
      ((u.shape.frame p.instanceFields receiver env).run p.snippet).mapError .execution := by
  obtain ⟨args, hmatch, htake⟩ := UnitShape.matchShape_callArgs h p.instanceFields env
  simp only [invoke_eq, hmatch, execute, hp, htake]
  cases (u.shape.frame p.instanceFields receiver env).run p.snippet <;> rfl

theorem invoke_agrees (hp : u.program? = some p) (hp' : v.program? = some p')
    (hshape : u.shape = v.shape) (hsnippet : p.snippet = p'.snippet)
    (hfields : p.instanceFields = p'.instanceFields)
    (hreceiver : u.shape.instanceBound = true → receiver = receiver')
    (henv : ∀ n ∈ p.snippet.names, env.value? n = env'.value? n) :
    u.invoke receiver env = v.invoke receiver' env' := by
  have hlacks : u.shape.Lacks receiver ↔ v.shape.Lacks receiver' := by
    rw [← hshape]
    exact and_congr_right fun hbound => by rw [hreceiver hbound]
  by_cases h : u.shape.Lacks receiver
  · rw [invoke_of_lacks h, invoke_of_lacks (hlacks.mp h), hshape]
  · have hframes : (u.shape.frame p.instanceFields receiver env).AgreesOn
        (v.shape.frame p'.instanceFields receiver' env') p.snippet.names := by
      rw [← hshape, ← hfields]
      refine ⟨?_, rfl, rfl, ?_⟩
      · simp only [UnitShape.frame]
        split
        · next hbound => exact hreceiver hbound
        -- Where the shape does not take the instance, neither frame gets one.
        · rfl
      · intro n hn
        simp only [UnitShape.frame]
        split
        · exact henv n hn
        · rfl
    rw [invoke_of_not_lacks hp h, invoke_of_not_lacks hp' (mt hlacks.mpr h),
      Frame.run_agrees hframes, hsnippet]

end CompiledUnit

end SnippetEval
