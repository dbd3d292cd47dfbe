import SnippetEval.Proofs.Invocation

namespace SnippetEval

section shapes

variable {expected : List ParamKind} {actual args args' : List CallArg} {spare : Option RuntimeEnv}

/-- What a call with the arguments `actual`, and an environment to spare, hands over. -/
inductive HandsOver (expected : List ParamKind) (actual : List CallArg)
    (spare : Option RuntimeEnv) : List CallArg → Prop
  | exactly : actual.map CallArg.kind = expected → HandsOver expected actual spare actual
  | completed {env : RuntimeEnv} : actual ≠ [] → spare = some env →
      expected = actual.map CallArg.kind ++ [.environment] →
      HandsOver expected actual spare (actual ++ [.environment env])

theorem HandsOver.kinds (h : HandsOver expected actual spare args) :
    args.map CallArg.kind = expected := by
  cases h with
  | exactly hkinds => exact hkinds
  | completed hne hspare hexpected =>
    rw [List.map_append, hexpected]
    rfl

theorem HandsOver.eq_of_kinds (hkinds : actual.map CallArg.kind = expected)
    (h : HandsOver expected actual spare args) : args = actual := by
  cases h with
  | exactly => rfl
  | completed hne hspare hexpected =>
    have hlength := congrArg List.length (hkinds.trans hexpected)
    simp at hlength

theorem HandsOver.unique (h : HandsOver expected actual spare args)
    (h' : HandsOver expected actual spare args') : args = args' := by
  cases h with
  | exactly hkinds => exact (h'.eq_of_kinds hkinds).symm
  | completed hne hspare hexpected =>
    cases h' with
    | exactly hkinds => exact (HandsOver.completed hne hspare hexpected).eq_of_kinds hkinds
    | completed hne' hspare' =>
      rw [Option.some.inj (hspare.symm.trans hspare')]

theorem matchShape_cases (expected : List ParamKind) (actual : List CallArg)
    (spare : Option RuntimeEnv) :
    (∃ args, HandsOver expected actual spare args ∧ matchShape expected actual spare = .ok args) ∨
      (∀ args, ¬ HandsOver expected actual spare args) ∧
        matchShape expected actual spare = .error ⟨expected, actual⟩ := by
  by_cases hkinds : actual.map CallArg.kind = expected
  · exact .inl ⟨actual, .exactly hkinds, if_pos hkinds⟩
  cases spare with
  | none =>
    refine .inr ⟨?_, if_neg hkinds⟩
    rintro args (hkinds' | ⟨-, hspare, -⟩)
    · exact hkinds hkinds'
    · cases hspare
  | some env =>
    by_cases hmissing : actual ≠ [] ∧ expected = actual.map CallArg.kind ++ [.environment]
    · exact .inl ⟨_, .completed hmissing.1 rfl hmissing.2,
        (if_neg hkinds).trans (if_pos hmissing)⟩
    · refine .inr ⟨?_, (if_neg hkinds).trans (if_neg hmissing)⟩
      rintro args (hkinds' | ⟨hne, -, hexpected⟩)
      · exact hkinds hkinds'
      · exact hmissing ⟨hne, hexpected⟩

theorem matchShape_eq_ok_iff :
    matchShape expected actual spare = .ok args ↔ HandsOver expected actual spare args := by
  rcases matchShape_cases expected actual spare with ⟨args', hargs', hok⟩ | ⟨hnone, herror⟩
  · rw [hok, Except.ok.injEq]
    constructor
    · rintro rfl
      exact hargs'
    · exact hargs'.unique
  · rw [herror]
    exact ⟨nofun, fun h => absurd h (hnone args)⟩

theorem matchShape_eq_error_iff {m : ShapeMismatch} :
    matchShape expected actual spare = .error m ↔
      (∀ args, ¬ HandsOver expected actual spare args) ∧ m = ⟨expected, actual⟩ := by
  rcases matchShape_cases expected actual spare with ⟨args, hargs, hok⟩ | ⟨hnone, herror⟩
  · rw [hok]
    exact ⟨nofun, fun h => absurd hargs (h.1 args)⟩
  · rw [herror, Except.error.injEq]
    constructor
    · rintro rfl
      exact ⟨hnone, rfl⟩
    · exact fun h => h.2.symm

end shapes

def Executor.recorded {σ : Type} (run : Executor σ) :
    Executor (σ × List (CompiledUnit × List CallArg)) :=
  fun u args s => ((run u args s.1).1, (run u args s.1).2, s.2 ++ [(u, args)])

namespace CompiledUnit

variable {σ : Type} {u : CompiledUnit} {receiver : Option Instance} {env : RuntimeEnv}
  {args : List CallArg}

def RunsOn (u : CompiledUnit) (receiver : Option Instance) (env : RuntimeEnv) :
    List CallArg → Prop :=
  HandsOver u.shape.params (callArgs u.shape receiver env).1 (callArgs u.shape receiver env).2

theorem invokeBy_of_runsOn (run : Executor σ) (h : u.RunsOn receiver env args) (s : σ) :
    u.invokeBy run receiver env s =
      ((run u args s).1.mapError .execution, (run u args s).2) := by
  have hmatch := matchShape_eq_ok_iff.mpr h
  simp only [invokeBy, hmatch]
  cases run u args s with
  | mk answer s' => cases answer <;> rfl

theorem invokeBy_of_not_runsOn (run : Executor σ) (h : ∀ args, ¬ u.RunsOn receiver env args)
    (s : σ) :
    u.invokeBy run receiver env s =
      (.error (ShapeMismatch.toError ⟨u.shape.params, (callArgs u.shape receiver env).1⟩), s) := by
  have hmatch := matchShape_eq_error_iff.mpr ⟨h, rfl⟩
  simp only [invokeBy, hmatch]

theorem exists_runsOn_iff :
    (∃ args, u.RunsOn receiver env args) ↔ ¬ u.shape.Lacks receiver := by
  constructor
  · rintro ⟨args, hargs⟩ ⟨hbound, rfl⟩
    obtain ⟨f, ⟨takesInstance, takesEnv⟩, body, issues⟩ := u
    obtain rfl : takesInstance = true := hbound
    cases hargs with
    | exactly hkinds => cases takesEnv <;> cases hkinds
    | completed hne => exact hne rfl
  · intro h
    obtain ⟨args, hargs, -⟩ := UnitShape.matchShape_callArgs h [] env
    exact ⟨args, matchShape_eq_ok_iff.mp hargs⟩

end CompiledUnit

def countArgs : Executor Unit := fun _ args s => (.ok (.int (.ofNat args.length)), s)

def boundUnit : CompiledUnit where
  fingerprint := ⟨[]⟩
  shape := ⟨true, true⟩
  body := none
  issues := []

end SnippetEval
