import SnippetEval.Proofs.Evaluator.Transparency
import SnippetEval.Proofs.Resolution

namespace SnippetEval

theorem walkOuter_error {receiver : Option Instance} {hops : Nat} {context : String}
    {err : EvalError} (h : walkOuter receiver hops context = .error err) :
    ∃ o k last, receiver = some o ∧ k < hops ∧ o.outward k = some last ∧ last.outer = none ∧
      err = .noAnchor context (.missingOuterInstance (k + 1)) := by
  cases receiver with
  | none => cases h
  | some o =>
    rcases o.outward_cases hops with ⟨last, hlast⟩ | ⟨k, hk, last, hlast, hend⟩
    · rw [walkOuter, Instance.walkFrom_of_outward hlast] at h
      cases h
    · rw [walkOuter, Instance.walkFrom_of_last hlast hend hk] at h
      cases h
      exact ⟨o, k, last, rfl, hk, hlast, hend, by rw [Nat.add_comm]⟩

def EvalError.IsContextFailure : EvalError → Prop
  | .unresolvedContext _ | .noAnchor .. => True
  | _ => False

/-- What a failure to find the context of a request says about the types and about the request. A
chain that is too deep has no source within the steps that are allowed; it may end after them, and
then it is exhausted wherever more are allowed. -/
def Request.Confirms (r : Request) (maxDepth : Nat) (s : Sandbox) : EvalError → Prop
  | .unresolvedContext name =>
    (r.enclosing = some name ∨ r.immediate = some name) ∧ s.types.get? name = none
  | .noAnchor context .chainExhausted =>
    ∃ t n c, s.startOf r.enclosing r.immediate = some t ∧ s.Skips t n c ∧ c.source = none ∧
      s.enclosing c = none ∧ c.name = context
  | .noAnchor context (.depthExceeded d) =>
    d = maxDepth ∧ ∃ t c, s.startOf r.enclosing r.immediate = some t ∧ s.Skips t d c ∧
      c.source = none ∧ c.name = context ∧
      (s.enclosing c = none → ∀ m > d,
        s.nearestWithSource m t = .error (.noAnchor context .chainExhausted))
  | .noAnchor context (.offsetOutside o) =>
    o = r.offset ∧ ∃ t n c root, s.startOf r.enclosing r.immediate = some t ∧ n ≤ maxDepth ∧
      s.Skips t n c ∧ c.source = some root ∧ root.span.contains o = false ∧ c.name = context
  | .noAnchor _ (.missingOuterInstance k) =>
    ∃ o last, r.receiver = some o ∧ 0 < k ∧ o.outward (k - 1) = some last ∧ last.outer = none
  | _ => True

theorem Sandbox.nearestWithSource_of_end {s : Sandbox} {t c : TypeDef} {n m : Nat}
    (h : s.Skips t n c) (hbare : c.source = none) (hend : s.enclosing c = none) (hm : n < m) :
    s.nearestWithSource m t = .error (.noAnchor c.name .chainExhausted) := by
  obtain ⟨k, rfl⟩ := Nat.exists_eq_add_of_lt hm
  have hsplit : n + k + 1 = k + 1 + n := by omega
  rw [nearestWithSource, hsplit, Sandbox.nearestFrom_skip h]
  simp only [nearestFrom, hbare, hend]

namespace Evaluator

variable {e : Evaluator} {s : EvalState} {r : Request} {env : RuntimeEnv} {u : CachedUnit}
  {err : EvalError}

theorem lookUp_sandbox (e : Evaluator) (f : Fingerprint) (s : EvalState) :
    (e.lookUp f s).2.sandbox = s.sandbox := by
  unfold lookUp
  split <;> rfl

theorem bindSymbols_error (h : bindSymbols r = .error err) : ¬ err.IsContextFailure := by
  obtain ⟨m, -, rfl⟩ := bindSymbols_eq_error_iff.mp h
  exact not_false

theorem verdict_eq_ok {source : String} {v : CachedUnit} (h : verdict source u = .ok v) :
    v = u := by
  unfold verdict at h
  split at h
  · exact (Except.ok.inj h).symm
  · split at h <;> cases h

theorem verdict_error {source : String} (h : verdict source u = .error err) :
    ¬ err.IsContextFailure := by
  unfold verdict at h
  split at h
  · cases h
  · split at h <;> cases h <;> exact not_false

theorem compiledUnit_error (h : (e.compiledUnit r env s).1 = .error err)
    (herr : err.IsContextFailure) :
    s.sandbox.enterIncludeAll.resolve e.maxDepth r.enclosing r.immediate r.offset = .error err := by
  simp only [compiledUnit, unitIncludingAll] at h
  cases hlook : e.lookUp (r.fingerprintWith env.keys)
      { s with sandbox := s.sandbox.enterIncludeAll } with
  | mk found t =>
    have hsandbox : t.sandbox = s.sandbox.enterIncludeAll :=
      (congrArg (fun found => found.2.sandbox) hlook.symm).trans (e.lookUp_sandbox _ _)
    rw [hlook] at h
    cases found with
    | some hit => cases h
    | none =>
      simp only [hsandbox] at h
      cases hplace : s.sandbox.enterIncludeAll.resolve e.maxDepth r.enclosing r.immediate
          r.offset with
      | error err' =>
        simp only [hplace] at h
        cases h
        rfl
      | ok place =>
        simp only [hplace] at h
        exact absurd herr (verdict_error h)

theorem invoke_error {unit : CompiledUnit} {receiver : Option Instance}
    (h : unit.invoke receiver env = .error err) : ¬ err.IsContextFailure := by
  rw [CompiledUnit.invoke_eq] at h
  split at h
  · cases h
    exact not_false
  · split at h <;> cases h
    exact not_false

theorem call_error (h : call r env u = .error err) (herr : err.IsContextFailure) :
    walkOuter r.receiver u.hops (u.context.getD "<top level>") = .error err := by
  unfold call at h
  cases hwalk : walkOuter r.receiver u.hops (u.context.getD "<top level>") with
  | error err' =>
    rw [hwalk] at h
    cases h
    rfl
  | ok receiver =>
    rw [hwalk] at h
    exact absurd herr (invoke_error h)

theorem evaluate_error (h : (e.evaluate r s).1 = .error err) (herr : err.IsContextFailure) :
    s.sandbox.enterIncludeAll.resolve e.maxDepth r.enclosing r.immediate r.offset = .error err ∨
    ∃ env u, bindSymbols r = .ok env ∧ (e.compiledUnit r env s).1 = .ok u ∧
      walkOuter r.receiver u.hops (u.context.getD "<top level>") = .error err := by
  unfold evaluate at h
  cases henv : bindSymbols r with
  | error err' =>
    rw [henv] at h
    cases h
    exact absurd herr (bindSymbols_error henv)
  | ok env =>
    simp only [henv] at h
    cases hunit : e.compiledUnit r env s with
    | mk result t =>
      simp only [hunit] at h
      cases result with
      | error err' =>
        cases h
        exact .inl (compiledUnit_error (congrArg Prod.fst hunit) herr)
      | ok u => exact .inr ⟨env, u, rfl, by rw [hunit], call_error h herr⟩

theorem freshAnswer_error {maxDepth : Nat} {sandbox : Sandbox}
    (h : freshAnswer maxDepth sandbox r = .error err) (herr : err.IsContextFailure) :
    sandbox.enterIncludeAll.resolve maxDepth r.enclosing r.immediate r.offset = .error err ∨
    ∃ place, sandbox.enterIncludeAll.resolve maxDepth r.enclosing r.immediate r.offset =
        .ok place ∧
      walkOuter r.receiver place.hops ((place.context.map TypeDef.name).getD "<top level>") =
        .error err := by
  cases henv : bindSymbols r with
  | error err' =>
    rw [freshAnswer, henv] at h
    cases h
    exact absurd herr (bindSymbols_error henv)
  | ok env =>
    cases hplace : sandbox.enterIncludeAll.resolve maxDepth r.enclosing r.immediate r.offset with
    | error err' =>
      rw [freshAnswer_of_error henv hplace] at h
      cases h
      exact .inl rfl
    | ok place =>
      rw [freshAnswer_of_place henv hplace] at h
      refine .inr ⟨place, rfl, ?_⟩
      cases hv : verdict r.source (unitIn r env.keys place) with
      | error err' =>
        rw [hv] at h
        cases h
        exact absurd herr (verdict_error hv)
      | ok u =>
        rw [hv] at h
        obtain rfl := verdict_eq_ok hv
        exact call_error h herr

variable {sandbox : Sandbox} {maxDepth : Nat}

theorem resolve_error
    (h : sandbox.enterIncludeAll.resolve maxDepth r.enclosing r.immediate r.offset = .error err) :
    r.Confirms maxDepth sandbox err ∧
      ∀ context k, err ≠ .noAnchor context (.missingOuterInstance k) := by
  rcases Sandbox.resolve_cases (s := sandbox.enterIncludeAll) (Nat.succ_ne_zero _) maxDepth
    r.enclosing r.immediate r.offset with htop | ⟨name, hname, hnone, herr⟩ | ⟨t, ht, hfrom⟩
  · rw [htop] at h
    cases h
  · rw [herr] at h
    cases h
    exact ⟨⟨hname, hnone⟩, fun _ _ heq => by cases heq⟩
  · rw [hfrom] at h
    rcases sandbox.enterIncludeAll.placeFrom_cases maxDepth r.offset t with
      ⟨n, hn, c, root, hc, hroot, ⟨anchor, hok⟩ | ⟨houtside, herr⟩⟩ | ⟨n, -, c, hc, hbare, hend, herr⟩ |
      ⟨c, hc, hbare, herr⟩
    · rw [hok] at h
      cases h
    · rw [herr] at h
      cases h
      rw [Sandbox.skips_enterIncludeAll] at hc
      exact ⟨⟨rfl, t, n, c, root, ht, hn, hc, hroot, houtside, rfl⟩, fun _ _ heq => by cases heq⟩
    · rw [herr] at h
      cases h
      rw [Sandbox.skips_enterIncludeAll] at hc
      exact ⟨⟨t, n, c, ht, hc, hbare, hend, rfl⟩, fun _ _ heq => by cases heq⟩
    · rw [herr] at h
      cases h
      rw [Sandbox.skips_enterIncludeAll] at hc
      exact ⟨⟨rfl, t, c, ht, hc, hbare, rfl, fun hend m hm =>
        Sandbox.nearestWithSource_of_end hc hbare hend hm⟩, fun _ _ heq => by cases heq⟩

theorem resolve_hops {place : Resolution}
    (h : sandbox.enterIncludeAll.resolve maxDepth r.enclosing r.immediate r.offset = .ok place)
    (hhops : 0 < place.hops) :
    ∃ t c, sandbox.startOf r.enclosing r.immediate = some t ∧ sandbox.Skips t place.hops c ∧
      place.context = some c := by
  rcases Sandbox.resolve_cases (s := sandbox.enterIncludeAll) (Nat.succ_ne_zero _) maxDepth
    r.enclosing r.immediate r.offset with htop | ⟨name, -, -, herr⟩ | ⟨t, ht, hfrom⟩
  · rw [htop] at h
    cases h
    cases hhops
  · rw [herr] at h
    cases h
  · rw [hfrom] at h
    rcases sandbox.enterIncludeAll.placeFrom_cases maxDepth r.offset t with
      ⟨n, -, c, root, hc, -, ⟨anchor, hok⟩ | ⟨-, herr⟩⟩ | ⟨-, -, c, -, -, -, herr⟩ | ⟨c, -, -, herr⟩
    · rw [hok] at h
      cases h
      exact ⟨t, c, ht, Sandbox.skips_enterIncludeAll.mp hc, rfl⟩
    all_goals
      rw [herr] at h
      cases h

theorem confirms_of_walkOuter {hops : Nat} {context : String}
    (h : walkOuter r.receiver hops context = .error err) : r.Confirms maxDepth sandbox err := by
  obtain ⟨o, k, last, ho, -, hlast, hend, rfl⟩ := walkOuter_error h
  exact ⟨o, last, ho, Nat.succ_pos k, hlast, hend⟩

/-- An instance that is missing is one of those that the unit in use is followed to, and these are
as many as the types without source that the request skips. -/
theorem evaluate_failures (maxDepth : Nat) (caches : Bool) (sandbox : Sandbox) (H : List Operation)
    (r : Request) :
    let e : Evaluator := { maxDepth, caches }
    let s := e.after ⟨sandbox, .empty⟩ H
    let answer := (e.evaluate r s).1
    (∀ err, answer = .error err → r.Confirms maxDepth s.sandbox err) ∧
    ∀ context k, answer = .error (.noAnchor context (.missingOuterInstance k)) →
      (∃ env u, bindSymbols r = .ok env ∧ (e.compiledUnit r env s).1 = .ok u ∧ k ≤ u.hops ∧
        u.context.getD "<top level>" = context) ∧
      ((caches = true → Collisionless (r :: H.filterMap Operation.request?)) →
        ∃ t n c, s.sandbox.startOf r.enclosing r.immediate = some t ∧ s.sandbox.Skips t n c ∧
          k ≤ n ∧ c.name = context) := by
  intro e s answer
  refine ⟨?_, ?_⟩
  · intro err h
    by_cases herr : err.IsContextFailure
    · rcases evaluate_error h herr with hplace | ⟨env, u, -, -, hwalk⟩
      · exact (resolve_error hplace).1
      · exact confirms_of_walkOuter hwalk
    · cases err <;> first | exact trivial | exact absurd trivial herr
  · intro context k h
    -- Finding the context never ends with a missing instance: only the walk over instances does.
    refine ⟨?_, ?_⟩
    · rcases evaluate_error h trivial with hplace | ⟨env, u, henv, hu, hwalk⟩
      · exact absurd rfl ((resolve_error hplace).2 context k)
      · obtain ⟨o, m, last, -, hm, -, -, heq⟩ := walkOuter_error hwalk
        cases heq
        exact ⟨env, u, henv, hu, hm, rfl⟩
    · intro hrs
      have hfresh := (evaluate_after maxDepth caches sandbox H r hrs).symm.trans h
      rcases freshAnswer_error hfresh trivial with hplace | ⟨place, hplace, hwalk⟩
      · exact absurd rfl ((resolve_error hplace).2 context k)
      · obtain ⟨o, m, last, -, hm, -, -, heq⟩ := walkOuter_error hwalk
        cases heq
        obtain ⟨t, c, ht, hc, hcontext⟩ := resolve_hops hplace (Nat.zero_lt_of_lt hm)
        exact ⟨t, place.hops, c, ht, hc, hm, by rw [hcontext]; rfl⟩

def orphans : List Operation :=
  [.define { name := "gen.Orphan" },
    .define { name := "gen.Orphan.block_0", enclosing := some "gen.Orphan" }]

def orphanRequest : Request where
  source := "1"
  enclosing := some "gen.Orphan"
  immediate := some "gen.Orphan.block_0"

theorem evaluate_failures_orphans :
    let e : Evaluator := { maxDepth := 1 }
    let s := e.after {} orphans
    (e.evaluate orphanRequest s).1 =
      .error (.noAnchor "gen.Orphan" (.depthExceeded 1)) ∧
      orphanRequest.Confirms 1 s.sandbox (.noAnchor "gen.Orphan" (.depthExceeded 1)) ∧
      (s.sandbox.startOf orphanRequest.enclosing orphanRequest.immediate).bind
        (s.sandbox.outward 2) = none := by
  intro e s
  have hanswer : (e.evaluate orphanRequest s).1 =
      .error (.noAnchor "gen.Orphan" (.depthExceeded 1)) := rfl
  exact ⟨hanswer, (evaluate_failures 1 true {} orphans orphanRequest).1 _ hanswer, rfl⟩

end Evaluator

end SnippetEval
