import SnippetEval.Proofs.Evaluator.CompileCount
import SnippetEval.Proofs.Evaluator.ContextFailures
import SnippetEval.Proofs.Evaluator.HiddenTypes
import SnippetEval.Proofs.Fingerprint.Identity

namespace SnippetEval

inductive Stage
  | symbols
  | context
  | compilation
  | call
  | forwarding

def EvalError.stage : EvalError → Stage
  | .invalidSymbols _ => .symbols
  | .unresolvedContext _ => .context
  | .noAnchor _ (.missingOuterInstance _) => .call
  | .noAnchor _ _ => .context
  | .compilation _ => .compilation
  | .invocationShape .. => .call
  | .execution _ => .call
  | .forwarded .. => .forwarding

inductive HostStep
  | operation (op : Operation)
  | prepare (r : Request) (env : RuntimeEnv)
  | enterIncludeAll
  | exitIncludeAll

/-- The cache is not ahead of the types, and holds nothing before it was asked for anything. -/
structure EvalState.InStep (s : EvalState) : Prop where
  notAhead : ∀ g, s.cache.observed = some g → g ≤ s.sandbox.generation
  unused : s.cache.observed = none → s.cache.entries = .empty

namespace Evaluator

def take (e : Evaluator) (s : EvalState) : HostStep → EvalState
  | .operation op => (e.perform s op).2
  | .prepare r env => (e.compiledUnit r env s).2
  | .enterIncludeAll => { s with sandbox := s.sandbox.enterIncludeAll }
  | .exitIncludeAll => { s with sandbox := s.sandbox.exitIncludeAll }

def afterSteps (e : Evaluator) (s : EvalState) (steps : List HostStep) : EvalState :=
  steps.foldl e.take s

def taken? (caches : Bool) (s : EvalState) (f : Fingerprint) : Option CachedUnit :=
  if caches then (s.cache.get f s.sandbox.generation).1.filter (·.unit.isValid) else none

def looked (caches : Bool) (s : EvalState) : EvalState := if caches then synced s else s

def compiled (caches : Bool) (s : EvalState) (f : Fingerprint) (u : CachedUnit) : EvalState :=
  if caches then afterCompiling s f u
  else { s with sandbox := { s.sandbox with compiles := s.sandbox.compiles + 1 } }

variable {maxDepth : Nat} {caches : Bool} {s : EvalState} {r q : Request} {env : RuntimeEnv}
  {u : CachedUnit} {err : EvalError} {f : Fingerprint}

theorem compiledUnit_eq (maxDepth : Nat) (caches : Bool) (r : Request) (env : RuntimeEnv)
    (s : EvalState) :
    ({ maxDepth, caches } : Evaluator).compiledUnit r env s =
      match taken? caches s (r.fingerprintWith env.keys) with
      | some u => (.ok u, looked caches s)
      | none =>
        match freshUnit maxDepth s.sandbox r env.keys with
        | .error err => (.error err, looked caches s)
        | .ok u => (verdict r.source u, compiled caches s (r.fingerprintWith env.keys) u) := by
  cases caches with
  | true =>
    rcases compiledUnit_cases maxDepth r env s with
      ⟨u, hget, hvalid, hunit⟩ | ⟨hmiss, ⟨err, hfresh, hunit⟩ | ⟨u, hfresh, hunit⟩⟩
    · have htaken : taken? true s (r.fingerprintWith env.keys) = some u := by
        simp [taken?, hget, hvalid]
      rw [hunit, htaken]
      rfl
    all_goals
      have htaken : taken? true s (r.fingerprintWith env.keys) = none := by
        simpa [taken?, Misses, Option.filter_eq_none_iff] using hmiss
      rw [hunit, htaken, hfresh]
      rfl
  | false =>
    simp only [compiledUnit, unitIncludingAll, lookUp, Bool.false_eq_true, ↓reduceIte, freshUnit,
      taken?]
    cases s.sandbox.enterIncludeAll.resolve maxDepth r.enclosing r.immediate r.offset <;> rfl

/-- Every way an evaluation can go, with its answer and the state after it. -/
inductive Course (maxDepth : Nat) (caches : Bool) (r : Request) (s : EvalState) :
    Except EvalError Value → EvalState → Prop
  | malformed {err : EvalError} (henv : bindSymbols r = .error err) :
    Course maxDepth caches r s (.error err) s
  | cached {env : RuntimeEnv} {u : CachedUnit} (henv : bindSymbols r = .ok env)
    (hu : taken? caches s r.fingerprint = some u) :
    Course maxDepth caches r s (call r env u) (looked caches s)
  | misplaced {env : RuntimeEnv} {err : EvalError} (henv : bindSymbols r = .ok env)
    (hplace : s.sandbox.enterIncludeAll.resolve maxDepth r.enclosing r.immediate r.offset =
      .error err) :
    Course maxDepth caches r s (.error err) (looked caches s)
  | rejected {env : RuntimeEnv} {u : CachedUnit} {err : EvalError} (henv : bindSymbols r = .ok env)
    (hu : freshUnit maxDepth s.sandbox r env.keys = .ok u)
    (hverdict : verdict r.source u = .error err) :
    Course maxDepth caches r s (.error err) (compiled caches s r.fingerprint u)
  | compiled {env : RuntimeEnv} {u : CachedUnit} (henv : bindSymbols r = .ok env)
    (hu : freshUnit maxDepth s.sandbox r env.keys = .ok u) (hvalid : u.unit.isValid = true) :
    Course maxDepth caches r s (call r env u) (compiled caches s r.fingerprint u)

theorem freshUnit_eq_error_iff {sandbox : Sandbox} {names : List String} :
    freshUnit maxDepth sandbox r names = .error err ↔
      sandbox.enterIncludeAll.resolve maxDepth r.enclosing r.immediate r.offset = .error err := by
  rw [freshUnit]
  cases sandbox.enterIncludeAll.resolve maxDepth r.enclosing r.immediate r.offset <;>
    simp [Except.map]

theorem isValid_of_verdict {source : String} {v : CachedUnit} (h : verdict source u = .ok v) :
    u.unit.isValid = true := by
  unfold verdict at h
  split at h
  · assumption
  · split at h <;> cases h

theorem evaluate_course (maxDepth : Nat) (caches : Bool) (r : Request) (s : EvalState) :
    Course maxDepth caches r s (({ maxDepth, caches } : Evaluator).evaluate r s).1
      (({ maxDepth, caches } : Evaluator).evaluate r s).2 := by
  unfold evaluate
  cases henv : bindSymbols r with
  | error err => exact .malformed henv
  | ok env =>
    simp only [compiledUnit_eq, fingerprintWith_keys henv]
    cases htaken : taken? caches s r.fingerprint with
    | some u => exact .cached henv htaken
    | none =>
      cases hfresh : freshUnit maxDepth s.sandbox r env.keys with
      | error err => exact .misplaced henv (freshUnit_eq_error_iff.mp hfresh)
      | ok u =>
        cases hv : verdict r.source u with
        | error err => simpa only [hv] using Course.rejected henv hfresh hv
        | ok v =>
          obtain rfl := verdict_eq_ok hv
          simpa only [hv] using Course.compiled henv hfresh (isValid_of_verdict hv)

section

variable {hidden : String → Bool} {includeAll : Nat}

theorem looked_veiled : looked caches (s.veiled hidden includeAll) =
    (looked caches s).veiled hidden includeAll := by
  cases caches <;> rfl

theorem compiled_veiled : compiled caches (s.veiled hidden includeAll) f u =
    (compiled caches s f u).veiled hidden includeAll := by
  cases caches <;> rfl

theorem evaluate_veiled (maxDepth : Nat) (caches : Bool) (r : Request) (s : EvalState)
    (hidden : String → Bool) (includeAll : Nat) :
    ({ maxDepth, caches } : Evaluator).evaluate r (s.veiled hidden includeAll) =
      ((({ maxDepth, caches } : Evaluator).evaluate r s).1,
        (({ maxDepth, caches } : Evaluator).evaluate r s).2.veiled hidden includeAll) := by
  unfold evaluate
  cases bindSymbols r with
  | error err => rfl
  | ok env =>
    have htaken (f : Fingerprint) : taken? caches (s.veiled hidden includeAll) f =
        taken? caches s f := rfl
    have hfresh : freshUnit maxDepth (s.veiled hidden includeAll).sandbox r env.keys =
        freshUnit maxDepth s.sandbox r env.keys := freshUnit_veiled _ _ _ _ _ _
    simp only [compiledUnit_eq, htaken, hfresh, looked_veiled, compiled_veiled]
    cases taken? caches s (r.fingerprintWith env.keys) with
    | some u => rfl
    | none =>
      cases freshUnit maxDepth s.sandbox r env.keys with
      | error err => rfl
      | ok u => cases hv : verdict r.source u <;> simp only [hv]

end

theorem stage_of_bindSymbols (h : bindSymbols r = .error err) : err.stage = .symbols := by
  obtain ⟨m, -, rfl⟩ := bindSymbols_eq_error_iff.mp h
  rfl

theorem stage_of_resolve {sandbox : Sandbox}
    (h : sandbox.enterIncludeAll.resolve maxDepth r.enclosing r.immediate r.offset = .error err) :
    err.stage = .context := by
  rcases Sandbox.resolve_cases (s := sandbox.enterIncludeAll) (Nat.succ_ne_zero _) maxDepth
    r.enclosing r.immediate r.offset with htop | ⟨name, -, -, herr⟩ | ⟨t, -, hfrom⟩
  · rw [htop] at h
    cases h
  · rw [herr] at h
    cases h
    rfl
  · rw [hfrom] at h
    rcases sandbox.enterIncludeAll.placeFrom_cases maxDepth r.offset t with
      ⟨n, -, c, root, -, -, ⟨anchor, hok⟩ | ⟨-, herr⟩⟩ | ⟨n, -, c, -, -, -, herr⟩ | ⟨c, -, -, herr⟩
    · rw [hok] at h
      cases h
    all_goals
      rw [herr] at h
      cases h
      rfl

theorem stage_of_verdict {source : String} (h : verdict source u = .error err) :
    err.stage = .compilation := by
  unfold verdict at h
  split at h
  · cases h
  · split at h <;> cases h <;> rfl

theorem stage_of_call (h : call r env u = .error err) : err.stage = .call := by
  unfold call at h
  cases hwalk : walkOuter r.receiver u.hops (u.context.getD "<top level>") with
  | error err' =>
    obtain ⟨o, k, last, -, -, -, -, rfl⟩ := walkOuter_error hwalk
    rw [hwalk] at h
    cases h
    rfl
  | ok receiver =>
    rw [hwalk] at h
    change u.unit.invoke receiver env = .error err at h
    rw [CompiledUnit.invoke_eq] at h
    split at h
    · cases h
      rfl
    · split at h <;> cases h
      rfl

theorem observed_synced (h : s.InStep) : (synced s).cache.observed = some s.sandbox.generation :=
  Cache.observed_sync_of_le h.notAhead

theorem observed_afterCompiling (h : s.InStep) (f : Fingerprint) (u : CachedUnit) :
    (afterCompiling s f u).cache.observed = some s.sandbox.generation := by
  have hcur := (Cache.isCurrent_iff _ _).mpr (observed_synced h)
  rw [afterCompiling, Cache.put_of_isCurrent hcur]
  exact observed_synced h

theorem inStep_of_observed (h : s.cache.observed = some s.sandbox.generation) : s.InStep where
  notAhead g hg := by
    rw [h] at hg
    exact (Option.some.inj hg).ge
  unused hnone := by
    rw [h] at hnone
    cases hnone

theorem inStep_looked (h : s.InStep) (caches : Bool) : (looked caches s).InStep := by
  cases caches with
  | false => exact h
  | true => exact inStep_of_observed (observed_synced h)

theorem inStep_compiled (h : s.InStep) (caches : Bool) (f : Fingerprint) (u : CachedUnit) :
    (compiled caches s f u).InStep := by
  cases caches with
  | false => exact ⟨h.notAhead, h.unused⟩
  | true => exact inStep_of_observed (observed_afterCompiling h f u)

theorem inStep_compiledUnit (h : s.InStep) (maxDepth : Nat) (caches : Bool) (r : Request)
    (env : RuntimeEnv) : (({ maxDepth, caches } : Evaluator).compiledUnit r env s).2.InStep := by
  rw [compiledUnit_eq]
  split
  · exact inStep_looked h caches
  · split
    · exact inStep_looked h caches
    · exact inStep_compiled h caches _ _

theorem Course.inStep {answer : Except EvalError Value} {s' : EvalState}
    (h : Course maxDepth caches r s answer s') (hs : s.InStep) : s'.InStep := by
  cases h with
  | malformed => exact hs
  | cached | misplaced => exact inStep_looked hs caches
  | rejected | compiled => exact inStep_compiled hs caches _ _

theorem inStep_sandbox (h : s.InStep) {sandbox : Sandbox}
    (hg : s.sandbox.generation ≤ sandbox.generation) : EvalState.InStep ⟨sandbox, s.cache⟩ :=
  ⟨fun g hobs => (h.notAhead g hobs).trans hg, h.unused⟩

theorem inStep_take (h : s.InStep) (maxDepth : Nat) (caches : Bool) (step : HostStep) :
    (({ maxDepth, caches } : Evaluator).take s step).InStep := by
  cases step with
  | operation op =>
    cases op with
    | evaluate r => exact (evaluate_course maxDepth caches r s).inStep h
    | define t => exact inStep_sandbox h (Nat.le_succ _)
    | refresh => exact inStep_sandbox h (Nat.le_succ _)
    | invalidate context =>
      refine ⟨h.notAhead, fun hnone => ?_⟩
      have hentries := h.unused hnone
      simp only [take, perform, EvalState.invalidate, Cache.invalidate, Cache.map, hentries]
      rfl
    | clearCache => exact ⟨h.notAhead, fun _ => rfl⟩
  | prepare r env => exact inStep_compiledUnit h maxDepth caches r env
  | enterIncludeAll => exact inStep_sandbox h (Nat.le_refl _)
  | exitIncludeAll => exact inStep_sandbox h (Nat.le_refl _)

theorem inStep_afterSteps (maxDepth : Nat) (caches : Bool) (sandbox : Sandbox)
    (steps : List HostStep) :
    (({ maxDepth, caches } : Evaluator).afterSteps ⟨sandbox, .empty⟩ steps).InStep := by
  apply List.foldlRecOn (motive := EvalState.InStep)
  · exact ⟨nofun, fun _ => rfl⟩
  · exact fun s h step _ => inStep_take h maxDepth caches step

theorem entries_looked (h : s.InStep) (caches : Bool) :
    (looked caches s).cache.entries = s.cache.entries ∨
      (looked caches s).cache.entries = .empty ∧
        ∃ g, s.cache.observed = some g ∧ g < s.sandbox.generation := by
  cases caches with
  | false => exact .inl rfl
  | true =>
    have hsync := Cache.sync_of_le h.notAhead
    have hentries : (looked true s).cache.entries = (s.cache.sync s.sandbox.generation).entries := rfl
    rw [hentries, hsync]
    split
    · exact .inl rfl
    · next hcur =>
      cases hobs : s.cache.observed with
      | none => exact .inl (h.unused hobs).symm
      | some g =>
        have hne : g ≠ s.sandbox.generation := by
          rintro rfl
          exact hcur ((Cache.isCurrent_iff _ _).mpr hobs)
        exact .inr ⟨rfl, g, rfl, lt_of_le_of_ne (h.notAhead g hobs) hne⟩

theorem hits_of_taken (h : taken? true s f = some u) : Hits s f u := by
  simpa [taken?, Hits, Option.filter_eq_some_iff] using h

theorem hits_compiled (h : s.InStep) (hvalid : u.unit.isValid = true) :
    Hits (compiled true s f u) f u := by
  have hget := Cache.get_put_sync h.notAhead f f u
  rw [if_pos rfl] at hget
  exact ⟨hget, hvalid⟩

theorem evaluate_of_hits (maxDepth : Nat) (h : Hits s r.fingerprint u) :
    (({ maxDepth } : Evaluator).evaluate r s).2.sandbox.compiles = s.sandbox.compiles ∧
      Hits (({ maxDepth } : Evaluator).evaluate r s).2 r.fingerprint u := by
  rcases evaluate_cases maxDepth r s with ⟨err, -, hs⟩ | ⟨env, -, ⟨-, hs⟩ | ⟨hmiss, -⟩⟩
  · rw [hs]
    exact ⟨rfl, h⟩
  · rw [hs]
    exact ⟨rfl, hits_synced.mpr h⟩
  · exact absurd h (misses_iff.mp hmiss u)

theorem compiles_after_of_hits (h : Hits s r.fingerprint u) {qs : List Request}
    (hqs : ∀ q ∈ qs, r.Alike q) :
    (({ maxDepth } : Evaluator).after s (qs.map .evaluate)).sandbox.compiles =
      s.sandbox.compiles := by
  induction qs generalizing s with
  | nil => rfl
  | cons q qs ih =>
    have hf := (hqs q List.mem_cons_self).fingerprint_eq
    obtain ⟨hcount, hhits⟩ := evaluate_of_hits maxDepth (hf ▸ h)
    have hrest := ih (hf ▸ hhits) fun p hp => hqs p (List.mem_cons_of_mem q hp)
    exact hrest.trans hcount

namespace Course

variable {answer : Except EvalError Value} {s' : EvalState}

theorem sandbox (h : Course maxDepth caches r s answer s') :
    s'.sandbox = { s.sandbox with compiles := s'.sandbox.compiles } := by
  cases h <;> cases caches <;> rfl

theorem failed (h : Course maxDepth caches r s answer s') (hanswer : answer = .error err) :
    (err.stage = .symbols ∧ s' = s) ∨
    (err.stage = .context ∧ s' = looked caches s) ∨
    (err.stage = .compilation ∧ ∃ env u, bindSymbols r = .ok env ∧
      freshUnit maxDepth s.sandbox r env.keys = .ok u ∧ verdict r.source u = .error err) ∨
    (err.stage = .call ∧ ∃ env u, bindSymbols r = .ok env ∧ call r env u = .error err ∧
      (taken? caches s r.fingerprint = some u ∧ s' = looked caches s ∨
        u.unit.isValid = true ∧ s' = Evaluator.compiled caches s r.fingerprint u)) := by
  cases h with
  | malformed henv =>
    cases hanswer
    exact .inl ⟨stage_of_bindSymbols henv, rfl⟩
  | cached henv hu =>
    exact .inr (.inr (.inr ⟨stage_of_call hanswer, _, _, henv, hanswer, .inl ⟨hu, rfl⟩⟩))
  | misplaced henv hplace =>
    cases hanswer
    exact .inr (.inl ⟨stage_of_resolve hplace, rfl⟩)
  | rejected henv hu hverdict =>
    cases hanswer
    exact .inr (.inr (.inl ⟨stage_of_verdict hverdict, _, _, henv, hu, hverdict⟩))
  | compiled henv hu hvalid =>
    exact .inr (.inr (.inr ⟨stage_of_call hanswer, _, _, henv, hanswer, .inr ⟨hvalid, rfl⟩⟩))

theorem of_symbols (h : Course maxDepth caches r s answer s') (hanswer : answer = .error err)
    (herr : err.stage = .symbols) : s' = s := by
  rcases h.failed hanswer with ⟨-, hs'⟩ | ⟨hstage, -⟩ | ⟨hstage, -⟩ | ⟨hstage, -⟩
  · exact hs'
  all_goals cases herr.symm.trans hstage

theorem of_context (h : Course maxDepth caches r s answer s') (hanswer : answer = .error err)
    (herr : err.stage = .context) : s' = looked caches s := by
  rcases h.failed hanswer with ⟨hstage, -⟩ | ⟨-, hs'⟩ | ⟨hstage, -⟩ | ⟨hstage, -⟩
  · cases herr.symm.trans hstage
  · exact hs'
  all_goals cases herr.symm.trans hstage

theorem of_call (hs : s.InStep) (h : Course maxDepth true r s answer s')
    (hanswer : answer = .error err) (herr : err.stage = .call) :
    ∃ env u, bindSymbols r = .ok env ∧ call r env u = .error err ∧ Hits s' r.fingerprint u := by
  rcases h.failed hanswer with ⟨hstage, -⟩ | ⟨hstage, -⟩ | ⟨hstage, -⟩ |
    ⟨-, env, u, henv, hcall, ⟨hu, rfl⟩ | ⟨hvalid, rfl⟩⟩
  · cases herr.symm.trans hstage
  · cases herr.symm.trans hstage
  · cases herr.symm.trans hstage
  · exact ⟨env, u, henv, hcall, hits_synced.mpr (hits_of_taken hu)⟩
  · exact ⟨env, u, henv, hcall, hits_compiled hs hvalid⟩

theorem observed (hs : s.InStep) (h : Course maxDepth true r s answer s')
    (henv : bindSymbols r = .ok env) : s'.cache.observed = some s'.sandbox.generation := by
  cases h with
  | malformed hnone =>
    rw [henv] at hnone
    cases hnone
  | cached | misplaced => exact observed_synced hs
  | rejected | compiled => exact observed_afterCompiling hs _ _

end Course

/-- Neither hidden types nor the scopes that include all of them make a difference, and a unit that
was called in vain stays cached. -/
theorem evaluate_footprint (maxDepth : Nat) (caches : Bool) (sandbox : Sandbox)
    (steps : List HostStep) (r : Request) :
    let e : Evaluator := { maxDepth, caches }
    let s := e.afterSteps ⟨sandbox, .empty⟩ steps
    let answer := (e.evaluate r s).1
    let s' := (e.evaluate r s).2
    (s'.sandbox.types = s.sandbox.types ∧ s'.sandbox.generation = s.sandbox.generation ∧
      s'.sandbox.includeAll = s.sandbox.includeAll) ∧
    (∀ hidden includeAll, e.evaluate r (s.veiled hidden includeAll) =
      (answer, s'.veiled hidden includeAll)) ∧
    (∀ err, answer = .error err → err.stage = .symbols → s' = s) ∧
    (∀ err, answer = .error err → err.stage = .context →
      s'.sandbox.compiles = s.sandbox.compiles ∧
      (s'.cache.entries = s.cache.entries ∨
        s'.cache.entries = .empty ∧ ∃ g, s.cache.observed = some g ∧ g < s.sandbox.generation)) ∧
    (caches = true → ∀ err, answer = .error err → err.stage = .call →
      ∃ env u, bindSymbols r = .ok env ∧ call r env u = .error err ∧ Hits s' r.fingerprint u ∧
        ∀ qs : List Request, (∀ q ∈ qs, r.Alike q) →
          (e.after s' (qs.map .evaluate)).sandbox.compiles = s'.sandbox.compiles) ∧
    (caches = true → (∃ env, bindSymbols r = .ok env) →
      s'.cache.observed = some s'.sandbox.generation) := by
  intro e s answer s'
  have hs : s.InStep := inStep_afterSteps maxDepth caches sandbox steps
  have hcourse : Course maxDepth caches r s answer s' := evaluate_course maxDepth caches r s
  refine ⟨?_, evaluate_veiled maxDepth caches r s, ?_, ?_, ?_, ?_⟩
  · rw [hcourse.sandbox]
    exact ⟨rfl, rfl, rfl⟩
  · exact fun err hanswer herr => hcourse.of_symbols hanswer herr
  · intro err hanswer herr
    rw [hcourse.of_context hanswer herr]
    exact ⟨by cases caches <;> rfl, entries_looked hs caches⟩
  · rintro rfl err hanswer herr
    obtain ⟨env, u, henv, hcall, hhits⟩ := hcourse.of_call hs hanswer herr
    exact ⟨env, u, henv, hcall, hhits, fun qs hqs => compiles_after_of_hits hhits hqs⟩
  · rintro rfl ⟨env, henv⟩
    exact hcourse.observed hs henv

def includingSteps : List HostStep :=
  [.operation (.define { name := "app.Counter" }), .enterIncludeAll]

theorem evaluate_footprint_quotient :
    let e : Evaluator := {}
    let s := e.afterSteps {} includingSteps
    let s' := (e.evaluate (requestAt "x / 0" 1) s).2
    (e.evaluate (requestAt "x / 0" 1) s).1 =
        .error (.execution { kind := .divisionByZero, message := "1 / 0" }) ∧
      s'.sandbox.includeAll = 1 ∧ s'.cache.observed = some 1 ∧
      (e.after s' [.evaluate (requestAt "x / 0" 2)]).sandbox.compiles = s'.sandbox.compiles := by
  intro e s s'
  have hfails : (match (e.evaluate (requestAt "x / 0" 1) s).1 with
      | .error err => some err
      | .ok _ => none) =
        some (.execution { kind := .divisionByZero, message := "1 / 0" }) := by
    decide +kernel
  have hanswer : (e.evaluate (requestAt "x / 0" 1) s).1 =
      .error (.execution { kind := .divisionByZero, message := "1 / 0" }) := by
    split at hfails
    · next err herr => rw [herr, Option.some.inj hfails]
    · cases hfails
  obtain ⟨⟨-, hgeneration, hincluded⟩, -, -, -, hcall, hobserved⟩ :=
    evaluate_footprint 64 true {} includingSteps (requestAt "x / 0" 1)
  obtain ⟨env, -, henv, -, -, hagain⟩ := hcall rfl _ hanswer rfl
  refine ⟨hanswer, hincluded, ?_, hagain [requestAt "x / 0" 2] ?_⟩
  · exact (hobserved rfl ⟨env, henv⟩).trans (congrArg some hgeneration)
  · exact List.forall_mem_singleton.mpr (requestAt_alike _ 1 2)

end Evaluator

end SnippetEval
