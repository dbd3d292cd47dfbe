import SnippetEval.Proofs.Cache.Lookup
import SnippetEval.Proofs.Compilation
import SnippetEval.Proofs.Evaluator.Transparency

namespace SnippetEval

def Operation.Retires (u : CachedUnit) : Operation → Prop
  | .evaluate _ => False
  | .define _ | .refresh | .clearCache => True
  | .invalidate context => u.context = some context

namespace Evaluator

def Compiles (maxDepth : Nat) (s : EvalState) (r : Request) (u : CachedUnit) : Prop :=
  (({ maxDepth } : Evaluator).evaluate r s).2.sandbox.compiles = s.sandbox.compiles + 1 ∧
    ∃ env, bindSymbols r = .ok env ∧ freshUnit maxDepth s.sandbox r env.keys = .ok u

/-- Some evaluation compiled the valid unit under the fingerprint, and nothing since then retired
it. -/
def Standing (maxDepth : Nat) (sandbox : Sandbox) (H : List Operation) (f : Fingerprint)
    (u : CachedUnit) : Prop :=
  ∃ before q later, H = before ++ .evaluate q :: later ∧ q.fingerprint = f ∧
    Compiles maxDepth (({ maxDepth } : Evaluator).after ⟨sandbox, .empty⟩ before) q u ∧
    u.unit.isValid = true ∧ ∀ op ∈ later, ¬ op.Retires u

def Hits (s : EvalState) (f : Fingerprint) (u : CachedUnit) : Prop :=
  (s.cache.get f s.sandbox.generation).1 = some u ∧ u.unit.isValid = true

theorem misses_iff {s : EvalState} {f : Fingerprint} : Misses s f ↔ ∀ u, ¬ Hits s f u := by
  simp [Misses, Hits]

variable {maxDepth : Nat} {rs : List Request} {s : EvalState} {r : Request} {f : Fingerprint}
  {u : CachedUnit}

theorem evaluate_cases (maxDepth : Nat) (r : Request) (s : EvalState) :
    (∃ err, bindSymbols r = .error err ∧ (({ maxDepth } : Evaluator).evaluate r s).2 = s) ∨
    ∃ env, bindSymbols r = .ok env ∧
      ((∃ u, Hits s r.fingerprint u) ∧
          (({ maxDepth } : Evaluator).evaluate r s).2 = synced s ∨
        Misses s r.fingerprint ∧
          ((∃ err, freshUnit maxDepth s.sandbox r env.keys = .error err) ∧
              (({ maxDepth } : Evaluator).evaluate r s).2 = synced s ∨
            ∃ u, freshUnit maxDepth s.sandbox r env.keys = .ok u ∧
              (({ maxDepth } : Evaluator).evaluate r s).2 = afterCompiling s r.fingerprint u)) := by
  unfold evaluate
  cases henv : bindSymbols r with
  | error err => exact .inl ⟨err, rfl, rfl⟩
  | ok env =>
    refine .inr ⟨env, rfl, ?_⟩
    have hcases := compiledUnit_cases maxDepth r env s
    rw [fingerprintWith_keys henv] at hcases
    rcases hcases with
      ⟨u, hget, hvalid, hunit⟩ | ⟨hmiss, ⟨err, hfresh, hunit⟩ | ⟨u, hfresh, hunit⟩⟩
    · exact .inl ⟨⟨u, hget, hvalid⟩, by simp only [hunit]⟩
    · exact .inr ⟨hmiss, .inl ⟨⟨err, hfresh⟩, by simp only [hunit]⟩⟩
    · refine .inr ⟨hmiss, .inr ⟨u, hfresh, ?_⟩⟩
      cases hv : verdict r.source u <;> simp only [hunit, hv]

theorem compiles_eq_succ_iff (maxDepth : Nat) (r : Request) (s : EvalState) :
    ((({ maxDepth } : Evaluator).evaluate r s).2.sandbox.compiles = s.sandbox.compiles ∨
      (({ maxDepth } : Evaluator).evaluate r s).2.sandbox.compiles = s.sandbox.compiles + 1) ∧
    ((({ maxDepth } : Evaluator).evaluate r s).2.sandbox.compiles = s.sandbox.compiles + 1 ↔
      Misses s r.fingerprint ∧
        ∃ env u, bindSymbols r = .ok env ∧ freshUnit maxDepth s.sandbox r env.keys = .ok u) := by
  have hsynced : (synced s).sandbox.compiles = s.sandbox.compiles := rfl
  rcases evaluate_cases maxDepth r s with ⟨err, hr, hs⟩ | ⟨env, hr, hcases⟩
  · simp [hs, hr]
  · rcases hcases with ⟨⟨v, hv⟩, hs⟩ | ⟨hmiss, ⟨⟨err, hfresh⟩, hs⟩ | ⟨v, hfresh, hs⟩⟩
    · have hnot : ¬ Misses s r.fingerprint := fun h => misses_iff.mp h v hv
      simp [hs, hsynced, hnot]
    · simp [hs, hsynced, hr, hfresh]
    · have hcount : (afterCompiling s r.fingerprint v).sandbox.compiles =
          s.sandbox.compiles + 1 := rfl
      simp [hs, hcount, hmiss, hr, hfresh]

theorem compiles_iff : Compiles maxDepth s r u ↔ Misses s r.fingerprint ∧
    ∃ env, bindSymbols r = .ok env ∧ freshUnit maxDepth s.sandbox r env.keys = .ok u := by
  rw [Compiles, (compiles_eq_succ_iff maxDepth r s).2]
  constructor
  · rintro ⟨⟨hmiss, -⟩, hu⟩
    exact ⟨hmiss, hu⟩
  · rintro ⟨hmiss, env, henv, hu⟩
    exact ⟨⟨hmiss, env, u, henv, hu⟩, env, henv, hu⟩

theorem hits_synced : Hits (synced s) f u ↔ Hits s f u := by
  have hget : ((synced s).cache.get f (synced s).sandbox.generation).1 =
      (s.cache.get f s.sandbox.generation).1 := Cache.get_sync _ _ _
  rw [Hits, Hits, hget]

theorem hits_afterCompiling (h : Coherent maxDepth rs s) (v : CachedUnit) (n : Fingerprint) :
    Hits (afterCompiling s f v) n u ↔
      if n = f then u = v ∧ u.unit.isValid = true else Hits s n u := by
  have hget : ((afterCompiling s f v).cache.get n (afterCompiling s f v).sandbox.generation).1 =
      if n = f then some v else (s.cache.get n s.sandbox.generation).1 :=
    Cache.get_put_sync h.notAhead f n v
  rw [Hits, hget]
  split
  · rw [Option.some.injEq, eq_comm]
  · rfl

theorem hits_evaluate (h : Coherent maxDepth rs s) (r : Request) :
    Hits (({ maxDepth } : Evaluator).evaluate r s).2 f u ↔
      r.fingerprint = f ∧ Compiles maxDepth s r u ∧ u.unit.isValid = true ∨ Hits s f u := by
  rw [compiles_iff]
  rcases evaluate_cases maxDepth r s with ⟨err, hr, hs⟩ | ⟨env, hr, hcases⟩
  · simp [hs, hr]
  · rcases hcases with ⟨⟨v, hv⟩, hs⟩ | ⟨hmiss, ⟨⟨err, hfresh⟩, hs⟩ | ⟨v, hfresh, hs⟩⟩
    · have hnot : ¬ Misses s r.fingerprint := fun h => misses_iff.mp h v hv
      simp [hs, hits_synced, hnot]
    · simp [hs, hits_synced, hr, hfresh]
    · rw [hs, hits_afterCompiling h]
      split
      · next hf =>
        subst hf
        have hnone := misses_iff.mp hmiss u
        have hv : freshUnit maxDepth s.sandbox r env.keys = .ok u ↔ u = v := by
          rw [hfresh, Except.ok.injEq, eq_comm]
        simp [hmiss, hr, hv, hnone]
      · next hf => simp [Ne.symm hf]

theorem hits_newGeneration (h : Coherent maxDepth rs s) {sandbox : Sandbox}
    (hg : s.sandbox.generation < sandbox.generation) : ¬ Hits ⟨sandbox, s.cache⟩ f u := by
  rintro ⟨hget, -⟩
  have hnone := Cache.get_of_newer (fun m hm => (h.notAhead m hm).trans_lt hg) f
  rw [hnone] at hget
  cases hget

theorem hits_clearCache : ¬ Hits s.clearCache f u := by
  rintro ⟨hget, -⟩
  have hnone := Cache.get_clear s.cache f s.sandbox.generation
  rw [EvalState.clearCache, hnone] at hget
  cases hget

theorem hits_invalidate (context : String) :
    Hits (s.invalidate context).2 f u ↔ Hits s f u ∧ ¬ u.unit.isAgainst context = true := by
  have hget : ((s.invalidate context).2.cache.get f (s.invalidate context).2.sandbox.generation).1 =
      (s.cache.get f s.sandbox.generation).1.map fun v =>
        if v.unit.isAgainst context then { v with unit := v.unit.revoke } else v :=
    Cache.get_map _ _ _ _
  rw [Hits, hget, Hits]
  constructor
  · rintro ⟨hu, hvalid⟩
    obtain ⟨v, hv, rfl⟩ := Option.map_eq_some_iff.mp hu
    by_cases hagainst : v.unit.isAgainst context = true
    · simp [hagainst, revoke_isValid v.unit hagainst] at hvalid
    · simp only [hagainst, Bool.false_eq_true, if_false] at hvalid ⊢
      exact ⟨⟨hv, hvalid⟩, not_false⟩
  · rintro ⟨⟨hu, hvalid⟩, hagainst⟩
    simp [hu, hagainst, hvalid]

theorem unitIn_isAgainst {names : List String} {place : Resolution}
    (h : (unitIn r names place).unit.isValid = true) (context : String) :
    (unitIn r names place).unit.isAgainst context = true ↔
      (unitIn r names place).context = some context := by
  obtain ⟨snippet, -, -, hunit⟩ := CompileRequest.compile_of_isValid h
  have hsome : (unitIn r names place).unit.isAgainst context =
      decide ((unitIn r names place).context = some context) := by
    rw [CompiledUnit.isAgainst, unitIn, hunit]
    rfl
  rw [hsome, decide_eq_true_iff]

theorem standing_append {sandbox : Sandbox} {H later : List Operation}
    (h : Standing maxDepth sandbox H f u) (hlater : ∀ op ∈ later, ¬ op.Retires u) :
    Standing maxDepth sandbox (H ++ later) f u := by
  obtain ⟨before, q, rest, rfl, hf, hcompiles, hvalid, hrest⟩ := h
  refine ⟨before, q, rest ++ later, by simp, hf, hcompiles, hvalid, ?_⟩
  intro op hop
  rcases List.mem_append.mp hop with hop | hop
  · exact hrest op hop
  · exact hlater op hop

theorem standing_concat (maxDepth : Nat) (sandbox : Sandbox) (H : List Operation) (op : Operation)
    (f : Fingerprint) (u : CachedUnit) :
    Standing maxDepth sandbox (H ++ [op]) f u ↔
      (∃ q, op = .evaluate q ∧ q.fingerprint = f ∧
        Compiles maxDepth (({ maxDepth } : Evaluator).after ⟨sandbox, .empty⟩ H) q u ∧
        u.unit.isValid = true) ∨ Standing maxDepth sandbox H f u ∧ ¬ op.Retires u := by
  constructor
  · rintro ⟨before, q, later, hH, hf, hcompiles, hvalid, hlater⟩
    rcases List.eq_nil_or_concat later with rfl | ⟨later, last, rfl⟩
    · obtain ⟨rfl, rfl⟩ := List.append_singleton_inj.mp hH
      exact .inl ⟨q, rfl, hf, hcompiles, hvalid⟩
    · have hH' : H ++ [op] = (before ++ .evaluate q :: later) ++ [last] := by simpa using hH
      obtain ⟨rfl, rfl⟩ := List.append_singleton_inj.mp hH'
      refine .inr ⟨⟨before, q, later, rfl, hf, hcompiles, hvalid, ?_⟩, ?_⟩
      · exact fun op' hop' => hlater op' (by simp [hop'])
      · exact hlater op (by simp)
  · rintro (⟨q, rfl, hf, hcompiles, hvalid⟩ | ⟨hstanding, hop⟩)
    · exact ⟨H, q, [], rfl, hf, hcompiles, hvalid, by simp⟩
    · apply standing_append hstanding
      simpa using hop

theorem hits_perform (h : Coherent maxDepth rs s)
    (hcontext : Hits s f u → ∀ context,
      u.unit.isAgainst context = true ↔ u.context = some context) (op : Operation) :
    Hits (({ maxDepth } : Evaluator).perform s op).2 f u ↔
      (∃ q, op = .evaluate q ∧ q.fingerprint = f ∧ Compiles maxDepth s q u ∧
        u.unit.isValid = true) ∨ Hits s f u ∧ ¬ op.Retires u := by
  cases op with
  | evaluate q =>
    have hstep := hits_evaluate (f := f) (u := u) h q
    simpa [perform, Operation.Retires] using hstep
  | define t =>
    have hnone : ¬ Hits (s.define t) f u := hits_newGeneration h (Nat.lt_succ_self _)
    simpa [perform, Operation.Retires] using hnone
  | refresh =>
    have hnone : ¬ Hits s.refresh f u := hits_newGeneration h (Nat.lt_succ_self _)
    simpa [perform, Operation.Retires] using hnone
  | invalidate context =>
    have hstep := hits_invalidate (s := s) (f := f) (u := u) context
    have hretires := and_congr_right fun hu => not_congr (hcontext hu context)
    simpa [perform, Operation.Retires] using hstep.trans hretires
  | clearCache =>
    have hnone : ¬ Hits s.clearCache f u := hits_clearCache
    simpa [perform, Operation.Retires] using hnone

theorem Standing.isAgainst_iff {sandbox : Sandbox} {H : List Operation}
    (h : Standing maxDepth sandbox H f u) (context : String) :
    u.unit.isAgainst context = true ↔ u.context = some context := by
  obtain ⟨before, q, later, -, -, ⟨-, env, -, hfresh⟩, hvalid, -⟩ := h
  obtain ⟨place, -, rfl⟩ := freshUnit_eq_ok_iff.mp hfresh
  exact unitIn_isAgainst hvalid context

theorem standing_iff_hits (maxDepth : Nat) (sandbox : Sandbox) (hrs : Collisionless rs)
    (H : List Operation) (hH : ∀ op ∈ H, ∀ r, op.request? = some r → r ∈ rs) (f : Fingerprint)
    (u : CachedUnit) :
    Standing maxDepth sandbox H f u ↔
      Hits (({ maxDepth } : Evaluator).after ⟨sandbox, .empty⟩ H) f u := by
  induction H using List.reverseRecOn with
  | nil =>
    constructor
    · rintro ⟨before, q, later, hH, -⟩
      simp at hH
    · exact fun h => absurd h (hits_clearCache (s := ⟨sandbox, .empty⟩))
  | append_singleton H op ih =>
    have hH' : ∀ op ∈ H, ∀ r, op.request? = some r → r ∈ rs :=
      fun op' hop' => hH op' (List.mem_append_left _ hop')
    have hcoherent := coherent_after maxDepth sandbox hrs H hH'
    have hstands := ih hH'
    rw [standing_concat, after_concat, hstands]
    exact (hits_perform hcoherent (fun hu => (hstands.mpr hu).isAgainst_iff) op).symm

theorem fresh_of_hits (h : Coherent maxDepth rs s) (hr : r ∈ rs) {env : RuntimeEnv}
    (henv : bindSymbols r = .ok env) (hu : Hits s r.fingerprint u) :
    freshUnit maxDepth s.sandbox r env.keys = .ok u := by
  obtain ⟨hobs, hentry⟩ := Cache.of_get_of_le h.notAhead hu.1
  exact h.fresh hobs r hr env henv u hentry hu.2

theorem freshUnit_isOk_iff {names : List String} :
    (∃ u, freshUnit maxDepth s.sandbox r names = .ok u) ↔
      ∃ place, s.sandbox.enterIncludeAll.resolve maxDepth r.enclosing r.immediate r.offset =
        .ok place := by
  simp only [freshUnit_eq_ok_iff]
  constructor
  · rintro ⟨u, place, hplace, -⟩
    exact ⟨place, hplace⟩
  · rintro ⟨place, hplace⟩
    exact ⟨_, place, hplace, rfl⟩

theorem standing_of_evaluate (maxDepth : Nat) (sandbox : Sandbox) (hrs : Collisionless rs)
    {before : List Operation} (hbefore : ∀ op ∈ before, ∀ r, op.request? = some r → r ∈ rs)
    (hr : r ∈ rs) {env : RuntimeEnv} (henv : bindSymbols r = .ok env)
    (hu : freshUnit maxDepth (({ maxDepth } : Evaluator).after ⟨sandbox, .empty⟩ before).sandbox r
      env.keys = .ok u) (hvalid : u.unit.isValid = true) :
    Standing maxDepth sandbox (before ++ [.evaluate r]) r.fingerprint u := by
  have hcoherent := coherent_after maxDepth sandbox hrs before hbefore
  have hstands := standing_iff_hits maxDepth sandbox hrs before hbefore r.fingerprint
  rw [standing_concat, hstands u]
  by_cases hmiss : Misses (({ maxDepth } : Evaluator).after ⟨sandbox, .empty⟩ before) r.fingerprint
  · exact .inl ⟨r, rfl, rfl, compiles_iff.mpr ⟨hmiss, env, henv, hu⟩, hvalid⟩
  · right
    obtain ⟨v, hv⟩ := not_forall_not.mp (misses_iff.not.mp hmiss)
    have hsame := (fresh_of_hits hcoherent hr henv hv).symm.trans hu
    rw [← Except.ok.inj hsame]
    exact ⟨hv, id⟩

theorem compiles_evaluate (maxDepth : Nat) (sandbox : Sandbox) (H : List Operation) (r : Request)
    (h : Collisionless (r :: H.filterMap Operation.request?)) :
    let e : Evaluator := { maxDepth }
    let s := e.after ⟨sandbox, .empty⟩ H
    let compiles := (e.evaluate r s).2.sandbox.compiles
    (compiles = s.sandbox.compiles ∨ compiles = s.sandbox.compiles + 1) ∧
    (compiles = s.sandbox.compiles + 1 ↔
      (∃ env, bindSymbols r = .ok env) ∧
      (∃ place, s.sandbox.enterIncludeAll.resolve maxDepth r.enclosing r.immediate r.offset =
        .ok place) ∧
      ∀ u, ¬ Standing maxDepth sandbox H r.fingerprint u) ∧
    (∀ before q later env u, H = before ++ .evaluate q :: later → q.fingerprint = r.fingerprint →
      bindSymbols q = .ok env →
      freshUnit maxDepth (e.after ⟨sandbox, .empty⟩ before).sandbox q env.keys = .ok u →
      u.unit.isValid = true → (∀ op ∈ later, ¬ op.Retires u) → compiles = s.sandbox.compiles) ∧
    ∀ env u, bindSymbols r = .ok env → freshUnit maxDepth s.sandbox r env.keys = .ok u →
      u.unit.isValid = false → compiles = s.sandbox.compiles + 1 := by
  intro e s compiles
  have hH : ∀ op ∈ H, ∀ q, op.request? = some q → q ∈ r :: H.filterMap Operation.request? :=
    fun op hop q hq => List.mem_cons_of_mem r (List.mem_filterMap.mpr ⟨op, hop, hq⟩)
  have hstands := standing_iff_hits maxDepth sandbox h H hH r.fingerprint
  have hcoherent := coherent_after maxDepth sandbox h H hH
  obtain ⟨hcount, hsucc⟩ := compiles_eq_succ_iff maxDepth r s
  have hmiss : Misses s r.fingerprint ↔ ∀ u, ¬ Standing maxDepth sandbox H r.fingerprint u :=
    misses_iff.trans (forall_congr' fun u => not_congr (hstands u).symm)
  refine ⟨hcount, ?_, ?_, ?_⟩
  · rw [← hmiss]
    constructor
    · intro hone
      obtain ⟨hnone, env, u, henv, hu⟩ := hsucc.mp hone
      exact ⟨⟨env, henv⟩, freshUnit_isOk_iff.mp ⟨u, hu⟩, hnone⟩
    · rintro ⟨⟨env, henv⟩, hplace, hnone⟩
      obtain ⟨u, hu⟩ := freshUnit_isOk_iff.mpr hplace
      exact hsucc.mpr ⟨hnone, env, u, henv, hu⟩
  · intro before q later env u hsplit hf henv hu hvalid hlater
    have hbefore : ∀ op ∈ before, ∀ q, op.request? = some q →
        q ∈ r :: H.filterMap Operation.request? := fun op hop => hH op (by simp [hsplit, hop])
    have hq := hH (.evaluate q) (by simp [hsplit]) q rfl
    have hstanding := standing_of_evaluate maxDepth sandbox h hbefore hq henv hu hvalid
    have hstill : Standing maxDepth sandbox H r.fingerprint u := by
      rw [hsplit, ← hf]
      simpa using standing_append hstanding hlater
    exact hcount.resolve_right fun hone => hmiss.mp (hsucc.mp hone).1 u hstill
  · intro env u henv hu hvalid
    apply hsucc.mpr
    refine ⟨misses_iff.mpr fun v hv => ?_, env, u, henv, hu⟩
    -- A unit in the cache would be valid and the one that the request has.
    have hsame := (fresh_of_hits hcoherent List.mem_cons_self henv hv).symm.trans hu
    rw [Except.ok.inj hsame] at hv
    exact absurd (hvalid.symm.trans hv.2) Bool.false_ne_true

def sumSession : List Operation :=
  [.evaluate (requestAt "x + 1" 1), .evaluate (requestAt "x * 2" 1), .invalidate "app.Counter"]

theorem compiles_evaluate_sum :
    let e : Evaluator := {}
    let s := e.after {} sumSession
    Collisionless (requestAt "x + 1" 2 :: sumSession.filterMap Operation.request?) ∧
      s.sandbox.compiles = 2 ∧
      (e.evaluate (requestAt "x + 1" 2) s).2.sandbox.compiles = s.sandbox.compiles := by
  have hcollisionless :
      Collisionless (requestAt "x + 1" 2 :: sumSession.filterMap Operation.request?) := by
    apply collisionless_requestAt
    intro r hr
    simp only [sumSession, List.filterMap, Operation.request?, List.mem_cons, List.not_mem_nil,
      or_false] at hr
    rcases hr with rfl | rfl | rfl
    · exact ⟨2, .inl rfl⟩
    · exact ⟨1, .inl rfl⟩
    · exact ⟨1, .inr rfl⟩
  have hvalid : (unitIn (requestAt "x + 1" 1) ["x"] .topLevel).unit.isValid = true := by
    decide +kernel
  have hlater : ∀ op ∈ [.evaluate (requestAt "x * 2" 1), .invalidate "app.Counter"],
      ¬ Operation.Retires (unitIn (requestAt "x + 1" 1) ["x"] .topLevel) op := by
    simp [Operation.Retires, unitIn, Resolution.context]
  have hcounts := compiles_evaluate 64 {} sumSession (requestAt "x + 1" 2) hcollisionless
  exact ⟨hcollisionless, by decide +kernel,
    hcounts.2.2.1 [] _ _ (.ofList [("x", .int 1)]) _ rfl rfl rfl rfl hvalid hlater⟩

end Evaluator

end SnippetEval
