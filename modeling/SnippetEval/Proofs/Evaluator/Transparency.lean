import SnippetEval.Proofs.Evaluator.Operations
/-!
An evaluator answers the same with and without its cache. Every valid unit that is cached under the
current generation is what its request would compile to now.
-/

namespace SnippetEval.Evaluator

/-- Only requests that are alike share a fingerprint. -/
def Collisionless (rs : List Request) : Prop :=
  ∀ r ∈ rs, ∀ q ∈ rs, r.fingerprint = q.fingerprint → r.Alike q

theorem collisionless_singleton (r : Request) : Collisionless [r] := by
  intro p hp q hq _
  obtain rfl := List.mem_singleton.mp hp
  obtain rfl := List.mem_singleton.mp hq
  exact .refl _

/-- What is valid and cached under the current generation is what its requests would compile to. -/
structure Coherent (maxDepth : Nat) (rs : List Request) (s : EvalState) : Prop where
  notAhead : ∀ g, s.cache.observed = some g → g ≤ s.sandbox.generation
  fresh : s.cache.observed = some s.sandbox.generation →
    ∀ r ∈ rs, ∀ env, bindSymbols r = .ok env → ∀ u,
      s.cache.entries.get? r.fingerprint = some u → u.unit.isValid = true →
        freshUnit maxDepth s.sandbox r env.keys = .ok u

variable {maxDepth : Nat} {rs : List Request} {s : EvalState}

theorem coherent_initial (sandbox : Sandbox) : Coherent maxDepth rs ⟨sandbox, .empty⟩ :=
  ⟨by simp [Cache.empty], by simp [Cache.empty]⟩

theorem coherent_newGeneration (h : Coherent maxDepth rs s) {sandbox : Sandbox}
    (hg : s.sandbox.generation < sandbox.generation) : Coherent maxDepth rs ⟨sandbox, s.cache⟩ := by
  constructor
  · intro g hobs
    exact (h.notAhead g hobs).trans (Nat.le_of_lt hg)
  · intro hobs
    exact absurd (h.notAhead _ hobs) (Nat.not_le_of_lt hg)

theorem revoke_isValid (u : CompiledUnit) {context : String} (h : u.isAgainst context = true) :
    u.revoke.isValid = false := by
  unfold CompiledUnit.isAgainst CompiledUnit.program? at h
  unfold CompiledUnit.revoke
  split at h
  · next p hp =>
    split at hp
    · next hb => simp [CompiledUnit.isValid, UnitBody.isValid]
    · simp at hp
  · simp at h

theorem coherent_invalidate (h : Coherent maxDepth rs s) (context : String) :
    Coherent maxDepth rs (s.invalidate context).2 := by
  refine ⟨h.notAhead, fun hobs r hr env henv u hu hvalid => ?_⟩
  simp only [EvalState.invalidate, Cache.invalidate, Cache.map, Table.get?_map,
    Option.map_eq_some_iff] at hu
  obtain ⟨v, hv, rfl⟩ := hu
  by_cases hagainst : v.unit.isAgainst context = true
  · simp [hagainst, revoke_isValid v.unit hagainst] at hvalid
  · simp only [hagainst, Bool.false_eq_true, ↓reduceIte] at hvalid ⊢
    exact h.fresh hobs r hr env henv v hv hvalid

theorem coherent_clearCache (h : Coherent maxDepth rs s) : Coherent maxDepth rs s.clearCache :=
  ⟨h.notAhead, by simp [EvalState.clearCache, Cache.clear]⟩

theorem coherent_synced (h : Coherent maxDepth rs s) : Coherent maxDepth rs (synced s) := by
  constructor
  · intro g hg
    rw [synced, Cache.observed_sync_of_le h.notAhead] at hg
    exact (Option.some.inj hg).ge
  · intro _ r hr env henv u hu
    obtain ⟨hobs, hu⟩ := Cache.of_get?_sync h.notAhead hu
    exact h.fresh hobs r hr env henv u hu

theorem coherent_afterCompiling (h : Coherent maxDepth rs s) (hrs : Collisionless rs) {r : Request}
    (hr : r ∈ rs) {env : RuntimeEnv} (henv : bindSymbols r = .ok env) {u : CachedUnit}
    (hu : freshUnit maxDepth s.sandbox r env.keys = .ok u) :
    Coherent maxDepth rs (afterCompiling s (r.fingerprintWith env.keys) u) := by
  have hsynced := coherent_synced h
  have hcur : (synced s).cache.isCurrent s.sandbox.generation = true :=
    (Cache.isCurrent_iff _ _).mpr (Cache.observed_sync_of_le h.notAhead)
  have hput : (afterCompiling s (r.fingerprintWith env.keys) u).cache =
      { (synced s).cache with entries := (synced s).cache.entries.insert r.fingerprint u } := by
    rw [afterCompiling, Cache.put_of_isCurrent hcur, fingerprintWith_keys henv]
  constructor
  · intro g hg
    rw [hput] at hg
    exact hsynced.notAhead g hg
  · intro _ q hq env' henv' v hv hvalid
    rw [hput, Table.get?_insert] at hv
    have htypes : (afterCompiling s (r.fingerprintWith env.keys) u).sandbox.types =
        s.sandbox.types := rfl
    rw [freshUnit_types htypes]
    split at hv
    · next hf =>
      -- Both requests share the fingerprint, so they are alike and would compile to one unit.
      rw [← Option.some.inj hv, ← hu]
      exact freshUnit_alike (hrs q hq r hr hf) henv' henv maxDepth s.sandbox
    · exact hsynced.fresh ((Cache.isCurrent_iff _ _).mp hcur) q hq env' henv' v hv hvalid

theorem evaluate_coherent (h : Coherent maxDepth rs s) (hrs : Collisionless rs) {r : Request}
    (hr : r ∈ rs) :
    (({ maxDepth } : Evaluator).evaluate r s).1 = freshAnswer maxDepth s.sandbox r ∧
      (({ maxDepth } : Evaluator).evaluate r s).2.sandbox.types = s.sandbox.types ∧
      Coherent maxDepth rs (({ maxDepth } : Evaluator).evaluate r s).2 := by
  unfold evaluate freshAnswer
  cases henv : bindSymbols r with
  | error err => exact ⟨rfl, rfl, h⟩
  | ok env =>
    rcases compiledUnit_cases maxDepth r env s with
      ⟨u, hget, hvalid, hunit⟩ | ⟨-, ⟨err, hfresh, hunit⟩ | ⟨u, hfresh, hunit⟩⟩
    · rw [fingerprintWith_keys henv] at hget
      obtain ⟨hobs, hentry⟩ := Cache.of_get_of_le h.notAhead hget
      have hfresh := h.fresh hobs r hr env henv u hentry hvalid
      simp only [hunit]
      refine ⟨?_, rfl, coherent_synced h⟩
      simp [bind, Except.bind, hfresh, verdict_of_isValid hvalid]
    · simp only [hunit]
      refine ⟨?_, rfl, coherent_synced h⟩
      simp [bind, Except.bind, hfresh]
    · have hafter := coherent_afterCompiling h hrs hr henv hfresh
      cases hv : verdict r.source u <;> simp only [hunit, hv]
      all_goals
        refine ⟨?_, rfl, hafter⟩
        simp [bind, Except.bind, hfresh, hv]

theorem evaluate_uncached (maxDepth : Nat) (r : Request) (s : EvalState) :
    (({ maxDepth, caches := false } : Evaluator).evaluate r s).1 =
        freshAnswer maxDepth s.sandbox r ∧
      (({ maxDepth, caches := false } : Evaluator).evaluate r s).2.sandbox.types =
        s.sandbox.types := by
  unfold evaluate freshAnswer
  cases bindSymbols r with
  | error err => exact ⟨rfl, rfl⟩
  | ok env =>
    simp only [compiledUnit, unitIncludingAll, lookUp, Bool.false_eq_true, ↓reduceIte, freshUnit]
    cases s.sandbox.enterIncludeAll.resolve maxDepth r.enclosing r.immediate r.offset with
    | error err => exact ⟨rfl, rfl⟩
    | ok place =>
      have hfresh : ({ maxDepth, caches := false } : Evaluator).compileFresh r env.keys
          (r.fingerprintWith env.keys) place { s with sandbox := s.sandbox.enterIncludeAll } =
        (verdict r.source (unitIn r env.keys place),
          { s with sandbox :=
            { s.sandbox.enterIncludeAll with compiles := s.sandbox.compiles + 1 } }) := rfl
      simp only [hfresh]
      cases hv : verdict r.source (unitIn r env.keys place) with
      | error err => exact ⟨by simp [bind, Except.bind, Except.map, hv], rfl⟩
      | ok u => exact ⟨by simp [bind, Except.bind, Except.map, hv], rfl⟩

theorem freshAnswer_types {s t : Sandbox} (h : s.types = t.types) (maxDepth : Nat) (r : Request) :
    freshAnswer maxDepth s r = freshAnswer maxDepth t r := by
  simp only [freshAnswer, freshUnit_types h]

theorem perform_agrees {t : EvalState} (h : Coherent maxDepth rs s) (hrs : Collisionless rs)
    (htypes : s.sandbox.types = t.sandbox.types) (op : Operation)
    (hop : ∀ r, op.request? = some r → r ∈ rs) :
    (({ maxDepth } : Evaluator).perform s op).1 =
        (({ maxDepth, caches := false } : Evaluator).perform t op).1 ∧
      Coherent maxDepth rs (({ maxDepth } : Evaluator).perform s op).2 ∧
      (({ maxDepth } : Evaluator).perform s op).2.sandbox.types =
        (({ maxDepth, caches := false } : Evaluator).perform t op).2.sandbox.types := by
  cases op with
  | evaluate r =>
    obtain ⟨hanswer, hsame, hcoherent⟩ := evaluate_coherent h hrs (hop r rfl)
    obtain ⟨hplain, hkept⟩ := evaluate_uncached maxDepth r t
    refine ⟨?_, hcoherent, ?_⟩
    · exact congrArg some (hanswer.trans ((freshAnswer_types htypes maxDepth r).trans hplain.symm))
    · exact hsame.trans (htypes.trans hkept.symm)
  | define d =>
    refine ⟨rfl, coherent_newGeneration h (Nat.lt_succ_self _), ?_⟩
    simp [perform, EvalState.define, Sandbox.define, htypes]
  | refresh => exact ⟨rfl, coherent_newGeneration h (Nat.lt_succ_self _), htypes⟩
  | invalidate context => exact ⟨rfl, coherent_invalidate h context, htypes⟩
  | clearCache => exact ⟨rfl, coherent_clearCache h, htypes⟩

theorem coherent_after (maxDepth : Nat) (sandbox : Sandbox) (hrs : Collisionless rs)
    (H : List Operation) (hH : ∀ op ∈ H, ∀ r, op.request? = some r → r ∈ rs) :
    Coherent maxDepth rs (({ maxDepth } : Evaluator).after ⟨sandbox, .empty⟩ H) := by
  induction H using List.reverseRecOn with
  | nil => exact coherent_initial sandbox
  | append_singleton H op ih =>
    rw [after_concat]
    have hcoherent := ih fun op' hop' => hH op' (List.mem_append_left _ hop')
    exact (perform_agrees hcoherent hrs rfl op (hH op (by simp))).2.1

theorem evaluate_after (maxDepth : Nat) (caches : Bool) (sandbox : Sandbox) (H : List Operation)
    (r : Request) (hrs : caches = true → Collisionless (r :: H.filterMap Operation.request?)) :
    let e : Evaluator := { maxDepth, caches }
    (e.evaluate r (e.after ⟨sandbox, .empty⟩ H)).1 =
      freshAnswer maxDepth (e.after ⟨sandbox, .empty⟩ H).sandbox r := by
  cases caches with
  | false => exact (evaluate_uncached maxDepth r _).1
  | true =>
    have hH : ∀ op ∈ H, ∀ q, op.request? = some q → q ∈ r :: H.filterMap Operation.request? :=
      fun op hop q hq => List.mem_cons_of_mem r (List.mem_filterMap.mpr ⟨op, hop, hq⟩)
    have hcoherent := coherent_after maxDepth sandbox (hrs rfl) H hH
    exact (evaluate_coherent hcoherent (hrs rfl) List.mem_cons_self).1

theorem answers_agree {t : EvalState} (h : Coherent maxDepth rs s) (hrs : Collisionless rs)
    (htypes : s.sandbox.types = t.sandbox.types) (ops : List Operation)
    (hops : ∀ op ∈ ops, ∀ r, op.request? = some r → r ∈ rs) :
    ({ maxDepth } : Evaluator).answers s ops =
      ({ maxDepth, caches := false } : Evaluator).answers t ops := by
  induction ops generalizing s t with
  | nil => rfl
  | cons op ops ih =>
    obtain ⟨hanswer, hcoherent, hnext⟩ :=
      perform_agrees h hrs htypes op (hops op List.mem_cons_self)
    have hrest := ih hcoherent hnext fun op' hop' => hops op' (List.mem_cons_of_mem op hop')
    rw [answers, answers, hanswer, hrest]

theorem answers_caching (maxDepth : Nat) (sandbox : Sandbox) (ops : List Operation)
    (h : Collisionless (ops.filterMap Operation.request?)) :
    ({ maxDepth, caches := true } : Evaluator).answers ⟨sandbox, .empty⟩ ops =
      ({ maxDepth, caches := false } : Evaluator).answers ⟨sandbox, .empty⟩ ops :=
  answers_agree (coherent_initial sandbox) h rfl ops fun op hop _ hr =>
    List.mem_filterMap.mpr ⟨op, hop, hr⟩

def requestAt (source : String) (x : Int64) : Request where
  source := source
  symbols := [.text "x", .int x]

def session : List Operation :=
  [.evaluate (requestAt "x + 1" 1), .evaluate (requestAt "x + 1" 2),
    .define { name := "app.Counter" }, .evaluate (requestAt "x * 2" 2),
    .invalidate "app.Counter", .evaluate (requestAt "x * 2" 3), .refresh, .clearCache,
    .evaluate (requestAt "x + 1" 3)]

theorem requestAt_alike (source : String) (x y : Int64) :
    (requestAt source x).Alike (requestAt source y) :=
  ⟨rfl, rfl, rfl, rfl, fun _ => Iff.rfl⟩

theorem requestAt_fingerprint (source : String) (x : Int64) :
    (requestAt source x).fingerprint = (requestAt source 0).fingerprint := rfl

theorem fingerprint_sum_ne_product :
    (requestAt "x + 1" 0).fingerprint ≠ (requestAt "x * 2" 0).fingerprint := by
  decide +kernel

theorem collisionless_requestAt {rs : List Request}
    (h : ∀ r ∈ rs, ∃ x, r = requestAt "x + 1" x ∨ r = requestAt "x * 2" x) : Collisionless rs := by
  intro r hr q hq hf
  obtain ⟨x, rfl | rfl⟩ := h r hr
  · obtain ⟨y, rfl | rfl⟩ := h q hq
    · exact requestAt_alike _ x y
    · rw [requestAt_fingerprint, requestAt_fingerprint _ y] at hf
      exact absurd hf fingerprint_sum_ne_product
  · obtain ⟨y, rfl | rfl⟩ := h q hq
    · rw [requestAt_fingerprint, requestAt_fingerprint _ y] at hf
      exact absurd hf.symm fingerprint_sum_ne_product
    · exact requestAt_alike _ x y

theorem collisionless_session : Collisionless (session.filterMap Operation.request?) := by
  apply collisionless_requestAt
  intro r hr
  simp only [session, List.filterMap, Operation.request?, List.mem_cons, List.not_mem_nil,
    or_false] at hr
  rcases hr with rfl | rfl | rfl | rfl | rfl
  · exact ⟨1, .inl rfl⟩
  · exact ⟨2, .inl rfl⟩
  · exact ⟨2, .inr rfl⟩
  · exact ⟨3, .inr rfl⟩
  · exact ⟨3, .inl rfl⟩

theorem answers_caching_session :
    Collisionless (session.filterMap Operation.request?) ∧
      ({ caches := true } : Evaluator).answers {} session =
        ({ caches := false } : Evaluator).answers {} session :=
  ⟨collisionless_session, answers_caching 64 {} session collisionless_session⟩

end SnippetEval.Evaluator
