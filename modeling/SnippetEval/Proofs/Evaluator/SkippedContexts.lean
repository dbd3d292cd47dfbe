import SnippetEval.Proofs.Evaluator.CompileCount
import SnippetEval.Proofs.Evaluator.NamePlaces
import SnippetEval.Proofs.Evaluator.UnreadSymbols

namespace SnippetEval

namespace Sandbox

def Named (s : Sandbox) : Prop := ∀ name t, s.types.get? name = some t → t.name = name

variable {s : Sandbox} {t u : TypeDef} {n : Nat}

theorem Named.define (h : s.Named) (t : TypeDef) : (s.define t).Named := by
  intro name d hd
  rw [Sandbox.define, Table.get?_insert] at hd
  split at hd
  · next hname =>
    cases hd
    exact hname.symm
  · exact h name d hd

theorem Named.get?_of_skips (h : s.Named) (ht : s.types.get? t.name = some t)
    (hskips : s.Skips t n u) : s.types.get? u.name = some u := by
  induction n generalizing t with
  | zero =>
    obtain rfl := skips_zero.mp hskips
    exact ht
  | succ n ih =>
    obtain ⟨-, v, hv, hrest⟩ := skips_succ.mp hskips
    obtain ⟨name, -, hname⟩ := Option.bind_eq_some_iff.mp hv
    exact ih (by rw [h name v hname, hname]) hrest

theorem Named.get?_of_start (h : s.Named) {enclosing immediate : Option String}
    (hstart : s.startOf enclosing immediate = some t) : s.types.get? t.name = some t := by
  obtain ⟨outer, -, houter⟩ := Option.bind_eq_some_iff.mp hstart
  obtain ⟨top, htop, hstart⟩ := Option.bind_eq_some_iff.mp houter
  cases immediate with
  | none =>
    cases hstart
    rw [h outer t htop, htop]
  | some name =>
    rw [Option.elim_some] at hstart
    rw [h name t hstart, hstart]

theorem startOf_skipped {enclosing immediate : Option String}
    (hstart : s.startOf enclosing immediate = some t) (hu : s.types.get? u.name = some u) :
    s.startOf enclosing (some u.name) = some u := by
  obtain ⟨outer, rfl, houter⟩ := Option.bind_eq_some_iff.mp hstart
  obtain ⟨top, htop, -⟩ := Option.bind_eq_some_iff.mp houter
  simp [startOf, htop, hu]

theorem nearestWithSource_of_skips {maxDepth : Nat} {root : SourceNode} (h : s.Skips t n u)
    (hroot : u.source = some root) (hn : n ≤ maxDepth) :
    s.nearestWithSource maxDepth t = .ok (u, root, n) := by
  obtain ⟨k, rfl⟩ := Nat.exists_eq_add_of_le' hn
  rw [nearestWithSource, nearestFrom_skip h]
  cases k <;> simp [nearestFrom, hroot]

end Sandbox

namespace Request

def direct (r : Request) (context : TypeDef) (receiver : Option Instance) : Request :=
  { r with immediate := some context.name, receiver }

def on (r : Request) (receiver : Option Instance) : Request := { r with receiver }

theorem Alike.on_left {r q : Request} (h : r.Alike q) (receiver : Option Instance) :
    (r.on receiver).Alike q := ⟨h.source, h.enclosing, h.immediate, h.offset, h.names⟩

theorem Alike.on_right {r q : Request} (h : r.Alike q) (receiver : Option Instance) :
    r.Alike (q.on receiver) := ⟨h.source, h.enclosing, h.immediate, h.offset, h.names⟩

end Request

namespace Evaluator

theorem Collisionless.of_subset {rs qs : List Request} (h : Collisionless rs) (hsub : qs ⊆ rs) :
    Collisionless qs := fun r hr q hq => h r (hsub hr) q (hsub hq)

theorem Collisionless.on {rs : List Request} {r : Request} (h : Collisionless (r :: rs))
    (receiver : Option Instance) : Collisionless (r.on receiver :: rs) := by
  intro p hp q hq hf
  rcases List.mem_cons.mp hp with rfl | hp
  · rcases List.mem_cons.mp hq with rfl | hq
    · exact .refl _
    · exact (h r List.mem_cons_self q (List.mem_cons_of_mem r hq) hf).on_left receiver
  · rcases List.mem_cons.mp hq with rfl | hq
    · exact (h p (List.mem_cons_of_mem r hp) r List.mem_cons_self hf).on_right receiver
    · exact h p (List.mem_cons_of_mem r hp) q (List.mem_cons_of_mem r hq) hf

variable {maxDepth n : Nat} {s : Sandbox} {r : Request} {env : RuntimeEnv} {t u : TypeDef}
  {root : SourceNode}

theorem evaluate_types (maxDepth : Nat) (caches : Bool) (r : Request) (s : EvalState) :
    (({ maxDepth, caches } : Evaluator).evaluate r s).2.sandbox.types = s.sandbox.types := by
  cases caches with
  | false => exact (evaluate_uncached maxDepth r s).2
  | true =>
    rcases evaluate_cases maxDepth r s with ⟨err, -, hs⟩ | ⟨env, -, hcases⟩
    · rw [hs]
    · rcases hcases with ⟨-, hs⟩ | ⟨-, ⟨-, hs⟩ | ⟨v, -, hs⟩⟩
      all_goals
        rw [hs]
        rfl

theorem named_after {sandbox : Sandbox} (h : sandbox.Named) (maxDepth : Nat) (caches : Bool)
    (H : List Operation) :
    (({ maxDepth, caches } : Evaluator).after ⟨sandbox, .empty⟩ H).sandbox.Named := by
  induction H using List.reverseRecOn with
  | nil => exact h
  | append_singleton H op ih =>
    rw [after_concat]
    cases op with
    | evaluate r =>
      rw [Sandbox.Named, perform, evaluate_types]
      exact ih
    | define t => exact ih.define t
    | refresh => exact ih
    | invalidate context => exact ih
    | clearCache => exact ih

theorem resolve_of_skips (hstart : s.startOf r.enclosing r.immediate = some t)
    (hskips : s.Skips t n u) (hroot : u.source = some root) (hn : n ≤ maxDepth) :
    s.enterIncludeAll.resolve maxDepth r.enclosing r.immediate r.offset =
      Sandbox.placeIn u root r.offset n := by
  have hincluded : s.enterIncludeAll.includeAll ≠ 0 := Nat.succ_ne_zero _
  have hstart' : s.enterIncludeAll.startOf r.enclosing r.immediate = some t := hstart
  have hskips' := Sandbox.skips_enterIncludeAll.mpr hskips
  rw [Sandbox.resolve_of_start hincluded hstart',
    Sandbox.placeFrom_of_nearest (Sandbox.nearestWithSource_of_skips hskips' hroot hn)]

theorem freshAnswer_within {q : Request} {context : TypeDef} {anchor : Anchor}
    {symbols : SymbolTable} {offset m : Nat} {s' : Sandbox} {receiver : Option Instance}
    (hsource : r.source = q.source) (hsymbols : r.symbols = q.symbols)
    (henv : bindSymbols r = .ok env)
    (hr : s.enterIncludeAll.resolve maxDepth r.enclosing r.immediate r.offset =
      .ok (.within context anchor symbols offset n))
    (hq : s'.enterIncludeAll.resolve maxDepth q.enclosing q.immediate q.offset =
      .ok (.within context anchor symbols offset m))
    (hwalk : walkOuter r.receiver n context.name = .ok receiver)
    (hwalk' : walkOuter q.receiver m context.name = .ok receiver) :
    freshAnswer maxDepth s r = freshAnswer maxDepth s' q := by
  have henv' : bindSymbols q = .ok env := by
    rw [← henv, bindSymbols, bindSymbols, hsymbols]
  let place (k : Nat) : Resolution := .within context anchor symbols offset k
  have hagree (snippet : Snippet) : (requestIn r env.keys (place n)).scope.AgreesOn
      (requestIn q env.keys (place m)).scope snippet.names := ⟨fun _ _ => rfl, rfl, rfl⟩
  have htext : (requestIn r env.keys (place n)).source =
      (requestIn q env.keys (place m)).source := hsource
  rcases CompileRequest.compile_agrees htext fun snippet _ => hagree snippet with
    ⟨hu, hu', herrors⟩ | ⟨snippet, -, hu, hu', hvalid, hvalid'⟩
  · rw [freshAnswer_of_place henv hr, freshAnswer_of_place henv' hq, hsource]
    obtain ⟨err, hp, hq⟩ := verdict_of_not_isValid (u := unitIn r env.keys (place n))
      (v := unitIn q env.keys (place m)) hu hu' herrors q.source
    rw [hp, hq]
    rfl
  · rw [freshAnswer_accepted henv hr (by rw [unit_unitIn, hu, hvalid]) hu hwalk,
      freshAnswer_accepted henv' hq (by rw [unit_unitIn, hu', hvalid']) hu' hwalk']
    exact CompileRequest.invoke_accepted_agrees (hagree snippet) (fun _ => rfl) fun _ _ => rfl

theorem freshAnswer_skipping (hstart : s.startOf r.enclosing r.immediate = some t)
    (hskips : s.Skips t n u) (hroot : u.source = some root) (hn : n ≤ maxDepth)
    (hu : s.types.get? u.name = some u) {receiver : Option Instance}
    (hwalk : walkOuter r.receiver n u.name = .ok receiver) :
    freshAnswer maxDepth s r = freshAnswer maxDepth s (r.direct u receiver) := by
  cases henv : bindSymbols r with
  | error err =>
    have henv' : bindSymbols (r.direct u receiver) = .error err := henv
    simp only [freshAnswer, henv, henv', bind, Except.bind]
  | ok env =>
    have henv' : bindSymbols (r.direct u receiver) = .ok env := henv
    have hr := resolve_of_skips hstart hskips hroot hn
    have hq := resolve_of_skips (r := r.direct u receiver) (Sandbox.startOf_skipped hstart hu)
      (Sandbox.skips_zero.mpr rfl) hroot (Nat.zero_le maxDepth)
    change _ = Sandbox.placeIn u root r.offset 0 at hq
    unfold Sandbox.placeIn at hr hq
    cases hanchor : Anchor.locate u.name root r.offset with
    | none =>
      simp only [hanchor] at hr hq
      rw [freshAnswer_of_error henv hr, freshAnswer_of_error henv' hq]
    | some anchor =>
      simp only [hanchor] at hr hq
      have hreached : walkOuter (r.direct u receiver).receiver 0 u.name = .ok receiver := by
        cases receiver <;> rfl
      exact freshAnswer_within rfl rfl henv hr hq hwalk hreached

theorem freshAnswer_of_skips (hstart : s.startOf r.enclosing r.immediate = some t)
    (hskips : s.Skips t n u) (hroot : u.source = some root) (hn : n ≤ maxDepth)
    (henv : bindSymbols r = .ok env) {c : CachedUnit}
    (hc : freshUnit maxDepth s r env.keys = .ok c) (hvalid : c.unit.isValid = true) :
    freshAnswer maxDepth s r = walkOuter r.receiver n u.name >>= fun o => c.unit.invoke o env := by
  obtain ⟨place, hplace, rfl⟩ := freshUnit_eq_ok_iff.mp hc
  rw [freshAnswer_of_place henv hplace, verdict_of_isValid hvalid]
  have hr := (resolve_of_skips hstart hskips hroot hn).symm.trans hplace
  unfold Sandbox.placeIn at hr
  split at hr
  · cases hr
    rfl
  · cases hr

theorem invoke_unitIn {names : List String} {place : Resolution}
    (h : (unitIn r names place).unit.isValid = true) (o : Instance) :
    ∃ snippet fields, parse r.source = ⟨some snippet, []⟩ ∧
      (unitIn r names place).unit.invoke (some o) env =
        (((unitIn r names place).unit.shape.frame fields (some o) env).run snippet).mapError
          .execution := by
  let q := requestIn r names place
  obtain ⟨snippet, hparse, -, hunit⟩ := CompileRequest.compile_of_isValid (q := q) h
  refine ⟨snippet, (snippet.check q.scope).fields, hparse, ?_⟩
  have hlacks : ¬ (q.accepted snippet).shape.Lacks (some o) := fun hlacks => by cases hlacks.2
  rw [unit_unitIn, hunit]
  exact CompileRequest.invoke_accepted hlacks

/-- A request whose context has no source is answered as in the first context around it that has one,
on the instance as many outer references away. -/
theorem evaluate_skipping (maxDepth : Nat) (caches : Bool) (sandbox : Sandbox) (H : List Operation)
    (r : Request) (t u : TypeDef) (h : Nat) (hnamed : sandbox.Named)
    (hrs : caches = true →
      Collisionless (r :: r.direct u none :: H.filterMap Operation.request?))
    (hstart : (({ maxDepth, caches } : Evaluator).after ⟨sandbox, .empty⟩ H).sandbox.startOf
      r.enclosing r.immediate = some t)
    (hskips : (({ maxDepth, caches } : Evaluator).after ⟨sandbox, .empty⟩ H).sandbox.Skips t h u)
    (hsource : u.source ≠ none) (hdepth : h ≤ maxDepth) :
    let e : Evaluator := { maxDepth, caches }
    let s := e.after ⟨sandbox, .empty⟩ H
    let answer (q : Request) := (e.evaluate q s).1
    (∀ o p, o.outward h = some p → answer (r.on (some o)) = answer (r.direct u (some p))) ∧
    answer (r.on none) = answer (r.direct u none) ∧
    ∀ env c, bindSymbols r = .ok env → freshUnit maxDepth s.sandbox r env.keys = .ok c →
      c.unit.isValid = true →
      (∀ o p, o.outward h = some p → ∃ snippet fields, parse r.source = ⟨some snippet, []⟩ ∧
        answer (r.on (some o)) =
          ((c.unit.shape.frame fields (some p) env).run snippet).mapError .execution) ∧
      ∀ o k last, o.outward k = some last → last.outer = none → k < h →
        answer (r.on (some o)) = .error (.noAnchor u.name (.missingOuterInstance (k + 1))) := by
  intro e s answer
  obtain ⟨root, hroot⟩ := Option.ne_none_iff_exists'.mp hsource
  have hu : s.sandbox.types.get? u.name = some u := by
    have hafter : s.sandbox.Named := named_after hnamed maxDepth caches H
    exact hafter.get?_of_skips (hafter.get?_of_start hstart) hskips
  -- Fingerprints do not cover the instance, so what is assumed of `r` holds of it on every `w`.
  have hfresh (w : Option Instance) : answer (r.on w) = freshAnswer maxDepth s.sandbox (r.on w) := by
    apply evaluate_after
    intro hcaches
    have hsub : r :: H.filterMap Operation.request? ⊆
        r :: r.direct u none :: H.filterMap Operation.request? := by simp
    exact ((hrs hcaches).of_subset hsub).on w
  have hfresh' (w : Option Instance) :
      answer (r.direct u w) = freshAnswer maxDepth s.sandbox (r.direct u w) := by
    apply evaluate_after
    intro hcaches
    exact ((hrs hcaches).of_subset (List.subset_cons_self r _)).on w
  refine ⟨?_, ?_, ?_⟩
  · intro o p hp
    rw [hfresh, hfresh']
    apply freshAnswer_skipping (r := r.on (some o)) hstart hskips hroot hdepth hu
    simp only [Request.on, walkOuter, Instance.walkFrom_of_outward hp]
    rfl
  · rw [hfresh, hfresh']
    exact freshAnswer_skipping (r := r.on none) hstart hskips hroot hdepth hu rfl
  · intro env c henv hc hvalid
    have hanswer (w : Option Instance) : answer (r.on w) =
        walkOuter w h u.name >>= fun o => c.unit.invoke o env :=
      (hfresh w).trans (freshAnswer_of_skips (r := r.on w) hstart hskips hroot hdepth henv hc hvalid)
    refine ⟨?_, ?_⟩
    · intro o p hp
      obtain ⟨place, -, rfl⟩ := freshUnit_eq_ok_iff.mp hc
      obtain ⟨snippet, fields, hparse, hinvoke⟩ := invoke_unitIn hvalid p
      refine ⟨snippet, fields, hparse, ?_⟩
      rw [hanswer, ← hinvoke]
      simp only [walkOuter, Instance.walkFrom_of_outward hp]
      rfl
    · intro o k last hlast hend hk
      rw [hanswer]
      simp only [walkOuter, Instance.walkFrom_of_last hlast hend hk, Nat.add_comm 1 k]
      rfl

def block : TypeDef where
  name := "app.Counter.block_0"
  enclosing := some "app.Counter"

def countRequest : Request where
  source := "count"
  enclosing := some "app.Counter"
  immediate := some "app.Counter.block_0"
  offset := 30

def counterObject (count : Int64) : Instance :=
  .mk ⟨0, "counter"⟩ "app.Counter" [("count", .int count)] none

def blockObject (count : Int64) : Instance :=
  .mk ⟨0, "block"⟩ "app.Counter.block_0" [] (some (counterObject count))

def blockSession : List Operation :=
  [.define counter, .define block, .evaluate (countRequest.on (some (blockObject 1)))]

def blockPlace : Resolution :=
  .within counter ⟨"app.Counter", [], .type "app.Counter", ⟨0, 40⟩⟩ (counter.symbolsAt 30) 30 1

theorem collisionless_blockSession : Collisionless
    (countRequest :: countRequest.direct counter none ::
      blockSession.filterMap Operation.request?) := by
  have hne : countRequest.fingerprint ≠ (countRequest.direct counter none).fingerprint := by
    decide +kernel
  have hpair : Collisionless (countRequest :: [countRequest.direct counter none]) := by
    intro r hr q hq hf
    simp only [List.mem_cons, List.not_mem_nil, or_false] at hr hq
    rcases hr with rfl | rfl <;> rcases hq with rfl | rfl
    · exact .refl _
    · exact absurd hf hne
    · exact absurd hf.symm hne
    · exact .refl _
  have hagain : countRequest :: countRequest :: [countRequest.direct counter none] ⊆
      countRequest :: [countRequest.direct counter none] := by simp
  have hrequests : blockSession.filterMap Operation.request? =
      [countRequest.on (some (blockObject 1))] := rfl
  rw [hrequests]
  apply ((hpair.of_subset hagain).on (some (blockObject 1))).of_subset
  simp

theorem types_blockSession : (({} : Evaluator).after {} blockSession).sandbox.types =
    ((({} : Sandbox).define counter).define block).types :=
  evaluate_types 64 true _ _

theorem evaluate_skipping_block :
    let e : Evaluator := {}
    let s := e.after {} blockSession
    s.sandbox.startOf countRequest.enclosing countRequest.immediate = some block ∧
      s.sandbox.Skips block 1 counter ∧
      (e.evaluate (countRequest.on (some (blockObject 2))) s).1 =
        (e.evaluate (countRequest.direct counter (some (counterObject 2))) s).1 ∧
      (e.evaluate (countRequest.on (some (counterObject 2))) s).1 =
        .error (.noAnchor "app.Counter" (.missingOuterInstance 1)) := by
  intro e s
  have hstart : s.sandbox.startOf countRequest.enclosing countRequest.immediate = some block := by
    simp only [Sandbox.startOf, s, e, types_blockSession]
    rfl
  have hskips : s.sandbox.Skips block 1 counter := by
    rw [Sandbox.skips_congr types_blockSession]
    exact Sandbox.skips_succ.mpr ⟨rfl, counter, rfl, Sandbox.skips_zero.mpr rfl⟩
  have hnamed : Sandbox.Named {} := fun name t ht => by cases ht
  have hvalid : (unitIn countRequest [] blockPlace).unit.isValid = true := by decide +kernel
  have hunit : freshUnit 64 s.sandbox countRequest [] = .ok (unitIn countRequest [] blockPlace) := by
    rw [freshUnit_types types_blockSession]
    rfl
  have hskipping := evaluate_skipping 64 true {} blockSession countRequest block counter 1 hnamed
    (fun _ => collisionless_blockSession) hstart hskips (by simp [counter]) (by decide)
  exact ⟨hstart, hskips, hskipping.1 _ _ rfl,
    (hskipping.2.2 .empty _ rfl hunit hvalid).2 _ 0 _ rfl rfl Nat.one_pos⟩

end Evaluator

end SnippetEval
