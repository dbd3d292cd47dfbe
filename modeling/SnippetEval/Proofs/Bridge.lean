import SnippetEval.Bridge
import SnippetEval.Proofs.Evaluator.RejectedUnits

namespace SnippetEval

namespace EvalError

def through (modules : List String) (cause : EvalError) : EvalError :=
  modules.foldr forwarded cause

def IsForwarded : EvalError → Prop
  | forwarded .. => True
  | _ => False

def trimmed : EvalError → EvalError
  | compilation issues => .compilation (issues.take 1)
  | e => e

variable {modules : List String} {cause err : EvalError}

theorem exists_through (err : EvalError) :
    ∃ modules cause, ¬ cause.IsForwarded ∧ err = through modules cause := by
  induction err with
  | forwarded module source ih =>
    obtain ⟨modules, cause, hcause, rfl⟩ := ih
    exact ⟨module :: modules, cause, hcause, rfl⟩
  | _ =>
    refine ⟨[], _, ?_, rfl⟩
    exact not_false

theorem root_through (modules : List String) (err : EvalError) :
    (through modules err).root = err.root := by
  induction modules with
  | nil => rfl
  | cons module modules ih => exact ih

theorem surface_through (modules : List String) (err : EvalError) :
    (through modules err).surface = err.surface := by
  rw [surface, surface, root_through]

theorem surface_of_not_isForwarded (h : ¬ cause.IsForwarded) : cause.surface = cause.trimmed := by
  cases cause <;> first | rfl | exact absurd trivial h

theorem not_isForwarded_surface (err : EvalError) : ¬ err.surface.IsForwarded := by
  obtain ⟨modules, cause, hcause, rfl⟩ := exists_through err
  rw [surface_through, surface_of_not_isForwarded hcause]
  cases cause <;> first | exact not_false | exact absurd trivial hcause

theorem surface_eq_compilation {issues : List Diagnostic} (herr : ¬ err.IsForwarded)
    (h : err.surface = .compilation issues) :
    ∃ all, err = .compilation all ∧ issues = all.take 1 := by
  rw [surface_of_not_isForwarded herr] at h
  cases err with
  | compilation all => exact ⟨all, rfl, (compilation.inj h).symm⟩
  | _ => cases h

end EvalError

namespace Entry

variable {ε ρ σ α : Type}

def modules : Entry ε → List String
  | direct _ => []
  | through module entry => module :: entry.modules

theorem run_eq (f : Runner ε ρ σ α) (request : ρ) (s : σ) (entry : Entry ε) :
    entry.run f request s =
      ((f entry.target request s).1.mapError (EvalError.through entry.modules),
        (f entry.target request s).2) := by
  induction entry with
  | direct t =>
    simp only [run, target, modules]
    cases f t request s with
    | mk answer s' => cases answer <;> rfl
  | through module entry ih =>
    simp only [run, ih, target, modules]
    cases f entry.target request s with
    | mk answer s' => cases answer <;> rfl

end Entry

def Runner.recorded {ε ρ σ α : Type} (f : Runner ε ρ σ α) : Runner ε ρ (σ × List ε) α :=
  fun target request s =>
    ((f target request s.1).1, (f target request s.1).2, s.2 ++ [target])

namespace Registry

variable {ε : Type}

inductive Change (ε : Type)
  | register (module : String) (entry : Entry ε)
  | unregister (module : String)

def Change.module : Change ε → String
  | register module _ => module
  | unregister module => module

def change (r : Registry ε) : Change ε → Registry ε
  | .register module entry => r.register module entry
  | .unregister module => r.erase module

def after (H : List (Change ε)) : Registry ε := H.foldl change .empty

/-- The entry was registered for the module, which was not changed since. -/
def Registered (H : List (Change ε)) (module : String) (entry : Entry ε) : Prop :=
  ∃ before later, H = before ++ .register module entry :: later ∧ ∀ c ∈ later, c.module ≠ module

variable {H : List (Change ε)} {module : String} {entry : Entry ε}

theorem registered_concat {c : Change ε} : Registered (H ++ [c]) module entry ↔
    c = .register module entry ∨ c.module ≠ module ∧ Registered H module entry := by
  constructor
  · rintro ⟨before, later, hH, hlater⟩
    rcases List.eq_nil_or_concat later with rfl | ⟨later, last, rfl⟩
    · exact .inl (List.append_singleton_inj.mp hH).2
    · have hH' : H ++ [c] = (before ++ .register module entry :: later) ++ [last] := by simpa using hH
      obtain ⟨rfl, rfl⟩ := List.append_singleton_inj.mp hH'
      exact .inr ⟨hlater c (by simp), before, later, rfl, fun d hd => hlater d (by simp [hd])⟩
  · rintro (rfl | ⟨hc, before, later, rfl, hlater⟩)
    · exact ⟨H, [], rfl, by simp⟩
    · refine ⟨before, later ++ [c], by simp, ?_⟩
      simpa [or_imp, forall_and, hc] using hlater

theorem get?_change (r : Registry ε) (c : Change ε) (m : String) :
    (r.change c).get? m =
      if m = c.module then
        match c with
        | .register module entry => some (.through module entry)
        | .unregister _ => none
      else r.get? m := by
  cases c with
  | register module entry => exact Table.get?_insert _ _ _ _
  | unregister module => exact Table.get?_erase _ _ _

theorem get?_after_iff {found : Entry ε} :
    (after H).get? module = some found ↔
      ∃ entry, Registered H module entry ∧ found = .through module entry := by
  induction H using List.reverseRecOn with
  | nil =>
    constructor
    · rintro ⟨⟩
    · rintro ⟨entry, ⟨before, later, hH, -⟩, -⟩
      simp at hH
  | append_singleton H c ih =>
    have hafter : after (H ++ [c]) = (after H).change c := by
      rw [after, List.foldl_append]
      rfl
    rw [hafter, get?_change]
    simp only [registered_concat]
    by_cases hm : module = c.module
    · subst hm
      cases c with
      | register module entry => simp [Change.module, eq_comm]
      | unregister module => simp [Change.module]
    · have hne : ∀ entry, c ≠ .register module entry := by
        rintro entry rfl
        exact hm rfl
      simp [hm, Ne.symm hm, hne, ih]

end Registry

namespace Bridge

section

variable {ε ρ σ α : Type} {H : Option (List (Registry.Change ε))} {fallback entry : Entry ε}
  {module : String}

def Answers (H : Option (List (Registry.Change ε))) (fallback : Entry ε) (module : String)
    (entry : Entry ε) : Prop :=
  (∃ changes ∈ H, Registry.Registered changes module entry) ∨
    entry = fallback ∧ ∀ changes ∈ H, ∀ other, ¬ Registry.Registered changes module other

def ofChanges (H : Option (List (Registry.Change ε))) (fallback : Entry ε) : Bridge ε where
  fallback := fallback
  registry := H.map Registry.after

theorem exists_answers (H : Option (List (Registry.Change ε))) (fallback : Entry ε)
    (module : String) : ∃ entry, Answers H fallback module entry := by
  by_cases h : ∃ entry, ∃ changes ∈ H, Registry.Registered changes module entry
  · obtain ⟨entry, hentry⟩ := h
    exact ⟨entry, .inl hentry⟩
  · refine ⟨fallback, .inr ⟨rfl, fun changes hchanges other hother => ?_⟩⟩
    exact h ⟨other, changes, hchanges, hother⟩

theorem target_entryFor (h : Answers H fallback module entry) :
    ((ofChanges H fallback).entryFor module).target = entry.target := by
  rcases h with ⟨changes, hchanges, hentry⟩ | ⟨rfl, hnone⟩
  · obtain rfl := Option.mem_def.mp hchanges
    have hget := Registry.get?_after_iff.mpr ⟨entry, hentry, rfl⟩
    simp [entryFor, ofChanges, hget, Entry.target]
  · cases H with
    | none => rfl
    | some changes =>
      have hget : (Registry.after changes).get? module = none := by
        by_contra hsome
        obtain ⟨found, hfound⟩ := Option.ne_none_iff_exists'.mp hsome
        obtain ⟨other, hother, -⟩ := Registry.get?_after_iff.mp hfound
        exact hnone changes rfl other hother
      simp [entryFor, ofChanges, hget]

theorem evaluate_eq (b : Bridge ε) (f : Runner ε ρ σ α) (module : String) (request : ρ) (s : σ) :
    b.evaluate f module request s =
      ((f (b.entryFor module).target request s).1.mapError EvalError.surface,
        (f (b.entryFor module).target request s).2) := by
  rw [evaluate, Entry.run_eq]
  cases f (b.entryFor module).target request s with
  | mk answer s' =>
    cases answer with
    | ok a => rfl
    | error err => exact congrArg (Except.error ·, s') (EvalError.surface_through _ err)

end

variable {ε σ : Type}

theorem surfaced_issue {maxDepth : Nat} {caches : Bool} {r : Request} {t : EvalState}
    {issues : List Diagnostic}
    (h : (({ maxDepth, caches } : Evaluator).evaluate r t).1.mapError EvalError.surface =
      .error (.compilation issues)) :
    ∃ env u d, Evaluator.bindSymbols r = .ok env ∧
      Evaluator.freshUnit maxDepth t.sandbox r env.keys = .ok u ∧
      u.unit.issues.find? Diagnostic.isError = some d ∧ issues = [d] ∧
      d.severity = .error ∧ d.code ≠ none := by
  cases hrun : (({ maxDepth, caches } : Evaluator).evaluate r t).1 with
  | ok a => simp [hrun, Except.mapError] at h
  | error err =>
    simp only [hrun, Except.mapError, Except.error.injEq] at h
    have hcourse := Evaluator.evaluate_course maxDepth caches r t
    have herr : ¬ err.IsForwarded := by
      intro hforwarded
      cases err with
      | forwarded => exact hcourse.stage_ne_forwarding hrun rfl
      | _ => exact hforwarded
    obtain ⟨all, rfl, rfl⟩ := EvalError.surface_eq_compilation herr h
    obtain ⟨env, u, d, henv, hu, rfl, hd, hcode⟩ := hcourse.of_compilation hrun
    refine ⟨env, u, d, henv, hu, hd, ?_, ?_, hcode⟩
    · have hhead : u.unit.errors.head? = some d := by
        rw [CompiledUnit.errors, List.head?_filter]
        exact hd
      obtain ⟨tail, htail⟩ := List.head?_eq_some_iff.mp hhead
      rw [htail]
      rfl
    · simpa [Diagnostic.isError] using List.find?_some hd

theorem evaluate_transparent (f : Runner ε Request σ Value)
    (H : Option (List (Registry.Change ε))) (fallback : Entry ε) (module : String) (r : Request)
    (s : σ) :
    let answer := (ofChanges H fallback).evaluate f module r s
    (∃ entry, Answers H fallback module entry) ∧
    ∀ entry, Answers H fallback module entry →
      (∀ calls, (ofChanges H fallback).evaluate f.recorded module r (s, calls) =
        (answer.1, answer.2, calls ++ [entry.target])) ∧
      answer.2 = (entry.run f r s).2 ∧
      (∀ v, (entry.run f r s).1 = .ok v → answer.1 = .ok v) ∧
      (∀ err, (entry.run f r s).1 = .error err → ∃ modules cause, ¬ cause.IsForwarded ∧
        err = .through modules cause ∧ answer.1 = .error cause.trimmed) ∧
      (∀ err, answer.1 = .error err → ¬ err.IsForwarded) ∧
      answer = ({ fallback := entry } : Bridge ε).evaluate f module r s ∧
      ∀ maxDepth caches t issues,
        (f entry.target r s).1 = (({ maxDepth, caches } : Evaluator).evaluate r t).1 →
        answer.1 = .error (.compilation issues) →
        ∃ env u d, Evaluator.bindSymbols r = .ok env ∧
          Evaluator.freshUnit maxDepth t.sandbox r env.keys = .ok u ∧
          u.unit.issues.find? Diagnostic.isError = some d ∧ issues = [d] ∧
          d.severity = .error ∧ d.code ≠ none := by
  intro answer
  refine ⟨exists_answers H fallback module, fun entry hentry => ?_⟩
  have hanswer : answer = ((f entry.target r s).1.mapError EvalError.surface,
      (f entry.target r s).2) := by
    rw [← target_entryFor hentry]
    exact evaluate_eq _ f module r s
  rw [hanswer, Entry.run_eq]
  refine ⟨?_, rfl, ?_, ?_, ?_, ?_, ?_⟩
  · intro calls
    rw [evaluate_eq, target_entryFor hentry]
    rfl
  · intro v hv
    cases hrun : (f entry.target r s).1 with
    | ok a => simpa only [hrun, Except.mapError] using hv
    | error err => simp [hrun, Except.mapError] at hv
  · intro err herr
    obtain ⟨modules, cause, hcause, rfl⟩ := EvalError.exists_through err
    refine ⟨modules, cause, hcause, rfl, ?_⟩
    cases hrun : (f entry.target r s).1 with
    | ok a => simp [hrun, Except.mapError] at herr
    | error err =>
      have hthrough : EvalError.through entry.modules err = EvalError.through modules cause := by
        simpa only [hrun, Except.mapError, Except.error.injEq] using herr
      have hsurface : err.surface = cause.trimmed := by
        rw [← EvalError.surface_through entry.modules err, hthrough, EvalError.surface_through,
          EvalError.surface_of_not_isForwarded hcause]
      simp only [Except.mapError, hsurface]
  · intro err herr
    cases hrun : (f entry.target r s).1 with
    | ok a => simp [hrun, Except.mapError] at herr
    | error cause =>
      simp only [hrun, Except.mapError, Except.error.injEq] at herr
      exact herr ▸ EvalError.not_isForwarded_surface cause
  · exact (evaluate_eq { fallback := entry } f module r s).symm
  · intro maxDepth caches t issues hrun hissues
    exact surfaced_issue (hrun ▸ hissues)

def strayNames : Request := { source := "let x = 1; let x = 2; y + z" }

def strayName (name : String) (start : Nat) : Diagnostic where
  code := some Code.unknownName
  severity := .error
  span := ⟨start, start + 1⟩
  message := "unknown name `" ++ name ++ "`"
  hint := some ("pass `" ++ name ++ "` as an external symbol")

theorem evaluate_transparent_strayNames :
    let forwarding : Entry Evaluator := .through "inner" (.direct {})
    let H : List (Registry.Change Evaluator) :=
      [.register "debuggee" (.direct {}), .register "debuggee" forwarding, .unregister "other"]
    let answer :=
      (ofChanges (some H) (.direct {})).evaluate Evaluator.evaluate "debuggee" strayNames {}
    (forwarding.run Evaluator.evaluate strayNames {}).1 =
        .error (.forwarded "inner" (.compilation [strayName "y" 22, strayName "z" 26])) ∧
      answer.1 = .error (.compilation [strayName "y" 22]) ∧
      ∃ u, Evaluator.freshUnit 64 {} strayNames [] = .ok u ∧
        u.unit.issues.find? Diagnostic.isError = some (strayName "y" 22) := by
  intro forwarding H answer
  have hfails : (match (Evaluator.evaluate {} strayNames {}).1 with
      | .error err => some err
      | .ok _ => none) = some (.compilation [strayName "y" 22, strayName "z" 26]) := by
    decide +kernel
  have hevaluated : (Evaluator.evaluate {} strayNames {}).1 =
      .error (.compilation [strayName "y" 22, strayName "z" 26]) := by
    split at hfails
    · next err herr => rw [herr, Option.some.inj hfails]
    · cases hfails
  have hrun : (forwarding.run Evaluator.evaluate strayNames {}).1 =
      .error (.through ["inner"] (.compilation [strayName "y" 22, strayName "z" 26])) := by
    rw [Entry.run_eq]
    simp only [forwarding, Entry.target, Entry.modules, hevaluated]
    rfl
  have hregistered : Registry.Registered H "debuggee" forwarding := by
    refine ⟨[.register "debuggee" (.direct {})], [.unregister "other"], rfl, ?_⟩
    simp [Registry.Change.module]
  obtain ⟨-, htransparent⟩ := evaluate_transparent Evaluator.evaluate (some H) (.direct {})
    "debuggee" strayNames {}
  obtain ⟨-, -, -, herror, -, -, hissue⟩ := htransparent forwarding (.inl ⟨H, rfl, hregistered⟩)
  obtain ⟨modules, cause, hcause, hthrough, htrimmed⟩ := herror _ hrun
  have hsurface : cause.trimmed = .compilation [strayName "y" 22] := by
    rw [← EvalError.surface_of_not_isForwarded hcause, ← EvalError.surface_through modules,
      ← hthrough]
    rfl
  have hanswer : answer.1 = .error (.compilation [strayName "y" 22]) :=
    htrimmed.trans (congrArg Except.error hsurface)
  obtain ⟨env, u, d, henv, hu, hd, hissues, -⟩ := hissue 64 true {} _ rfl hanswer
  obtain rfl : {} = env := Except.ok.inj henv
  obtain rfl : strayName "y" 22 = d := (List.cons.inj hissues).1
  exact ⟨hrun, hanswer, u, hu, hd⟩

end Bridge

end SnippetEval
