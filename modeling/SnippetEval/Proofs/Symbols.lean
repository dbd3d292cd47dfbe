import Mathlib.Tactic.Common
import SnippetEval.Evaluator
import SnippetEval.Proofs.Table

namespace SnippetEval

namespace SymbolTable

def supplied (info : Option SymbolInfo) : SymbolInfo := ⟨info.elim .any (·.type), .external⟩

theorem get?_declareExternal (t : SymbolTable) (name n : String) :
    (t.declareExternal name).get? n = if n = name then some (supplied (t.get? n)) else t.get? n := by
  by_cases h : n = name
  · subst h
    cases ht : t.get? n <;> simp [declareExternal, supplied, Table.get?_insert, ht]
  · cases ht : t.get? name <;> simp [declareExternal, Table.get?_insert, ht, h]

theorem supplied_supplied (info : Option SymbolInfo) :
    supplied (some (supplied info)) = supplied info := rfl

theorem get?_declareExternals (t : SymbolTable) (names : List String) (n : String) :
    (t.declareExternals names).get? n =
      if n ∈ names then some (supplied (t.get? n)) else t.get? n := by
  induction names generalizing t with
  | nil => simp [declareExternals]
  | cons m ms ih =>
    have hstep : t.declareExternals (m :: ms) = (t.declareExternal m).declareExternals ms := rfl
    rw [hstep, ih, get?_declareExternal]
    by_cases hm : n = m
    · subst hm; simp [supplied_supplied]
    · simp [hm]

theorem declareExternals_same (t : SymbolTable) {a b : List String} (h : ∀ n, n ∈ a ↔ n ∈ b) :
    (t.declareExternals a).Same (t.declareExternals b) := by
  intro n
  rw [get?_declareExternals, get?_declareExternals]
  simp only [h n]

end SymbolTable

namespace RuntimeEnv

theorem value?_eq_none_iff {env : RuntimeEnv} {n : String} :
    env.value? n = none ↔ n ∉ env.keys := by
  rw [Table.mem_keys_iff, Table.contains, value?, Option.map_eq_none_iff]
  simp

theorem contains_bindPairs {env' : RuntimeEnv} (n : String) (vs : List Value) (i : Nat)
    (env : RuntimeEnv) (h : bindPairs i env vs = .ok env') (heven : vs.length % 2 = 0) :
    env'.contains n = true ↔ env.contains n = true ∨ n ∈ Request.namesOf vs := by
  match vs with
  | [] =>
    cases h
    simp [Request.namesOf]
  | [_] => simp at heven
  | name :: value :: rest =>
    cases name with
    | text s =>
      have hrest : rest.length % 2 = 0 := by simp only [List.length_cons] at heven; omega
      rw [contains_bindPairs n rest (i + 2) (env.bind s value) h hrest, bind,
        Table.contains_insert]
      simp only [Request.namesOf, Value.text?, Option.toList_some, List.cons_append,
        List.nil_append, List.mem_cons, Bool.or_eq_true, decide_eq_true_eq]
      tauto
    | _ => cases h

theorem mem_keys_ofPairs {vs : List Value} {env : RuntimeEnv} (h : ofPairs vs = .ok env)
    (n : String) : n ∈ env.keys ↔ n ∈ Request.namesOf vs := by
  unfold ofPairs at h
  split at h
  · simp at h
  · next heven =>
    rw [Table.mem_keys_iff, contains_bindPairs n vs 0 _ h (by omega)]
    simp [Table.contains]

theorem value?_bind (env : RuntimeEnv) (m : String) (v : Value) (n : String) :
    (env.bind m v).value? n = if n = m then some v else env.value? n := by
  simp only [value?, bind, Table.get?_insert]
  split <;> rfl

/-- The value that a name has after all pairs of a list of names and values in turn: the last one
counts. -/
def lastValue (n : String) : List Value → Option Value
  | name :: value :: rest =>
    (lastValue n rest).or (if name.text? = some n then some value else none)
  | _ => none

theorem value?_bindPairs {env' : RuntimeEnv} (n : String) (vs : List Value) (i : Nat)
    (env : RuntimeEnv) (h : bindPairs i env vs = .ok env') :
    env'.value? n = (lastValue n vs).or (env.value? n) := by
  match vs with
  | [] =>
    cases h
    rfl
  | [_] =>
    cases h
    rfl
  | name :: value :: rest =>
    cases name with
    | text s =>
      rw [value?_bindPairs n rest (i + 2) (env.bind s value) h, value?_bind]
      simp only [lastValue, Value.text?, Option.some.injEq, eq_comm (a := s)]
      split <;> simp
    | _ => cases h

theorem value?_ofPairs {vs : List Value} {env : RuntimeEnv} (h : ofPairs vs = .ok env)
    (n : String) : env.value? n = lastValue n vs := by
  unfold ofPairs at h
  split at h
  · cases h
  · rw [value?_bindPairs n vs 0 _ h]
    simp [value?]

def flat (l : List (String × Value)) : List Value := l.flatMap fun p => [.text p.1, p.2]

theorem lastValue_flat_cons (n : String) (p : String × Value) (l : List (String × Value)) :
    lastValue n (flat (p :: l)) =
      (lastValue n (flat l)).or (if p.1 = n then some p.2 else none) := by
  simp [flat, lastValue, Value.text?]

theorem lastValue_flat_append (n : String) (l m : List (String × Value)) :
    lastValue n (flat (l ++ m)) = (lastValue n (flat m)).or (lastValue n (flat l)) := by
  induction l with
  | nil => simp [flat, lastValue]
  | cons p l ih =>
    rw [List.cons_append, lastValue_flat_cons, lastValue_flat_cons, ih, Option.or_assoc]

theorem ofPairs_flat (l : List (String × Value)) : ∃ env, ofPairs (flat l) = .ok env := by
  have hbind (i : Nat) (env : RuntimeEnv) : ∃ env', bindPairs i env (flat l) = .ok env' := by
    induction l generalizing i env with
    | nil => exact ⟨env, rfl⟩
    | cons p l ih => exact ih (i + 2) (env.bind p.1 p.2)
  have heven : (flat l).length % 2 = 0 := by
    simp [flat, List.length_flatMap]
  simpa [ofPairs, heven] using hbind 0 .empty

theorem lastValue_flat_eq_none_iff {n : String} {l : List (String × Value)} :
    lastValue n (flat l) = none ↔ n ∉ l.map Prod.fst := by
  induction l with
  | nil => simp [flat, lastValue]
  | cons p l ih =>
    rw [lastValue_flat_cons, Option.or_eq_none_iff, ih]
    by_cases hp : p.1 = n
    · simp [hp]
    · simp [hp, Ne.symm hp]

theorem lastValue_flat_swap (n : String) (l m : List (String × Value)) {p q : String × Value}
    (h : p.1 ≠ q.1) :
    lastValue n (flat (l ++ p :: q :: m)) = lastValue n (flat (l ++ q :: p :: m)) := by
  simp only [lastValue_flat_append, lastValue_flat_cons, Option.or_assoc]
  by_cases hp : p.1 = n
  · have hq : q.1 ≠ n := fun hq => h (hp.trans hq.symm)
    simp [hp, hq]
  · simp [hp]

theorem lastValue_flat_drop {n : String} (l : List (String × Value)) {m : List (String × Value)}
    {p : String × Value} (h : p.1 = n → n ∈ m.map Prod.fst) :
    lastValue n (flat (l ++ p :: m)) = lastValue n (flat (l ++ m)) := by
  rw [lastValue_flat_append, lastValue_flat_append, lastValue_flat_cons]
  by_cases hp : p.1 = n
  · have hsome := mt lastValue_flat_eq_none_iff.mp (not_not_intro (h hp))
    obtain ⟨v, hv⟩ := Option.ne_none_iff_exists'.mp hsome
    simp [hv]
  · simp [hp]

end RuntimeEnv

namespace Evaluator

variable {r : Request} {env : RuntimeEnv}

theorem bindSymbols_eq_ok_iff :
    bindSymbols r = .ok env ↔ RuntimeEnv.ofPairs r.symbols = .ok env := by
  unfold bindSymbols
  cases RuntimeEnv.ofPairs r.symbols <;> simp

theorem bindSymbols_eq_error_iff {e : EvalError} :
    bindSymbols r = .error e ↔
      ∃ m, RuntimeEnv.ofPairs r.symbols = .error m ∧ e = .invalidSymbols m.message := by
  unfold bindSymbols
  cases RuntimeEnv.ofPairs r.symbols <;> simp [eq_comm]

theorem mem_keys_bindSymbols (h : bindSymbols r = .ok env) (n : String) :
    n ∈ env.keys ↔ n ∈ Request.namesOf r.symbols :=
  RuntimeEnv.mem_keys_ofPairs (bindSymbols_eq_ok_iff.mp h) n

end Evaluator

end SnippetEval
