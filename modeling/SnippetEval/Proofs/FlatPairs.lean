import SnippetEval.Proofs.Symbols

namespace SnippetEval.RuntimeEnv

variable {vs : List Value} {l : List (String × Value)} {env env' : RuntimeEnv} {n : String}
  {v w : Value} {i j : Nat}

/-- The value stands at the `i`-th even position, and is the first there that is no name. -/
structure Misnamed (vs : List Value) (i : Nat) (v : Value) : Prop where
  stands : vs[2 * i]? = some v
  nameless : v.type ≠ .string
  first : ∀ j < i, ∃ n, vs[2 * j]? = some (.text n)

section flat

theorem length_flat (l : List (String × Value)) : (flat l).length = 2 * l.length := by
  simp [flat, List.length_flatMap, Nat.mul_comm]

theorem getElem?_flat (l : List (String × Value)) (i : Nat) :
    (flat l)[2 * i]? = l[i]?.map (fun p => .text p.1) ∧
      (flat l)[2 * i + 1]? = l[i]?.map Prod.snd := by
  induction l generalizing i with
  | nil => simp [flat]
  | cons p l ih =>
    cases i with
    | zero => exact ⟨rfl, rfl⟩
    | succ i => exact ih i

theorem name_flat_iff {i : Nat} : (flat l)[2 * i]? = some (.text n) ↔ ∃ v, l[i]? = some (n, v) := by
  rw [(getElem?_flat l i).1, Option.map_eq_some_iff]
  constructor
  · rintro ⟨⟨m, v⟩, hl, hm⟩
    exact ⟨v, Value.text.inj hm ▸ hl⟩
  · rintro ⟨v, hl⟩
    exact ⟨(n, v), hl, rfl⟩

theorem type_flat (h : (flat l)[2 * i]? = some v) : v.type = .string := by
  rw [(getElem?_flat l i).1] at h
  obtain ⟨p, -, rfl⟩ := Option.map_eq_some_iff.mp h
  rfl

theorem mem_names_iff : n ∈ l.map Prod.fst ↔ ∃ (i : Nat) (v : Value), l[i]? = some (n, v) := by
  rw [List.mem_map]
  constructor
  · rintro ⟨⟨_, v⟩, hmem, rfl⟩
    obtain ⟨i, hi⟩ := List.mem_iff_getElem?.mp hmem
    exact ⟨i, v, hi⟩
  · rintro ⟨i, v, hi⟩
    exact ⟨(n, v), List.mem_of_getElem? hi, rfl⟩

theorem lastValue_flat_eq_some_iff : lastValue n (flat l) = some v ↔
    ∃ i : Nat, l[i]? = some (n, v) ∧ ∀ j : Nat, i < j → ∀ w, l[j]? ≠ some (n, w) := by
  induction l with
  | nil => simp [flat, lastValue]
  | cons p l ih =>
    obtain ⟨m, u⟩ := p
    rw [lastValue_flat_cons, Option.or_eq_some_iff, ih]
    constructor
    · rintro (⟨i, hi, hlater⟩ | ⟨hnone, hu⟩)
      · refine ⟨i + 1, hi, ?_⟩
        rintro (_ | j) hj w
        · exact absurd hj (Nat.not_lt_zero _)
        · exact hlater j (Nat.lt_of_succ_lt_succ hj) w
      · obtain ⟨rfl, rfl⟩ : m = n ∧ u = v := by simpa using hu
        refine ⟨0, rfl, ?_⟩
        rintro (_ | j) hj w hw
        · exact absurd hj (Nat.lt_irrefl _)
        · exact lastValue_flat_eq_none_iff.mp hnone (mem_names_iff.mpr ⟨j, w, hw⟩)
    · rintro ⟨_ | i, hi, hlater⟩
      · cases hi
        refine .inr ⟨lastValue_flat_eq_none_iff.mpr fun hmem => ?_, if_pos rfl⟩
        obtain ⟨j, w, hw⟩ := mem_names_iff.mp hmem
        exact hlater (j + 1) (Nat.succ_pos j) w hw
      · exact .inl ⟨i, hi, fun j hj w => hlater (j + 1) (Nat.succ_lt_succ hj) w⟩

end flat

namespace Misnamed

theorem cons (h : Misnamed vs i v) (n : String) (w : Value) :
    Misnamed (.text n :: w :: vs) (i + 1) v where
  stands := h.stands
  nameless := h.nameless
  first := by
    rintro (_ | j) hj
    · exact ⟨n, rfl⟩
    · exact h.first j (Nat.lt_of_succ_lt_succ hj)

theorem not_lt (h : Misnamed vs i v) (h' : Misnamed vs j w) : ¬ i < j := by
  intro hij
  obtain ⟨n, hn⟩ := h'.first i hij
  rw [h.stands] at hn
  cases hn
  exact h.nameless rfl

theorem unique (h : Misnamed vs i v) (h' : Misnamed vs j w) : i = j ∧ v = w := by
  obtain rfl : i = j :=
    Nat.le_antisymm (Nat.le_of_not_lt (h'.not_lt h)) (Nat.le_of_not_lt (h.not_lt h'))
  exact ⟨rfl, Option.some.inj (h.stands.symm.trans h'.stands)⟩

end Misnamed

theorem bindPairs_cases (vs : List Value) (position : Nat) (env : RuntimeEnv)
    (heven : vs.length % 2 = 0) :
    (∃ l env', vs = flat l ∧ bindPairs position env vs = .ok env') ∨
      ∃ i v, Misnamed vs i v ∧
        bindPairs position env vs = .error (.nameNotText (position + 2 * i) v.type) := by
  match vs with
  | [] => exact .inl ⟨[], env, rfl, rfl⟩
  | [_] => cases heven
  | name :: value :: rest =>
    have hrest : rest.length % 2 = 0 := by
      simp only [List.length_cons] at heven
      omega
    by_cases hname : name.type = .string
    · obtain ⟨n, rfl⟩ : ∃ n, name = .text n := by
        cases name <;> simp [Value.type] at hname ⊢
      rcases bindPairs_cases rest (position + 2) (env.bind n value) hrest with
        ⟨l, env', rfl, hok⟩ | ⟨i, v, hmisnamed, herror⟩
      · exact .inl ⟨(n, value) :: l, env', rfl, hok⟩
      · refine .inr ⟨i + 1, v, hmisnamed.cons n value, ?_⟩
        rw [Nat.mul_succ, Nat.add_comm (2 * i), ← Nat.add_assoc]
        exact herror
    · refine .inr ⟨0, name, ⟨rfl, hname, nofun⟩, ?_⟩
      cases name <;> first | rfl | exact absurd rfl hname

theorem ofPairs_cases (vs : List Value) :
    vs.length % 2 = 1 ∧ ofPairs vs = .error (.oddLength vs.length) ∨
      vs.length % 2 = 0 ∧
        (∃ i v, Misnamed vs i v ∧ ofPairs vs = .error (.nameNotText (2 * i) v.type)) ∨
      ∃ l env, vs = flat l ∧ ofPairs vs = .ok env := by
  rcases Nat.mod_two_eq_zero_or_one vs.length with heven | hodd
  · have hpairs : ofPairs vs = bindPairs 0 .empty vs := by
      rw [ofPairs, if_neg (by omega)]
    rw [hpairs]
    rcases bindPairs_cases vs 0 .empty heven with hok | ⟨i, v, hmisnamed, herror⟩
    · exact .inr (.inr hok)
    · rw [Nat.zero_add] at herror
      exact .inr (.inl ⟨heven, i, v, hmisnamed, herror⟩)
  · refine .inl ⟨hodd, ?_⟩
    rw [ofPairs, if_pos (by omega)]

theorem ofPairs_eq_error_iff {m : MalformedPairs} : ofPairs vs = .error m ↔
    vs.length % 2 = 1 ∧ m = .oddLength vs.length ∨
      vs.length % 2 = 0 ∧ ∃ i v, Misnamed vs i v ∧ m = .nameNotText (2 * i) v.type := by
  rcases ofPairs_cases vs with ⟨hodd, h⟩ | ⟨heven, i, v, hmisnamed, h⟩ | ⟨l, env, rfl, h⟩
  · rw [h, Except.error.injEq]
    constructor
    · rintro rfl
      exact .inl ⟨hodd, rfl⟩
    · rintro (⟨-, rfl⟩ | ⟨heven, -⟩)
      · rfl
      · omega
  · rw [h, Except.error.injEq]
    constructor
    · rintro rfl
      exact .inr ⟨heven, i, v, hmisnamed, rfl⟩
    · rintro (⟨hodd, -⟩ | ⟨-, j, w, hmisnamed', rfl⟩)
      · omega
      · obtain ⟨rfl, rfl⟩ := hmisnamed.unique hmisnamed'
        rfl
  · rw [h]
    constructor
    · nofun
    · rintro (⟨hodd, -⟩ | ⟨-, i, v, hmisnamed, -⟩)
      · rw [length_flat] at hodd
        omega
      · exact absurd (type_flat hmisnamed.stands) hmisnamed.nameless

theorem exists_ofPairs_error_iff : (∃ m, ofPairs vs = .error m) ↔
    vs.length % 2 = 1 ∨ ∃ (i : Nat) (v : Value), vs[2 * i]? = some v ∧ v.type ≠ .string := by
  constructor
  · rintro ⟨m, hm⟩
    rcases ofPairs_eq_error_iff.mp hm with ⟨hodd, -⟩ | ⟨-, i, v, hmisnamed, -⟩
    · exact .inl hodd
    · exact .inr ⟨i, v, hmisnamed.stands, hmisnamed.nameless⟩
  · intro h
    rcases ofPairs_cases vs with ⟨-, herror⟩ | ⟨-, i, v, -, herror⟩ | ⟨l, env, rfl, -⟩
    · exact ⟨_, herror⟩
    · exact ⟨_, herror⟩
    · rcases h with hodd | ⟨i, v, hv, hname⟩
      · rw [length_flat] at hodd
        omega
      · exact absurd (type_flat hv) hname

theorem exists_flat_of_ofPairs (h : ofPairs vs = .ok env) : ∃ l, vs = flat l := by
  rcases ofPairs_cases vs with ⟨-, herror⟩ | ⟨-, i, v, -, herror⟩ | ⟨l, env', rfl, -⟩
  · rw [h] at herror
    cases herror
  · rw [h] at herror
    cases herror
  · exact ⟨l, rfl⟩

theorem mem_keys_ofPairs_iff (h : ofPairs vs = .ok env) :
    n ∈ env.keys ↔ ∃ i : Nat, vs[2 * i]? = some (.text n) := by
  obtain ⟨l, rfl⟩ := exists_flat_of_ofPairs h
  rw [← not_iff_not, ← value?_eq_none_iff, value?_ofPairs h, lastValue_flat_eq_none_iff,
    not_iff_not, mem_names_iff]
  simp only [name_flat_iff]

theorem value?_ofPairs_iff (h : ofPairs vs = .ok env) : env.value? n = some v ↔
    ∃ i : Nat, vs[2 * i]? = some (.text n) ∧ vs[2 * i + 1]? = some v ∧
      ∀ j : Nat, i < j → vs[2 * j]? ≠ some (.text n) := by
  obtain ⟨l, rfl⟩ := exists_flat_of_ofPairs h
  rw [value?_ofPairs h, lastValue_flat_eq_some_iff]
  refine exists_congr fun i => ?_
  simp only [ne_eq, name_flat_iff, (getElem?_flat l i).2, Option.map_eq_some_iff, not_exists]
  constructor
  · rintro ⟨hi, hlater⟩
    exact ⟨⟨v, hi⟩, ⟨_, hi, rfl⟩, hlater⟩
  · rintro ⟨⟨w, hw⟩, ⟨p, hp, rfl⟩, hlater⟩
    rw [hw] at hp
    cases hp
    exact ⟨hw, hlater⟩

theorem declaredType_bindPairs (vs : List Value) (position : Nat) (env : RuntimeEnv)
    (h : bindPairs position env vs = .ok env')
    (henv : ∀ n symbol, env.get? n = some symbol → symbol.declaredType = .any) :
    ∀ n symbol, env'.get? n = some symbol → symbol.declaredType = .any := by
  match vs with
  | [] =>
    cases h
    exact henv
  | [_] =>
    cases h
    exact henv
  | name :: value :: rest =>
    cases name with
    | text s =>
      refine declaredType_bindPairs rest (position + 2) (env.bind s value) h ?_
      intro n symbol hsymbol
      rw [bind, Table.get?_insert] at hsymbol
      split at hsymbol
      · cases hsymbol
        rfl
      · exact henv n symbol hsymbol
    | _ => cases h

theorem get?_ofPairs_iff (h : ofPairs vs = .ok env) {symbol : RuntimeSymbol} :
    env.get? n = some symbol ↔
      symbol.declaredType = .any ∧ env.value? n = some symbol.value := by
  have hany : ∀ n symbol, env.get? n = some symbol → symbol.declaredType = .any := by
    refine declaredType_bindPairs vs 0 .empty ?_ nofun
    unfold ofPairs at h
    split at h
    · cases h
    · exact h
  rw [value?, Option.map_eq_some_iff]
  constructor
  · intro hsymbol
    exact ⟨hany n symbol hsymbol, symbol, hsymbol, rfl⟩
  · rintro ⟨htype, other, hother, hvalue⟩
    obtain ⟨type, value⟩ := symbol
    obtain ⟨otherType, otherValue⟩ := other
    obtain rfl : otherType = .any := hany n _ hother
    obtain rfl : type = .any := htype
    obtain rfl : otherValue = value := hvalue
    exact hother

theorem encard_ofPairs (h : ofPairs vs = .ok env) :
    {n | ∃ i : Nat, vs[2 * i]? = some (.text n)}.encard = env.size := by
  rw [← Table.encard_contains]
  congr 1
  ext n
  exact (mem_keys_ofPairs_iff h).symm.trans (Table.mem_keys_iff _ _)

theorem bindSymbols_text_iff {r : Request} {e : EvalError} : Evaluator.bindSymbols r = .error e ↔
    r.symbols.length % 2 = 1 ∧ e = .invalidSymbols
        ("expected name/value pairs, got " ++ toString r.symbols.length ++ " items") ∨
      r.symbols.length % 2 = 0 ∧ ∃ i v, Misnamed r.symbols i v ∧ e = .invalidSymbols
        ("name at position " ++ toString (2 * i) ++ " is " ++ v.type.name ++ ", not a string") := by
  rw [Evaluator.bindSymbols_eq_error_iff]
  constructor
  · rintro ⟨m, hm, rfl⟩
    rcases ofPairs_eq_error_iff.mp hm with ⟨hodd, rfl⟩ | ⟨heven, i, v, hmisnamed, rfl⟩
    · exact .inl ⟨hodd, rfl⟩
    · exact .inr ⟨heven, i, v, hmisnamed, rfl⟩
  · rintro (⟨hodd, rfl⟩ | ⟨heven, i, v, hmisnamed, rfl⟩)
    · exact ⟨_, ofPairs_eq_error_iff.mpr (.inl ⟨hodd, rfl⟩), rfl⟩
    · exact ⟨_, ofPairs_eq_error_iff.mpr (.inr ⟨heven, i, v, hmisnamed, rfl⟩), rfl⟩

theorem ofPairs_binds (vs : List Value) :
    ((∃ m, ofPairs vs = .error m) ↔
      vs.length % 2 = 1 ∨ ∃ (i : Nat) (v : Value), vs[2 * i]? = some v ∧ v.type ≠ .string) ∧
    (∀ m, ofPairs vs = .error m ↔
      vs.length % 2 = 1 ∧ m = .oddLength vs.length ∨
        vs.length % 2 = 0 ∧ ∃ i v, Misnamed vs i v ∧ m = .nameNotText (2 * i) v.type) ∧
    (∀ r : Request, r.symbols = vs →
      (∀ env, Evaluator.bindSymbols r = .ok env ↔ ofPairs vs = .ok env) ∧
      ∀ e, Evaluator.bindSymbols r = .error e ↔
        vs.length % 2 = 1 ∧ e = .invalidSymbols
            ("expected name/value pairs, got " ++ toString vs.length ++ " items") ∨
          vs.length % 2 = 0 ∧ ∃ i v, Misnamed vs i v ∧ e = .invalidSymbols
            ("name at position " ++ toString (2 * i) ++ " is " ++ v.type.name ++
              ", not a string")) ∧
    ∀ env, ofPairs vs = .ok env →
      (∀ n, n ∈ env.keys ↔ ∃ i : Nat, vs[2 * i]? = some (.text n)) ∧
      (∀ n symbol, env.get? n = some symbol ↔ symbol.declaredType = .any ∧
        ∃ i : Nat, vs[2 * i]? = some (.text n) ∧ vs[2 * i + 1]? = some symbol.value ∧
          ∀ j : Nat, i < j → vs[2 * j]? ≠ some (.text n)) ∧
      {n | ∃ i : Nat, vs[2 * i]? = some (.text n)}.encard = env.size := by
  refine ⟨exists_ofPairs_error_iff, fun m => ofPairs_eq_error_iff, ?_, fun env h => ?_⟩
  · rintro r rfl
    exact ⟨fun env => Evaluator.bindSymbols_eq_ok_iff, fun e => bindSymbols_text_iff⟩
  · refine ⟨fun n => mem_keys_ofPairs_iff h, fun n symbol => ?_, encard_ofPairs h⟩
    rw [get?_ofPairs_iff h, value?_ofPairs_iff h]

theorem ofPairs_binds_again :
    let vs : List Value := [.text "x", .int 1, .text "y", .text "x", .text "x", .null]
    let env : RuntimeEnv :=
      ((RuntimeEnv.bind .empty "x" (.int 1)).bind "y" (.text "x")).bind "x" .null
    ofPairs vs = .ok env ∧ env.get? "x" = some ⟨.any, .null⟩ ∧
      {n | ∃ i : Nat, vs[2 * i]? = some (.text n)}.encard = 2 ∧
      Evaluator.bindSymbols { source := "x", symbols := [.text "x", .null, .int 1, .null] } =
        .error (.invalidSymbols "name at position 2 is int, not a string") := by
  intro vs env
  have hread : ofPairs vs = .ok env := by simp [vs, env, ofPairs, bindPairs]
  obtain ⟨-, -, -, hbinds⟩ := ofPairs_binds vs
  obtain ⟨-, hget, hsize⟩ := hbinds env hread
  refine ⟨hread, (hget _ _).mpr ⟨rfl, 2, rfl, rfl, ?_⟩, hsize, ?_⟩
  · intro j hj
    have hlength : vs.length ≤ 2 * j := by
      simp only [vs, List.length_cons, List.length_nil]
      omega
    rw [List.getElem?_eq_none hlength]
    exact (Option.some_ne_none _).symm
  · have hmisnamed : Misnamed [.text "x", .null, .int 1, .null] 1 (.int 1) :=
      ⟨rfl, by decide, fun j hj => ⟨"x", by obtain rfl := Nat.lt_one_iff.mp hj; rfl⟩⟩
    obtain ⟨-, -, htext, -⟩ := ofPairs_binds [.text "x", .null, .int 1, .null]
    exact ((htext _ rfl).2 _).mpr (.inr ⟨rfl, 1, .int 1, hmisnamed, rfl⟩)

end SnippetEval.RuntimeEnv
