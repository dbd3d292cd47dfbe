import Mathlib.Data.List.Infix
import SnippetEval.Source.Anchor

namespace SnippetEval

namespace SourceNode

def at? (n : SourceNode) : List Nat → Option SourceNode
  | [] => some n
  | i :: path => n.children[i]?.bind fun c => c.at? path

def FirstAround (n : SourceNode) (offset i : Nat) : Prop :=
  (∃ c, n.children[i]? = some c ∧ c.span.contains offset = true) ∧
    ∀ j < i, ∀ c, n.children[j]? = some c → c.span.contains offset = false

/-- Every node on the path is around the offset, each number is that of the first child around it,
and no child of the last node is. -/
structure Descends (root : SourceNode) (offset : Nat) (path : List Nat) : Prop where
  around : ∀ p, p <+: path → ∃ n, root.at? p = some n ∧ n.span.contains offset = true
  first : ∀ p i, p ++ [i] <+: path → ∃ n, root.at? p = some n ∧ n.FirstAround offset i
  last : ∃ n, root.at? path = some n ∧ ∀ c ∈ n.children, c.span.contains offset = false

variable {root c found : SourceNode} {offset i k : Nat} {path : List Nat} {cs : List SourceNode}

@[simp] theorem at?_nil (n : SourceNode) : n.at? [] = some n := rfl

theorem at?_cons (n : SourceNode) (i : Nat) (path : List Nat) :
    n.at? (i :: path) = n.children[i]?.bind fun c => c.at? path := rfl

theorem at?_cons_of_child (h : root.children[i]? = some c) (path : List Nat) :
    root.at? (i :: path) = c.at? path := by
  rw [at?_cons, h, Option.bind_some]

theorem descendFirst_eq_none_iff :
    descendFirst offset k cs = none ↔ ∀ c ∈ cs, c.span.contains offset = false := by
  induction cs generalizing k with
  | nil => simp [descendFirst]
  | cons d cs ih =>
    by_cases hd : d.span.contains offset = true
    · simp [descendFirst, hd]
    · simp [descendFirst, hd, ih]

theorem descendFirst_eq_some_iff : descendFirst offset k cs = some (found, path) ↔
    ∃ i c rest, cs[i]? = some c ∧ c.span.contains offset = true ∧
      (∀ j < i, ∀ d, cs[j]? = some d → d.span.contains offset = false) ∧
      c.descend offset = (found, rest) ∧ path = (k + i) :: rest := by
  induction cs generalizing k with
  | nil => simp [descendFirst]
  | cons d cs ih =>
    by_cases hd : d.span.contains offset = true
    · rw [descendFirst, if_pos hd]
      constructor
      · intro h
        obtain ⟨rfl, rfl⟩ := Prod.mk.inj (Option.some.inj h)
        exact ⟨0, d, _, rfl, hd, nofun, rfl, rfl⟩
      · rintro ⟨i, c, rest, hc, -, hfirst, hdescend, rfl⟩
        cases i with
        | zero =>
          obtain rfl : d = c := Option.some.inj hc
          rw [hdescend]
          rfl
        | succ i =>
          rw [hfirst 0 i.succ_pos d rfl] at hd
          cases hd
    · rw [descendFirst, if_neg hd, ih]
      constructor
      · rintro ⟨i, c, rest, hc, hinside, hfirst, hdescend, rfl⟩
        refine ⟨i + 1, c, rest, hc, hinside, ?_, hdescend, ?_⟩
        · intro j hj e he
          cases j with
          | zero =>
            obtain rfl : d = e := Option.some.inj he
            exact Bool.eq_false_iff.mpr hd
          | succ j => exact hfirst j (Nat.lt_of_succ_lt_succ hj) e he
        · rw [Nat.add_right_comm, Nat.add_assoc]
      · rintro ⟨i, c, rest, hc, hinside, hfirst, hdescend, rfl⟩
        cases i with
        | zero =>
          obtain rfl : d = c := Option.some.inj hc
          exact absurd hinside hd
        | succ i =>
          refine ⟨i, c, rest, hc, hinside, ?_, hdescend, ?_⟩
          · exact fun j hj => hfirst (j + 1) (Nat.succ_lt_succ hj)
          · rw [Nat.add_right_comm, Nat.add_assoc]

theorem descend_eq_iff : root.descend offset = (found, path) ↔
    (path = [] ∧ found = root ∧ ∀ c ∈ root.children, c.span.contains offset = false) ∨
    ∃ i c rest, path = i :: rest ∧ root.children[i]? = some c ∧ root.FirstAround offset i ∧
      c.descend offset = (found, rest) := by
  obtain ⟨kind, span, children⟩ := root
  rw [descend]
  cases hfirst : descendFirst offset 0 children with
  | none =>
    have hnone := descendFirst_eq_none_iff.mp hfirst
    constructor
    · intro h
      obtain ⟨rfl, rfl⟩ := Prod.mk.inj h
      exact .inl ⟨rfl, rfl, hnone⟩
    · rintro (⟨rfl, rfl, -⟩ | ⟨i, c, rest, -, hc, ⟨⟨d, hd, hinside⟩, -⟩, -⟩)
      · rfl
      · rw [hnone d (List.mem_of_getElem? hd)] at hinside
        cases hinside
  | some result =>
    have hsome (path : List Nat) := @descendFirst_eq_some_iff found offset 0 path children
    simp only [Nat.zero_add, hfirst, Option.some.injEq] at hsome
    rw [hsome]
    constructor
    · rintro ⟨i, c, rest, hc, hinside, hbefore, hdescend, rfl⟩
      exact .inr ⟨i, c, rest, rfl, hc, ⟨⟨c, hc, hinside⟩, hbefore⟩, hdescend⟩
    · rintro (⟨-, -, hnone⟩ | ⟨i, c, rest, rfl, hc, ⟨⟨d, hd, hinside⟩, hbefore⟩, hdescend⟩)
      · cases hfirst.symm.trans (descendFirst_eq_none_iff.mpr hnone)
      · rw [hd] at hc
        cases hc
        exact ⟨i, c, rest, hd, hinside, hbefore, hdescend, rfl⟩

theorem descends_nil_iff : root.Descends offset [] ↔
    root.span.contains offset = true ∧ ∀ c ∈ root.children, c.span.contains offset = false := by
  constructor
  · intro h
    obtain ⟨n, hn, haround⟩ := h.around [] List.nil_prefix
    obtain ⟨m, hm, hlast⟩ := h.last
    cases hn
    cases hm
    exact ⟨haround, hlast⟩
  · rintro ⟨haround, hlast⟩
    refine ⟨?_, ?_, root, rfl, hlast⟩
    · intro p hp
      rw [List.prefix_nil.mp hp]
      exact ⟨root, rfl, haround⟩
    · intro p i hp
      simp at hp

theorem descends_cons_iff : root.Descends offset (i :: path) ↔
    root.span.contains offset = true ∧ root.FirstAround offset i ∧
      ∃ c, root.children[i]? = some c ∧ c.Descends offset path := by
  constructor
  · intro h
    obtain ⟨n, hn, haround⟩ := h.around [] List.nil_prefix
    obtain ⟨m, hm, hfirst⟩ := h.first [] i (List.prefix_append [i] path)
    cases hn
    cases hm
    obtain ⟨⟨c, hc, -⟩, -⟩ := id hfirst
    refine ⟨haround, hfirst, c, hc, ?_, ?_, ?_⟩
    · intro p hp
      rw [← at?_cons_of_child hc]
      exact h.around (i :: p) (List.cons_prefix_cons.mpr ⟨rfl, hp⟩)
    · intro p j hp
      rw [← at?_cons_of_child hc]
      exact h.first (i :: p) j (List.cons_prefix_cons.mpr ⟨rfl, hp⟩)
    · rw [← at?_cons_of_child hc]
      exact h.last
  · rintro ⟨haround, hfirst, c, hc, h⟩
    refine ⟨?_, ?_, ?_⟩
    · intro p hp
      rcases List.prefix_cons_iff.mp hp with rfl | ⟨q, rfl, hq⟩
      · exact ⟨root, rfl, haround⟩
      · rw [at?_cons_of_child hc]
        exact h.around q hq
    · intro p j hp
      cases p with
      | nil =>
        obtain rfl : j = i := (List.cons_prefix_cons.mp hp).1
        exact ⟨root, rfl, hfirst⟩
      | cons k p =>
        obtain ⟨rfl, hq⟩ := List.cons_prefix_cons.mp hp
        rw [at?_cons_of_child hc]
        exact h.first p j hq
    · rw [at?_cons_of_child hc]
      exact h.last

theorem descends_iff : root.Descends offset path ∧ root.at? path = some found ↔
    root.span.contains offset = true ∧ root.descend offset = (found, path) := by
  induction path generalizing root with
  | nil =>
    rw [descends_nil_iff, descend_eq_iff]
    simp only [at?_nil, Option.some.injEq, true_and, reduceCtorEq, false_and, exists_false,
      or_false, and_assoc, eq_comm (a := root), and_comm (a := found = root)]
  | cons i path ih =>
    rw [descends_cons_iff, descend_eq_iff]
    constructor
    · rintro ⟨⟨haround, hfirst, c, hc, hdescends⟩, hfound⟩
      rw [at?_cons_of_child hc] at hfound
      exact ⟨haround, .inr ⟨i, c, path, rfl, hc, hfirst, (ih.mp ⟨hdescends, hfound⟩).2⟩⟩
    · rintro ⟨haround, ⟨hnil, -⟩ | ⟨j, c, rest, hpath, hc, hfirst, hdescend⟩⟩
      · cases hnil
      · obtain ⟨rfl, rfl⟩ := List.cons.inj hpath
        obtain ⟨⟨d, hd, hinside⟩, -⟩ := id hfirst
        rw [hc] at hd
        cases hd
        obtain ⟨hdescends, hfound⟩ := ih.mpr ⟨hinside, hdescend⟩
        exact ⟨⟨haround, hfirst, c, hc, hdescends⟩, (at?_cons_of_child hc path).trans hfound⟩

theorem deepestAt_eq_none_iff :
    root.deepestAt offset = none ↔ root.span.contains offset = false := by
  simp [deepestAt]

theorem deepestAt_eq_some_iff : root.deepestAt offset = some (found, path) ↔
    root.Descends offset path ∧ root.at? path = some found := by
  rw [descends_iff, deepestAt]
  split
  · next h => simp [h]
  · next h => simp [h]

theorem existsUnique_descends_iff :
    root.span.contains offset = true ↔ ∃! path, root.Descends offset path := by
  constructor
  · intro h
    have hdeepest : root.deepestAt offset = some (root.descend offset) := if_pos h
    refine ⟨_, (deepestAt_eq_some_iff.mp hdeepest).1, ?_⟩
    intro path hpath
    obtain ⟨found, hfound, -⟩ := hpath.last
    rw [deepestAt_eq_some_iff.mpr ⟨hpath, hfound⟩] at hdeepest
    rw [← Option.some.inj hdeepest]
  · rintro ⟨path, hpath, -⟩
    obtain ⟨n, hn, haround⟩ := hpath.around [] List.nil_prefix
    cases hn
    exact haround

theorem walk_cons_of_child (h : root.children[i]? = some c) (path : List Nat) :
    root.walk (i :: path) = root :: c.walk path := by
  rw [walk, h]

theorem head?_walk (root : SourceNode) (path : List Nat) : (root.walk path).head? = some root := by
  cases path with
  | nil => rfl
  | cons i path =>
    rw [walk]
    split <;> rfl

theorem walk_longest (root : SourceNode) (path : List Nat) : ∃ inside, inside <+: path ∧
    (∃ n, root.at? inside = some n) ∧
    (∀ p n, p <+: path → root.at? p = some n → p <+: inside) ∧
    (root.walk path).map some = inside.inits.map root.at? := by
  induction path generalizing root with
  | nil => exact ⟨[], List.nil_prefix, ⟨root, rfl⟩, fun p _ hp _ => hp, rfl⟩
  | cons i path ih =>
    cases hc : root.children[i]? with
    | none =>
      refine ⟨[], List.nil_prefix, ⟨root, rfl⟩, ?_, by rw [walk, hc]; rfl⟩
      intro p n hp hn
      rcases List.prefix_cons_iff.mp hp with rfl | ⟨q, rfl, -⟩
      · exact List.nil_prefix
      · rw [at?_cons, hc] at hn
        cases hn
    | some c =>
      obtain ⟨inside, hinside, hend, hlongest, hwalk⟩ := ih c
      refine ⟨i :: inside, List.cons_prefix_cons.mpr ⟨rfl, hinside⟩, ?_, ?_, ?_⟩
      · rwa [at?_cons_of_child hc]
      · intro p n hp hn
        rcases List.prefix_cons_iff.mp hp with rfl | ⟨q, rfl, hq⟩
        · exact List.nil_prefix
        · rw [at?_cons_of_child hc] at hn
          exact List.cons_prefix_cons.mpr ⟨rfl, hlongest q n hq hn⟩
      · rw [walk_cons_of_child hc, List.map_cons, hwalk, List.inits_cons, List.map_cons,
          List.map_map]
        congr 2
        exact funext fun p => (at?_cons_of_child hc p).symm

theorem map_walk (h : root.at? path = some found) :
    (root.walk path).map some = path.inits.map root.at? := by
  obtain ⟨inside, hinside, -, hlongest, hwalk⟩ := root.walk_longest path
  have hpath := hlongest path found List.prefix_rfl h
  rwa [hinside.eq_of_length (hinside.length_le.antisymm hpath.length_le)] at hwalk

theorem mem_walk_iff (h : root.at? path = some found) {n : SourceNode} :
    n ∈ root.walk path ↔ ∃ p, p <+: path ∧ root.at? p = some n := by
  have hmem : some n ∈ (root.walk path).map some ↔ n ∈ root.walk path := by simp
  rw [← hmem, map_walk h, List.mem_map]
  simp only [List.mem_inits]

theorem length_walk (h : root.at? path = some found) :
    (root.walk path).length = path.length + 1 := by
  have hlength := congrArg List.length (map_walk h)
  simpa using hlength

theorem getLast?_walk (h : root.at? path = some found) :
    (root.walk path).getLast? = some found := by
  induction path generalizing root with
  | nil => exact h
  | cons i path ih =>
    rw [at?_cons, Option.bind_eq_some_iff] at h
    obtain ⟨c, hc, hfound⟩ := h
    rw [walk_cons_of_child hc, List.getLast?_cons, ih hfound, Option.getD_some]

end SourceNode

namespace Anchor

variable {context : String} {root : SourceNode} {offset : Nat} {a : Anchor}

theorem locate_eq_some_iff : locate context root offset = some a ↔
    ∃ found path, root.deepestAt offset = some (found, path) ∧
      a = ⟨context, path, found.kind, found.span⟩ := by
  simp only [locate, Option.map_eq_some_iff, Prod.exists, eq_comm (b := a)]

theorem inStaticScope_iff {found : SourceNode} (h : root.at? a.path = some found) :
    a.inStaticScope root = true ↔ ∃ p n name, p <+: a.path ∧ root.at? p = some n ∧
      n.kind = .function name true := by
  rw [inStaticScope, List.any_eq_true]
  constructor
  · rintro ⟨n, hn, hstatic⟩
    obtain ⟨p, hp, hn⟩ := (SourceNode.mem_walk_iff h).mp hn
    split at hstatic
    · next name _ hkind =>
      subst hstatic
      exact ⟨p, n, name, hp, hn, hkind⟩
    · cases hstatic
  · rintro ⟨p, n, name, hp, hn, hkind⟩
    exact ⟨n, (SourceNode.mem_walk_iff h).mpr ⟨p, hp, hn⟩, by rw [hkind]⟩

end Anchor

theorem SourceNode.deepestAt_descends (root : SourceNode) (offset : Nat) :
    (root.deepestAt offset = none ↔ root.span.contains offset = false) ∧
    (root.span.contains offset = true ↔ ∃! path, root.Descends offset path) ∧
    (∀ found path, root.deepestAt offset = some (found, path) ↔
      root.Descends offset path ∧ root.at? path = some found) ∧
    (∀ found path, root.deepestAt offset = some (found, path) →
      (root.walk path).length = path.length + 1 ∧ (root.walk path).head? = some root ∧
      (root.walk path).getLast? = some found ∧
      (root.walk path).map some = path.inits.map root.at?) ∧
    (∀ context a, Anchor.locate context root offset = some a →
      root.Descends offset a.path ∧
      (∃ found, (a.scopes root).getLast? = some found ∧ found.kind = a.kind ∧
        found.span = a.span) ∧
      (a.inStaticScope root = true ↔ ∃ p n name, p <+: a.path ∧ root.at? p = some n ∧
        n.kind = .function name true)) ∧
    ∀ path, ∃ inside, inside <+: path ∧ (∃ n, root.at? inside = some n) ∧
      (∀ p n, p <+: path → root.at? p = some n → p <+: inside) ∧
      (root.walk path).map some = inside.inits.map root.at? := by
  refine ⟨deepestAt_eq_none_iff, existsUnique_descends_iff, fun _ _ => deepestAt_eq_some_iff, ?_,
    ?_, root.walk_longest⟩
  · intro found path h
    obtain ⟨-, hfound⟩ := deepestAt_eq_some_iff.mp h
    exact ⟨length_walk hfound, head?_walk root path, getLast?_walk hfound, map_walk hfound⟩
  · intro context a h
    obtain ⟨found, path, hdeepest, rfl⟩ := Anchor.locate_eq_some_iff.mp h
    obtain ⟨hdescends, hfound⟩ := deepestAt_eq_some_iff.mp hdeepest
    exact ⟨hdescends, ⟨found, getLast?_walk hfound, rfl, rfl⟩, Anchor.inStaticScope_iff hfound⟩

theorem SourceNode.deepestAt_descends_overlapping :
    let block := node .block ⟨20, 60⟩ []
    let root := node (.type "app.Maker") ⟨0, 100⟩
      [node .closure ⟨5, 10⟩ [], node (.function "make" true) ⟨10, 50⟩ [block],
        node (.function "show" false) ⟨30, 90⟩ []]
    root.deepestAt 40 = some (block, [1, 0]) ∧ (root.walk [1, 0]).getLast? = some block ∧
      Anchor.locate "app.Maker" root 40 = some ⟨"app.Maker", [1, 0], .block, ⟨20, 60⟩⟩ ∧
      Anchor.inStaticScope ⟨"app.Maker", [1, 0], .block, ⟨20, 60⟩⟩ root = true := by
  intro block root
  have hdeepest : root.deepestAt 40 = some (block, [1, 0]) := rfl
  have hanchor : Anchor.locate "app.Maker" root 40 =
      some ⟨"app.Maker", [1, 0], .block, ⟨20, 60⟩⟩ := rfl
  obtain ⟨-, -, -, hwalk, hlocate, -⟩ := deepestAt_descends root 40
  obtain ⟨-, -, hstatic⟩ := hlocate _ _ hanchor
  have hmake : [1] <+: [1, 0] := List.prefix_append [1] [0]
  exact ⟨hdeepest, (hwalk _ _ hdeepest).2.2.1, hanchor,
    hstatic.mpr ⟨[1], _, "make", hmake, rfl, rfl⟩⟩

end SnippetEval
