import SnippetEval.Proofs.Except
import SnippetEval.Proofs.Outward

namespace SnippetEval

def SymbolTable.Local (t : SymbolTable) : Prop := ∀ n i, t.get? n = some i → i.kind ≠ .external

theorem SymbolTable.Local.insert {t : SymbolTable} (h : t.Local) (n : String) {i : SymbolInfo}
    (hi : i.kind ≠ .external) : SymbolTable.Local (Table.insert t n i) := by
  intro m j hj
  rw [Table.get?_insert] at hj
  split at hj
  · cases hj
    exact hi
  · exact h m j hj

namespace TypeDef

theorem fieldSymbols_local (t : TypeDef) : t.fieldSymbols.Local := by
  apply List.foldlRecOn
  · intro n i h
    cases h
  · intro table h f _
    exact h.insert f.name nofun

theorem declareVariables_local (offset : Nat) {table : SymbolTable} (h : table.Local)
    (scope : SourceNode) : (declareVariables offset table scope).Local := by
  apply List.foldlRecOn (motive := SymbolTable.Local)
  · exact h
  · intro table h c _
    split
    · split
      · exact h.insert _ nofun
      · exact h
    · exact h

theorem symbolsAt_local (t : TypeDef) (offset : Nat) : (t.symbolsAt offset).Local := by
  unfold symbolsAt
  split
  · exact t.fieldSymbols_local
  · split
    · exact t.fieldSymbols_local
    · exact List.foldlRecOn _ _ t.fieldSymbols_local fun _ h scope _ =>
        declareVariables_local offset h scope

end TypeDef

namespace Sandbox

variable {s : Sandbox} {maxDepth offset : Nat} {immediate : Option String} {place : Resolution}

def placeFrom (s : Sandbox) (maxDepth offset : Nat) (start : TypeDef) :
    Except EvalError Resolution := do
  let (context, root, hops) ← s.nearestWithSource maxDepth start
  match Anchor.locate context.name root offset with
  | some anchor => return .within context anchor (context.symbolsAt offset) offset hops
  | none => throw (.noAnchor context.name (.offsetOutside offset))

theorem resolve_topLevel (h : s.resolve maxDepth none immediate offset = .ok place) :
    place = .topLevel := by
  cases immediate with
  | none =>
    cases h
    rfl
  | some name =>
    simp only [resolve] at h
    cases hname : s.lookup name with
    | error err => simp [hname, bind, Except.bind] at h
    | ok t =>
      rw [hname] at h
      cases h
      rfl

theorem placeFrom_within {start : TypeDef} (h : s.placeFrom maxDepth offset start = .ok place) :
    ∃ context anchor hops,
      place = .within context anchor (context.symbolsAt offset) offset hops := by
  unfold placeFrom at h
  cases hnearest : s.nearestWithSource maxDepth start with
  | error err => simp [hnearest, bind, Except.bind] at h
  | ok found =>
    obtain ⟨context, root, hops⟩ := found
    simp only [hnearest, bind, Except.bind] at h
    split at h
    · next anchor _ =>
      cases h
      exact ⟨context, anchor, hops, rfl⟩
    · cases h

theorem resolve_enclosing (name : String) : s.resolve maxDepth (some name) immediate offset =
    s.lookup name >>= fun top =>
      immediate.elim (.ok top) s.lookup >>= s.placeFrom maxDepth offset := by
  cases immediate <;> rfl

theorem resolve_within {name : String}
    (h : s.resolve maxDepth (some name) immediate offset = .ok place) :
    ∃ context anchor hops,
      place = .within context anchor (context.symbolsAt offset) offset hops := by
  rw [resolve_enclosing] at h
  cases htop : s.lookup name with
  | error err => simp [htop, bind, Except.bind] at h
  | ok top =>
    rw [htop] at h
    cases hstart : immediate.elim (.ok top) s.lookup with
    | error err => simp [hstart, bind, Except.bind] at h
    | ok start =>
      simp only [hstart, bind, Except.bind] at h
      exact placeFrom_within h

theorem resolve_local {enclosing : Option String}
    (h : s.resolve maxDepth enclosing immediate offset = .ok place) : place.symbols.Local := by
  cases enclosing with
  | none =>
    rw [resolve_topLevel h]
    intro n i hi
    cases hi
  | some name =>
    obtain ⟨context, anchor, hops, rfl⟩ := resolve_within h
    exact context.symbolsAt_local offset

def startOf (s : Sandbox) (enclosing immediate : Option String) : Option TypeDef :=
  enclosing.bind fun name => (s.types.get? name).bind fun top => immediate.elim (some top) s.types.get?

theorem lookup_of_defined (hs : s.includeAll ≠ 0) {name : String} {t : TypeDef}
    (h : s.types.get? name = some t) : s.lookup name = .ok t := by
  simp [lookup, resolveType, h, hs, Option.filter]

theorem lookup_of_undefined {name : String} (h : s.types.get? name = none) :
    s.lookup name = .error (.unresolvedContext name) := by
  simp [lookup, resolveType, h]

theorem resolve_of_start (hs : s.includeAll ≠ 0) {enclosing : Option String} {start : TypeDef}
    (h : s.startOf enclosing immediate = some start) :
    s.resolve maxDepth enclosing immediate offset = s.placeFrom maxDepth offset start := by
  obtain ⟨outer, rfl, houter⟩ := Option.bind_eq_some_iff.mp h
  obtain ⟨top, htop, hstart⟩ := Option.bind_eq_some_iff.mp houter
  rw [resolve_enclosing, lookup_of_defined hs htop]
  cases immediate with
  | none =>
    cases hstart
    rfl
  | some name =>
    change s.lookup name >>= s.placeFrom maxDepth offset = _
    rw [lookup_of_defined hs hstart]
    rfl

theorem resolve_cases (hs : s.includeAll ≠ 0) (maxDepth : Nat) (enclosing immediate : Option String)
    (offset : Nat) :
    s.resolve maxDepth enclosing immediate offset = .ok .topLevel ∨
    (∃ name, (enclosing = some name ∨ immediate = some name) ∧ s.types.get? name = none ∧
      s.resolve maxDepth enclosing immediate offset = .error (.unresolvedContext name)) ∨
    ∃ start, s.startOf enclosing immediate = some start ∧
      s.resolve maxDepth enclosing immediate offset = s.placeFrom maxDepth offset start := by
  cases hstart : s.startOf enclosing immediate with
  | some start => exact .inr (.inr ⟨start, rfl, resolve_of_start hs hstart⟩)
  | none =>
    cases enclosing with
    | none =>
      cases immediate with
      | none => exact .inl rfl
      | some name =>
        cases hname : s.types.get? name with
        | none =>
          exact .inr (.inl ⟨name, .inr rfl, hname, by rw [resolve, lookup_of_undefined hname]; rfl⟩)
        | some t => exact .inl (by rw [resolve, lookup_of_defined hs hname]; rfl)
    | some outer =>
      rw [resolve_enclosing]
      cases houter : s.types.get? outer with
      | none => exact .inr (.inl ⟨outer, .inl rfl, houter, by rw [lookup_of_undefined houter]; rfl⟩)
      | some top =>
        simp only [startOf, Option.bind_some, houter] at hstart
        cases immediate with
        | none => cases hstart
        | some name =>
          refine .inr (.inl ⟨name, .inr rfl, hstart, ?_⟩)
          rw [lookup_of_defined hs houter]
          change s.lookup name >>= s.placeFrom maxDepth offset = _
          rw [lookup_of_undefined hstart]
          rfl

def placeIn (c : TypeDef) (root : SourceNode) (offset hops : Nat) : Except EvalError Resolution :=
  match Anchor.locate c.name root offset with
  | some anchor => .ok (.within c anchor (c.symbolsAt offset) offset hops)
  | none => .error (.noAnchor c.name (.offsetOutside offset))

theorem placeFrom_of_nearest {start c : TypeDef} {root : SourceNode} {hops : Nat}
    (h : s.nearestWithSource maxDepth start = .ok (c, root, hops)) :
    s.placeFrom maxDepth offset start = placeIn c root offset hops := by
  rw [placeFrom, h]
  rfl

theorem locate_eq_none_iff {context : String} {root : SourceNode} :
    Anchor.locate context root offset = none ↔ root.span.contains offset = false := by
  rw [Anchor.locate, Option.map_eq_none_iff, SourceNode.deepestAt]
  split
  · next h => simp [h]
  · next h => simp [h]

theorem placeFrom_cases (s : Sandbox) (maxDepth offset : Nat) (start : TypeDef) :
    (∃ n ≤ maxDepth, ∃ c root, s.Skips start n c ∧ c.source = some root ∧
      ((∃ anchor, s.placeFrom maxDepth offset start =
          .ok (.within c anchor (c.symbolsAt offset) offset n)) ∨
        root.span.contains offset = false ∧
          s.placeFrom maxDepth offset start = .error (.noAnchor c.name (.offsetOutside offset)))) ∨
    (∃ n < maxDepth, ∃ c, s.Skips start n c ∧ c.source = none ∧ s.enclosing c = none ∧
      s.placeFrom maxDepth offset start = .error (.noAnchor c.name .chainExhausted)) ∨
    ∃ c, s.Skips start maxDepth c ∧ c.source = none ∧
      s.placeFrom maxDepth offset start =
        .error (.noAnchor c.name (.depthExceeded maxDepth)) := by
  rcases s.nearestFrom_cases 0 maxDepth start with
    ⟨n, hn, c, root, hc, hroot, hok⟩ | ⟨n, hn, c, hc, hbare, hend, herr⟩ | ⟨c, hc, hbare, herr⟩
  · rw [Nat.zero_add] at hok
    refine .inl ⟨n, hn, c, root, hc, hroot, ?_⟩
    rw [placeFrom_of_nearest hok, placeIn]
    cases hanchor : Anchor.locate c.name root offset with
    | some anchor => exact .inl ⟨anchor, rfl⟩
    | none => exact .inr ⟨locate_eq_none_iff.mp hanchor, rfl⟩
  · exact .inr (.inl ⟨n, hn, c, hc, hbare, hend, by rw [placeFrom, nearestWithSource, herr]; rfl⟩)
  · rw [Nat.zero_add] at herr
    exact .inr (.inr ⟨c, hc, hbare, by rw [placeFrom, nearestWithSource, herr]; rfl⟩)

/-- Going outward, the type is the first with source, and no more than `maxDepth` steps away. -/
def IsNearest (s : Sandbox) (maxDepth : Nat) (start c : TypeDef) (root : SourceNode) (hops : Nat) :
    Prop :=
  hops ≤ maxDepth ∧ s.Skips start hops c ∧ c.source = some root

def Starts (s : Sandbox) (enclosing : String) (immediate : Option String) (start : TypeDef) : Prop :=
  ∃ top, s.resolveType enclosing = some top ∧
    immediate.elim (some top) s.resolveType = some start

section

variable {start c : TypeDef} {root : SourceNode} {hops : Nat}

theorem nearestWithSource_of_isNearest (h : s.IsNearest maxDepth start c root hops) :
    s.nearestWithSource maxDepth start = .ok (c, root, hops) := by
  obtain ⟨hle, hskips, hroot⟩ := h
  obtain ⟨left, rfl⟩ := Nat.exists_eq_add_of_le' hle
  rw [nearestWithSource, nearestFrom_skip hskips, Nat.zero_add]
  unfold nearestFrom
  rw [hroot]

theorem nearestWithSource_cases (s : Sandbox) (maxDepth : Nat) (start : TypeDef) :
    (∃ c root hops, s.IsNearest maxDepth start c root hops) ∨
      ∃ context reason, s.nearestWithSource maxDepth start = .error (.noAnchor context reason) := by
  rcases s.nearestFrom_cases 0 maxDepth start with
    ⟨n, hn, c, root, hskips, hroot, -⟩ | ⟨-, -, c, -, -, -, herr⟩ | ⟨c, -, -, herr⟩
  · exact .inl ⟨c, root, n, hn, hskips, hroot⟩
  · exact .inr ⟨c.name, _, herr⟩
  · exact .inr ⟨c.name, _, herr⟩

theorem nearestWithSource_eq_ok_iff :
    s.nearestWithSource maxDepth start = .ok (c, root, hops) ↔
      s.IsNearest maxDepth start c root hops := by
  constructor
  · intro h
    rcases s.nearestWithSource_cases maxDepth start with ⟨d, root', n, hd⟩ | ⟨_, _, herr⟩
    · rw [nearestWithSource_of_isNearest hd] at h
      cases h
      exact hd
    · rw [herr] at h
      cases h
  · exact nearestWithSource_of_isNearest

theorem nearestWithSource_eq_error_iff :
    (∃ context reason, s.nearestWithSource maxDepth start = .error (.noAnchor context reason)) ↔
      ¬ ∃ c root hops, s.IsNearest maxDepth start c root hops := by
  constructor
  · rintro ⟨context, reason, herr⟩ ⟨c, root, hops, h⟩
    rw [nearestWithSource_of_isNearest h] at herr
    cases herr
  · exact fun h => (s.nearestWithSource_cases maxDepth start).resolve_left h

example :
    let a : TypeDef := { name := "a", enclosing := some "b" }
    let b : TypeDef := { name := "b", enclosing := some "a" }
    ((Sandbox.define {} a).define b).nearestWithSource 3 a =
      .error (.noAnchor "b" (.depthExceeded 3)) := rfl

theorem lookup_eq_ok_iff {name : String} {t : TypeDef} :
    s.lookup name = .ok t ↔ s.resolveType name = some t := by
  unfold lookup
  cases s.resolveType name <;> simp

theorem exists_locate_of_contains {context : String} (h : root.span.contains offset = true) :
    ∃ anchor, Anchor.locate context root offset = some anchor := by
  apply Option.ne_none_iff_exists'.mp
  rw [Ne, locate_eq_none_iff, h]
  exact Bool.noConfusion

theorem placeIn_eq_ok_iff : placeIn c root offset hops = .ok place ↔
    ∃ anchor, Anchor.locate c.name root offset = some anchor ∧
      place = .within c anchor (c.symbolsAt offset) offset hops := by
  unfold placeIn
  cases Anchor.locate c.name root offset <;> simp [eq_comm]

theorem placeFrom_eq_ok_iff : s.placeFrom maxDepth offset start = .ok place ↔
    ∃ c root hops anchor, s.IsNearest maxDepth start c root hops ∧
      Anchor.locate c.name root offset = some anchor ∧
      place = .within c anchor (c.symbolsAt offset) offset hops := by
  have hfrom : s.placeFrom maxDepth offset start =
      s.nearestWithSource maxDepth start >>= fun p => placeIn p.1 p.2.1 offset p.2.2 := rfl
  rw [hfrom, bind_eq_ok_iff]
  simp only [Prod.exists, nearestWithSource_eq_ok_iff, placeIn_eq_ok_iff, exists_and_left]

theorem resolve_enclosing_eq_ok_iff {enclosing : String} :
    s.resolve maxDepth (some enclosing) immediate offset = .ok place ↔
      ∃ start, s.Starts enclosing immediate start ∧
        s.placeFrom maxDepth offset start = .ok place := by
  have hstart (top start : TypeDef) : immediate.elim (.ok top) s.lookup = .ok start ↔
      immediate.elim (some top) s.resolveType = some start := by
    cases immediate with
    | none => simp
    | some name => exact lookup_eq_ok_iff
  rw [resolve_enclosing, bind_eq_ok_iff]
  simp only [bind_eq_ok_iff, lookup_eq_ok_iff, hstart]
  constructor
  · rintro ⟨top, htop, start, hs, h⟩
    exact ⟨start, ⟨top, htop, hs⟩, h⟩
  · rintro ⟨start, ⟨top, htop, hs⟩, h⟩
    exact ⟨top, htop, start, hs, h⟩

theorem resolve_topLevel_eq_ok_iff : s.resolve maxDepth none immediate offset = .ok place ↔
    place = .topLevel ∧ ∀ name, immediate = some name → ∃ t, s.resolveType name = some t := by
  cases immediate with
  | none =>
    have hresolve : s.resolve maxDepth none none offset = .ok .topLevel := rfl
    simp [hresolve, eq_comm]
  | some name =>
    have hresolve : s.resolve maxDepth none (some name) offset =
        s.lookup name >>= fun _ => .ok .topLevel := rfl
    rw [hresolve, bind_eq_ok_iff]
    simp only [lookup_eq_ok_iff, Except.ok.injEq, Option.some.injEq, forall_eq', exists_and_right,
      eq_comm (b := place)]
    exact and_comm

end

theorem resolve_nearest (s : Sandbox) (maxDepth : Nat) :
    (∀ start c root hops, s.nearestWithSource maxDepth start = .ok (c, root, hops) ↔
      s.IsNearest maxDepth start c root hops) ∧
    (∀ start, (∃ context reason,
        s.nearestWithSource maxDepth start = .error (.noAnchor context reason)) ↔
      ¬ ∃ c root hops, s.IsNearest maxDepth start c root hops) ∧
    (∀ enclosing immediate offset,
      (∃ place, s.resolve maxDepth (some enclosing) immediate offset = .ok place) ↔
        ∃ start c root hops, s.Starts enclosing immediate start ∧
          s.IsNearest maxDepth start c root hops ∧ root.span.contains offset = true) ∧
    (∀ enclosing immediate offset place,
      s.resolve maxDepth (some enclosing) immediate offset = .ok place ↔
        ∃ start c root hops anchor, s.Starts enclosing immediate start ∧
          s.IsNearest maxDepth start c root hops ∧ Anchor.locate c.name root offset = some anchor ∧
          place = .within c anchor (c.symbolsAt offset) offset hops) ∧
    ∀ immediate offset place, s.resolve maxDepth none immediate offset = .ok place ↔
      place = .topLevel ∧ ∀ name, immediate = some name → ∃ t, s.resolveType name = some t := by
  have hplace (enclosing immediate offset place) :
      s.resolve maxDepth (some enclosing) immediate offset = .ok place ↔
        ∃ start c root hops anchor, s.Starts enclosing immediate start ∧
          s.IsNearest maxDepth start c root hops ∧ Anchor.locate c.name root offset = some anchor ∧
          place = .within c anchor (c.symbolsAt offset) offset hops := by
    simp only [resolve_enclosing_eq_ok_iff, placeFrom_eq_ok_iff, exists_and_left]
  refine ⟨fun _ _ _ _ => nearestWithSource_eq_ok_iff, fun _ => nearestWithSource_eq_error_iff, ?_,
    hplace, fun _ _ _ => resolve_topLevel_eq_ok_iff⟩
  intro enclosing immediate offset
  simp only [hplace]
  constructor
  · rintro ⟨place, start, c, root, hops, anchor, hstart, hnearest, hanchor, -⟩
    refine ⟨start, c, root, hops, hstart, hnearest, ?_⟩
    by_contra houtside
    rw [locate_eq_none_iff.mpr (Bool.eq_false_iff.mpr houtside)] at hanchor
    cases hanchor
  · rintro ⟨start, c, root, hops, hstart, hnearest, hinside⟩
    obtain ⟨anchor, hanchor⟩ := exists_locate_of_contains hinside
    exact ⟨_, start, c, root, hops, anchor, hstart, hnearest, hanchor, rfl⟩

end Sandbox

end SnippetEval
