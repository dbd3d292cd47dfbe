import Mathlib.Tactic.Common
import SnippetEval.Proofs.Source.Descent
import SnippetEval.Proofs.Symbols

namespace SnippetEval

namespace SourceNode

def Declares (c : SourceNode) (offset : Nat) (n : String) (type : ValueType) : Prop :=
  c.kind = .declaration n type ∧ c.span.start ≤ offset

def DeclaresLast (s : SourceNode) (offset : Nat) (n : String) : ValueType → Prop :=
  LastGives (fun c type => c.Declares offset n type) s.children

def Declared (nodes : List SourceNode) (offset : Nat) (n : String) : Prop :=
  ∃ s ∈ nodes, ∃ c ∈ s.children, ∃ type, c.Declares offset n type

theorem exists_declaresLast_iff {nodes : List SourceNode} {offset : Nat} {n : String} :
    (∃ type, LastGives (fun s type => s.DeclaresLast offset n type) nodes type) ↔
      Declared nodes offset n := by
  simp only [exists_lastGives_iff, DeclaresLast, Declared]

end SourceNode

namespace TypeDef

variable {t : TypeDef} {root : SourceNode} {offset : Nat} {n : String}

def HasField (t : TypeDef) (n : String) : ValueType → Prop :=
  LastGives (fun f type => f.name = n ∧ f.type = type) t.fields

theorem get?_fieldSymbols_iff {info : SymbolInfo} :
    t.fieldSymbols.get? n = some info ↔ ∃ type, t.HasField n type ∧ info = ⟨type, .field⟩ := by
  rw [fieldSymbols, Table.get?_foldl_iff (fun f type => f.name = n ∧ f.type = type)
    (SymbolInfo.mk · .field)]
  · simp [HasField]
  · intro table f info
    rw [Table.get?_insert]
    by_cases h : f.name = n
    · simp [h, eq_comm]
    · simp [h, Ne.symm h]

theorem get?_declareVariables_iff {table : SymbolTable} {s : SourceNode} {info : SymbolInfo} :
    (declareVariables offset table s).get? n = some info ↔
      (∃ type, s.DeclaresLast offset n type ∧ info = ⟨type, .variable⟩) ∨
      (∀ type, ¬ s.DeclaresLast offset n type) ∧ table.get? n = some info := by
  refine Table.get?_foldl_iff (fun (c : SourceNode) type => c.Declares offset n type)
    (SymbolInfo.mk · .variable) ?_ _ _ _
  rintro table ⟨kind, span, children⟩ info
  cases kind with
  | declaration m type =>
    by_cases hstart : span.start ≤ offset
    · by_cases hm : n = m
      · simp [SourceNode.Declares, SourceNode.kind, SourceNode.span, Table.get?_insert, hstart, hm,
          eq_comm]
      · simp [SourceNode.Declares, SourceNode.kind, SourceNode.span, Table.get?_insert, hstart, hm,
          Ne.symm hm]
    · simp [SourceNode.Declares, SourceNode.kind, SourceNode.span, hstart]
  | _ => simp [SourceNode.Declares, SourceNode.kind]

theorem get?_symbolsAt_iff (hsource : t.source = some root) {found : SourceNode} {path : List Nat}
    (hdeepest : root.deepestAt offset = some (found, path)) {info : SymbolInfo} :
    (t.symbolsAt offset).get? n = some info ↔
      (∃ type, LastGives (fun s type => s.DeclaresLast offset n type) (root.walk path) type ∧
        info = ⟨type, .variable⟩) ∨
      (∀ type, ¬ LastGives (fun s type => s.DeclaresLast offset n type) (root.walk path) type) ∧
        ∃ type, t.HasField n type ∧ info = ⟨type, .field⟩ := by
  have hsymbols : t.symbolsAt offset =
      (root.walk path).foldl (declareVariables offset) t.fieldSymbols := by
    simp only [symbolsAt, hsource, hdeepest]
  rw [hsymbols, ← get?_fieldSymbols_iff]
  exact Table.get?_foldl_iff (fun (s : SourceNode) type => s.DeclaresLast offset n type)
    (SymbolInfo.mk · .variable) (fun _ _ _ => get?_declareVariables_iff) _ _ _

theorem exists_hasField_iff : (∃ type, t.HasField n type) ↔ ∃ f ∈ t.fields, f.name = n := by
  simp [HasField, exists_lastGives_iff]

theorem symbolsAt_scoped (hsource : t.source = some root)
    (hinside : root.span.contains offset = true) :
    ∃ path nodes, (∃ found, root.deepestAt offset = some (found, path)) ∧
      root.Descends offset path ∧ nodes.map some = path.inits.map root.at? ∧
      (∀ n,
        ((∃ type, (t.symbolsAt offset).get? n = some ⟨type, .variable⟩) ↔
          SourceNode.Declared nodes offset n) ∧
        (∀ type, (t.symbolsAt offset).get? n = some ⟨type, .variable⟩ ↔
          LastGives (fun s type => s.DeclaresLast offset n type) nodes type) ∧
        (∀ type, (t.symbolsAt offset).get? n = some ⟨type, .field⟩ ↔
          ¬ SourceNode.Declared nodes offset n ∧ t.HasField n type) ∧
        ((t.symbolsAt offset).get? n = none ↔
          ¬ SourceNode.Declared nodes offset n ∧ ∀ f ∈ t.fields, f.name ≠ n)) ∧
      ∀ names,
        (∀ n, ((t.symbolsAt offset).declareExternals names).get? n =
          if n ∈ names then some ⟨((t.symbolsAt offset).get? n).elim .any (·.type), .external⟩
          else (t.symbolsAt offset).get? n) ∧
        ∀ others, (∀ n, n ∈ names ↔ n ∈ others) →
          ((t.symbolsAt offset).declareExternals names).Same
            ((t.symbolsAt offset).declareExternals others) := by
  obtain ⟨path, hpath, -⟩ := SourceNode.existsUnique_descends_iff.mp hinside
  obtain ⟨found, hfound, -⟩ := hpath.last
  have hdeepest := SourceNode.deepestAt_eq_some_iff.mpr ⟨hpath, hfound⟩
  refine ⟨path, root.walk path, ⟨found, hdeepest⟩, hpath, SourceNode.map_walk hfound, ?_, ?_⟩
  · intro n
    have hsymbols (info : SymbolInfo) :=
      @get?_symbolsAt_iff t root offset n hsource _ _ hdeepest info
    have hvariable (type : ValueType) : (t.symbolsAt offset).get? n = some ⟨type, .variable⟩ ↔
        LastGives (fun s type => s.DeclaresLast offset n type) (root.walk path) type := by
      simp [hsymbols]
    have hfield (type : ValueType) : (t.symbolsAt offset).get? n = some ⟨type, .field⟩ ↔
        ¬ SourceNode.Declared (root.walk path) offset n ∧ t.HasField n type := by
      rw [hsymbols, ← SourceNode.exists_declaresLast_iff, not_exists]
      simp
    have hnone : (t.symbolsAt offset).get? n = none ↔
        ¬ SourceNode.Declared (root.walk path) offset n ∧ ¬ ∃ f ∈ t.fields, f.name = n := by
      rw [← SourceNode.exists_declaresLast_iff, ← exists_hasField_iff,
        Option.eq_none_iff_forall_ne_some]
      simp only [ne_eq, hsymbols]
      grind
    refine ⟨?_, hvariable, hfield, ?_⟩
    · simp only [hvariable, SourceNode.exists_declaresLast_iff]
    · simpa using hnone
  · exact fun names => ⟨SymbolTable.get?_declareExternals _ names,
      fun others h => SymbolTable.declareExternals_same _ h⟩

theorem symbolsAt_scoped_block :
    let root := SourceNode.node (.type "app.Cart") ⟨0, 100⟩ [.node (.function "total" false) ⟨5, 60⟩
      [.node (.declaration "step" .int) ⟨10, 12⟩ [], .node (.declaration "step" .float) ⟨14, 16⟩ [],
        .node .block ⟨20, 50⟩ [.node (.declaration "step" .string) ⟨25, 27⟩ []]]]
    let t : TypeDef := {
      name := "app.Cart", source := some root
      fields := [⟨"step", .bool⟩, ⟨"count", .int⟩, ⟨"count", .string⟩] }
    t.source = some root ∧ root.span.contains 22 = true ∧
      (t.symbolsAt 22).get? "step" = some ⟨.float, .variable⟩ ∧ t.HasField "count" .string ∧
      ∃ path nodes, root.Descends 22 path ∧ nodes.map some = path.inits.map root.at? ∧
        LastGives (fun s type => s.DeclaresLast 22 "step" type) nodes .float := by
  intro root t
  have hstep : (t.symbolsAt 22).get? "step" = some ⟨.float, .variable⟩ := by decide +kernel
  have hcount : (t.symbolsAt 22).get? "count" = some ⟨.string, .field⟩ := by decide +kernel
  obtain ⟨path, nodes, -, hpath, hnodes, hnames, -⟩ :=
    @symbolsAt_scoped t root 22 rfl rfl
  obtain ⟨-, hvariable, -⟩ := hnames "step"
  obtain ⟨-, -, hfield, -⟩ := hnames "count"
  exact ⟨rfl, rfl, hstep, ((hfield .string).mp hcount).2, path, nodes, hpath, hnodes,
    (hvariable .float).mp hstep⟩

end TypeDef

end SnippetEval
