import SnippetEval.Proofs.Typing.Lookup
import SnippetEval.Proofs.Typing.Reads

namespace SnippetEval

def InRange (n : Int) : Prop := -2 ^ 63 ≤ n ∧ n < 2 ^ 63

instance (n : Int) : Decidable (InRange n) := inferInstanceAs (Decidable (_ ∧ _))

namespace BinaryOp

def isArithmetic : BinaryOp → Bool
  | add | sub | mul | div | rem => true
  | _ => false

def onInts : BinaryOp → Int → Int → Int
  | add, a, b => a + b
  | sub, a, b => a - b
  | mul, a, b => a * b
  | div, a, b => a.tdiv b
  | rem, a, b => a.tmod b
  | _, _, _ => 0

end BinaryOp

inductive IntOperation
  | negate (a : Int)
  | binary (op : BinaryOp) (a b : Int)
  deriving DecidableEq

namespace IntOperation

def result : IntOperation → Int
  | negate a => -a
  | binary op a b => op.onInts a b

def byZero : IntOperation → Bool
  | negate _ => false
  | binary op _ b => (op = .div || op = .rem) && b = 0

/-- The operation has a result in range. The remainder of the least number by -1 does not count as
one, though it is zero. -/
structure Fits (o : IntOperation) : Prop where
  divides : o.byZero = false
  inRange : InRange o.result
  quotient : o ≠ binary .rem (-2 ^ 63) (-1)

def fault : IntOperation → ExecutionFault
  | negate a => { kind := .overflow, message := "-(" ++ toString a ++ ") overflows" }
  | binary op a b =>
    if (binary op a b).byZero then
      { kind := .divisionByZero, message := toString a ++ " " ++ op.symbol ++ " 0" }
    else
      { kind := .overflow
        message := toString a ++ " " ++ op.symbol ++ " " ++ toString b ++ " overflows" }

end IntOperation

namespace Expr

def isArithmetic : Expr → Bool
  | .literal (.int _) _ | .name _ => true
  | .unary .negate e _ => e.isArithmetic
  | .binary op l r _ => op.isArithmetic && (l.isArithmetic && r.isArithmetic)
  | _ => false

def exact (values : String → Int) : Expr → Int
  | .literal (.int n) _ => n.toInt
  | .name i => values i.name
  | .unary .negate e _ => -e.exact values
  | .binary op l r _ => op.onInts (l.exact values) (r.exact values)
  | _ => 0

def operations (values : String → Int) : Expr → List IntOperation
  | .unary .negate e _ => e.operations values ++ [.negate (e.exact values)]
  | .binary op l r _ =>
    l.operations values ++ (r.operations values ++ [.binary op (l.exact values) (r.exact values)])
  | _ => []

end Expr

namespace Snippet

def isArithmetic (snippet : Snippet) : Bool :=
  snippet.bindings.all (·.value.isArithmetic) && snippet.result.all Expr.isArithmetic

def bindExact (values : String → Int) (b : Binding) : String → Int :=
  Function.update values b.name.name (b.value.exact values)

def exactAfter (result : Option Expr) (values : String → Int) : List Binding → Option Int
  | [] => result.map (·.exact values)
  | b :: bs => exactAfter result (bindExact values b) bs

def operationsAfter (result : Option Expr) (values : String → Int) :
    List Binding → List IntOperation
  | [] => (result.map (·.operations values)).getD []
  | b :: bs => b.value.operations values ++ operationsAfter result (bindExact values b) bs

def exact (snippet : Snippet) (values : String → Int) : Option Int :=
  exactAfter snippet.result values snippet.bindings

def operations (snippet : Snippet) (values : String → Int) : List IntOperation :=
  operationsAfter snippet.result values snippet.bindings

end Snippet

theorem inRange_toInt (m : Int64) : InRange m.toInt := ⟨m.le_toInt, m.toInt_lt⟩

theorem int64?_cases (n : Int) :
    (InRange n ∧ ∃ m, Decimal.int64? n = some m ∧ m.toInt = n) ∨
      ¬ InRange n ∧ Decimal.int64? n = none := by
  cases h : Decimal.int64? n with
  | some m =>
    have hm := Decimal.int64?_eq_some_iff.mp h
    exact .inl ⟨hm ▸ inRange_toInt m, m, rfl, hm⟩
  | none =>
    refine .inr ⟨?_, rfl⟩
    rintro ⟨hlow, hhigh⟩
    rw [Decimal.int64?_eq_some_iff.mpr (Int64.toInt_ofInt_of_le hlow hhigh)] at h
    cases h

theorem inRange_tdiv_iff {a b : Int} (ha : InRange a) (hb : b ≠ 0) :
    InRange (a.tdiv b) ↔ ¬ (a = -2 ^ 63 ∧ b = -1) := by
  obtain ⟨hlow, hhigh⟩ := ha
  have habs : (a.tdiv b).natAbs = a.natAbs / b.natAbs := Int.natAbs_tdiv a b
  by_cases hone : b = -1
  · subst hone
    have hneg : a.tdiv (-1) = -a := by rw [Int.tdiv_neg, Int.tdiv_one]
    rw [hneg, InRange]
    omega
  · -- The quotient by 1 is the dividend, and by any other divisor at most half of it.
    have hquotient : InRange (a.tdiv b) := by
      by_cases hunit : b = 1
      · subst hunit
        rw [Int.tdiv_one]
        exact ⟨hlow, hhigh⟩
      · have hhalf : a.natAbs / b.natAbs ≤ a.natAbs / 2 :=
          Nat.div_le_div_left (by omega) (by decide)
        rw [InRange]
        omega
    simp [hquotient, hone]

/-- How a run ends that goes through the operations: with the number if each fits, and otherwise
with the fault of the first that does not. Where there is no number it ends with null. -/
inductive Settles : List IntOperation → Option Int → Run Value → Prop
  | number {ops : List IntOperation} {m : Int64} : (∀ o ∈ ops, o.Fits) →
      Settles ops (some m.toInt) (.ok (.int m))
  | null {ops : List IntOperation} : (∀ o ∈ ops, o.Fits) → Settles ops none (.ok .null)
  | fault {before after : List IntOperation} {o : IntOperation} {n : Option Int} :
      (∀ p ∈ before, p.Fits) → ¬ o.Fits → Settles (before ++ o :: after) n (.error o.fault)

namespace Settles

variable {ops more : List IntOperation} {n : Int} {k : Option Int} {x : Run Value}

theorem prepend (hops : ∀ o ∈ ops, o.Fits) (h : Settles more k x) : Settles (ops ++ more) k x := by
  have hall {qs : List IntOperation} (hqs : ∀ o ∈ qs, o.Fits) : ∀ o ∈ ops ++ qs, o.Fits :=
    List.forall_mem_append.mpr ⟨hops, hqs⟩
  cases h with
  | number hmore => exact .number (hall hmore)
  | null hmore => exact .null (hall hmore)
  | fault hbefore ho =>
    rw [← List.append_assoc]
    exact .fault (hall hbefore) ho

theorem bind {g : Value → Run Value} (h : Settles ops (some n) x)
    (hg : ∀ m : Int64, m.toInt = n → Settles more k (g (.int m))) :
    Settles (ops ++ more) k (x >>= g) := by
  cases h with
  | number hops => exact prepend hops (hg _ rfl)
  | fault hbefore ho =>
    rw [List.append_assoc, List.cons_append]
    exact .fault hbefore ho

theorem ok_iff (h : Settles ops k x) : (∃ v, x = .ok v) ↔ ∀ o ∈ ops, o.Fits := by
  cases h with
  | number hops => simpa using hops
  | null hops => simpa using hops
  | @fault before after o _ hbefore ho =>
    have hmem : o ∈ before ++ o :: after := by simp
    exact iff_of_false (by simp) fun hops => ho (hops o hmem)

theorem ok (h : Settles ops k x) {v : Value} (hv : x = .ok v) :
    (∃ m : Int64, k = some m.toInt ∧ v = .int m) ∨ k = none ∧ v = .null := by
  cases h with
  | @number _ m hops =>
    cases hv
    exact .inl ⟨m, rfl, rfl⟩
  | null hops =>
    cases hv
    exact .inr ⟨rfl, rfl⟩
  | fault hbefore ho => cases hv

open Classical in
theorem find?_unfit {before : List IntOperation} (after : List IntOperation) {o : IntOperation}
    (hbefore : ∀ p ∈ before, p.Fits) (ho : ¬ o.Fits) :
    (before ++ o :: after).find? (fun p => decide (¬ p.Fits)) = some o :=
  List.find?_eq_some_iff_append.mpr ⟨by simpa using ho, before, after, rfl, by simpa using hbefore⟩

theorem error {before after : List IntOperation} {o : IntOperation}
    (h : Settles (before ++ o :: after) k x) (hbefore : ∀ p ∈ before, p.Fits) (ho : ¬ o.Fits) :
    x = .error o.fault := by
  generalize hops : before ++ o :: after = ops at h
  have hmem : o ∈ ops := by simp [← hops]
  cases h with
  | number hfits => exact absurd (hfits o hmem) ho
  | null hfits => exact absurd (hfits o hmem) ho
  | fault hbefore' ho' =>
    have hfirst := find?_unfit after hbefore ho
    rw [hops, find?_unfit _ hbefore' ho'] at hfirst
    cases hfirst
    rfl

end Settles

theorem Settles.single_fault {o : IntOperation} (h : ¬ o.Fits) (n : Option Int) :
    Settles [o] n (.error o.fault) := by
  have hnone : ∀ p ∈ ([] : List IntOperation), p.Fits := by simp
  exact .fault hnone h

theorem settles_negate (m : Int64) :
    Settles [.negate m.toInt] (some (-m.toInt)) (UnaryOp.negate.apply (.int m)) := by
  have hfits : (IntOperation.negate m.toInt).Fits ↔ InRange (-m.toInt) :=
    ⟨fun h => h.inRange, fun h => ⟨rfl, h, by simp⟩⟩
  rcases int64?_cases (-m.toInt) with ⟨h, k, hk, hkm⟩ | ⟨h, hnone⟩
  · simp only [UnaryOp.apply, hk]
    rw [← hkm]
    exact .number (by simpa using hfits.mpr h)
  · simp only [UnaryOp.apply, hnone]
    exact .single_fault (mt hfits.mp h) _

namespace BinaryOp

variable {op : BinaryOp} {a b : Int}

theorem exact_eq (hop : op.isArithmetic = true) (a b : Int) : op.exact a b =
    if (IntOperation.binary op a b).byZero = true then none else some (op.onInts a b) := by
  cases op <;> first | simp [BinaryOp.exact, IntOperation.byZero, onInts]; done | cases hop

theorem fits_iff (ha : InRange a) (hzero : (IntOperation.binary op a b).byZero = false) :
    (IntOperation.binary op a b).Fits ↔
      InRange (op.onInts a b) ∧ InRange (if op = rem then a.tdiv b else 0) := by
  have hquotient : InRange (if op = rem then a.tdiv b else 0) ↔
      IntOperation.binary op a b ≠ .binary .rem (-2 ^ 63) (-1) := by
    by_cases hrem : op = rem
    · subst hrem
      have hb : b ≠ 0 := by simpa [IntOperation.byZero] using hzero
      rw [if_pos rfl, inRange_tdiv_iff ha hb]
      simp
    · simp [hrem, InRange]
  rw [hquotient]
  exact ⟨fun h => ⟨h.inRange, h.quotient⟩, fun h => ⟨hzero, h.1, h.2⟩⟩

theorem settles_applyInt (hop : op.isArithmetic = true) (ha : InRange a) :
    Settles [.binary op a b] (some (op.onInts a b)) (op.applyInt a b) := by
  have hcomparison : op.isComparison = false := by
    cases op <;> first | rfl | cases hop
  have hstop (h : ¬ (IntOperation.binary op a b).Fits) := Settles.single_fault h (some (op.onInts a b))
  simp only [applyInt, hcomparison, Bool.false_eq_true, if_false, exact_eq hop]
  cases hzero : (IntOperation.binary op a b).byZero with
  | true =>
    have hfits : ¬ (IntOperation.binary op a b).Fits := fun h => by simp [h.divides] at hzero
    simpa [IntOperation.fault, hzero, fault] using hstop hfits
  | false =>
    have hfits := fits_iff ha hzero
    simp only [Bool.false_eq_true, if_false]
    rcases int64?_cases (op.onInts a b) with ⟨hresult, m, hm, hmn⟩ | ⟨hresult, hnone⟩
    · rcases int64?_cases (if op = rem then a.tdiv b else 0) with
        ⟨hquotient, k, hk, -⟩ | ⟨hquotient, hnone⟩
      · rw [hm, hk, ← hmn]
        exact .number (by simpa using hfits.mpr ⟨hresult, hquotient⟩)
      · rw [hm, hnone]
        simpa [IntOperation.fault, hzero, fault] using hstop fun h => hquotient (hfits.mp h).2
    · rw [hnone]
      simpa [IntOperation.fault, hzero, fault] using hstop fun h => hresult (hfits.mp h).1

theorem settles_binary (hop : op.isArithmetic = true) (a b : Int64) :
    Settles [.binary op a.toInt b.toInt] (some (op.onInts a.toInt b.toInt))
      (op.apply (.int a) (.int b)) := by
  have happly : op.apply (.int a) (.int b) = op.applyInt a.toInt b.toInt := by
    cases op <;> first | rfl | cases hop
  rw [happly]
  exact settles_applyInt hop (inRange_toInt a)

end BinaryOp

namespace Frame

variable {f : Frame} {values : String → Int}

def Holds (f : Frame) (values : String → Int) (n : String) : Prop :=
  ∃ m : Int64, f.read n = .ok (.int m) ∧ m.toInt = values n

theorem settles_eval {e : Expr} (he : e.isArithmetic = true)
    (hread : ∀ n ∈ e.names, f.Holds values n) :
    Settles (e.operations values) (some (e.exact values)) (f.eval e) := by
  induction e with
  | literal l span =>
    cases l with
    | int n => exact .number (by simp [Expr.operations])
    | _ => cases he
  | name i =>
    obtain ⟨m, hm, hvalue⟩ := hread i.name (List.mem_singleton.mpr rfl)
    rw [eval, hm, Expr.exact, ← hvalue]
    exact .number (by simp [Expr.operations])
  | this span => cases he
  | field e i span ih => cases he
  | unary op e span ih =>
    cases op with
    | negate =>
      apply (ih he hread).bind
      intro m hm
      simp only [Expr.exact, ← hm]
      exact settles_negate m
    | not => cases he
  | binary op l r span ihl ihr =>
    simp only [Expr.isArithmetic, Bool.and_eq_true] at he
    obtain ⟨hop, hl, hr⟩ := he
    have hlogical : op.isLogical = false := by
      cases op <;> first | rfl | cases hop
    rw [eval_binary hlogical]
    apply (ihl hl fun n hn => hread n (List.mem_append_left r.names hn)).bind
    intro a ha
    apply (ihr hr fun n hn => hread n (List.mem_append_right l.names hn)).bind
    intro b hb
    simp only [Expr.exact, ← ha, ← hb]
    exact BinaryOp.settles_binary hop a b

theorem run_cons (f : Frame) (b : Binding) (bs : List Binding) (result : Option Expr)
    (span : Span) : f.run ⟨b :: bs, result, span⟩ = f.eval b.value >>= fun v =>
      run { f with bound := f.bound.insert b.name.name v } ⟨bs, result, span⟩ := by
  simp only [run, runBindings, bind_assoc]

theorem holds_bind {b : Binding} {m : Int64} (hm : m.toInt = b.value.exact values) {n : String}
    (hn : n ≠ b.name.name → f.Holds values n) :
    Holds { f with bound := f.bound.insert b.name.name (.int m) } (Snippet.bindExact values b) n := by
  by_cases hb : n = b.name.name
  · subst hb
    refine ⟨m, ?_, by simp [Snippet.bindExact, hm]⟩
    exact read_bound (by simp [Table.get?_insert])
  · obtain ⟨k, hk, hvalue⟩ := hn hb
    refine ⟨k, ?_, by simp [Snippet.bindExact, hb, hvalue]⟩
    rw [← hk, read, read]
    simp [Table.get?_insert, hb, getReceiver]

end Frame

section

variable {b : Binding} {bs : List Binding} {result : Option Expr} {span : Span} {n : String}

theorem readsFree_result {e : Expr} (hn : n ∈ e.names) :
    Snippet.ReadsFree ⟨[], some e, span⟩ n := by
  obtain ⟨i, rfl, hi⟩ := within_of_mem_names hn
  exact ⟨[], e, i.span, .inr ⟨rfl, rfl⟩, hi, by simp⟩

theorem readsFree_value (hn : n ∈ b.value.names) :
    Snippet.ReadsFree ⟨b :: bs, result, span⟩ n := by
  obtain ⟨i, rfl, hi⟩ := within_of_mem_names hn
  exact ⟨[], b.value, i.span, .inl ⟨b, bs, rfl, rfl⟩, hi, by simp⟩

theorem readsFree_cons (hb : n ≠ b.name.name) (h : Snippet.ReadsFree ⟨bs, result, span⟩ n) :
    Snippet.ReadsFree ⟨b :: bs, result, span⟩ n := by
  obtain ⟨cs, e, s, hfollows, hn, hfree⟩ := h
  refine ⟨b :: cs, e, s, ?_, hn, List.forall_mem_cons.mpr ⟨hb.symm, hfree⟩⟩
  rcases hfollows with ⟨c, rest, hbs, he⟩ | ⟨hbs, he⟩
  · exact .inl ⟨c, rest, congrArg (b :: ·) hbs, he⟩
  · exact .inr ⟨congrArg (b :: ·) hbs, he⟩

theorem isArithmetic_cons : Snippet.isArithmetic ⟨b :: bs, result, span⟩ = true ↔
    b.value.isArithmetic = true ∧ Snippet.isArithmetic ⟨bs, result, span⟩ = true := by
  simp [Snippet.isArithmetic, and_assoc]

theorem Frame.settles_run {f : Frame} {values : String → Int}
    (h : Snippet.isArithmetic ⟨bs, result, span⟩ = true)
    (hread : ∀ n, Snippet.ReadsFree ⟨bs, result, span⟩ n → f.Holds values n) :
    Settles (Snippet.operationsAfter result values bs) (Snippet.exactAfter result values bs)
      (f.run ⟨bs, result, span⟩) := by
  induction bs generalizing f values with
  | nil =>
    cases result with
    | none => exact .null (by simp [Snippet.operationsAfter])
    | some e => exact settles_eval h fun n hn => hread n (readsFree_result hn)
  | cons b bs ih =>
    obtain ⟨hb, hbs⟩ := isArithmetic_cons.mp h
    have hvalue := settles_eval hb fun n hn => hread n (readsFree_value hn)
    rw [run_cons]
    apply hvalue.bind
    intro m hm
    -- The binding changes the frame and the values alike.
    apply ih hbs
    intro n hn
    exact holds_bind hm fun hb => hread n (readsFree_cons hb hn)

end

section

variable {s : Scope} {b : Binding} {bs : List Binding} {result : Option Expr} {span : Span}

def Scope.Offers (s : Scope) (n : String) : Prop :=
  (∃ t, s.bound.get? n = some t ∧ t.mayBe .int = true) ∨
    s.bound.get? n = none ∧
      ∃ t k, s.symbols.get? n = some ⟨t, k⟩ ∧ k ≠ .field ∧ t.mayBe .int = true

theorem inferName_offered {i : Ident} (h : s.Offers i.name) :
    (s.inferName i).1.mayBe .int = true ∧ (s.inferName i).2.issues = [] := by
  rcases h with ⟨t, ht, hint⟩ | ⟨hb, t, k, ht, hk, hint⟩
  · simp [Scope.inferName, ht, hint]
  · cases k with
    | field => exact absurd rfl hk
    | _ => simp [Scope.inferName, hb, ht, hint]

theorem negate_resultType {t : ValueType} (ht : t.mayBe .int = true) :
    UnaryOp.negate.resultType t = some t := by
  rcases ValueType.mayBe_iff.mp ht with rfl | rfl <;> rfl

theorem resultType_of_isArithmetic {op : BinaryOp} (hop : op.isArithmetic = true)
    {t u : ValueType} (ht : t.mayBe .int = true) (hu : u.mayBe .int = true) :
    ∃ w, op.resultType t u = some w ∧ w.mayBe .int = true := by
  have hint : op.resultType .int .int = some .int := by
    cases op <;> first | rfl | cases hop
  rcases BinaryOp.resultType_mono ht hu hint with h | ⟨-, -, hstring, -⟩
  · exact h
  · rcases hstring with hstring | hstring <;> cases hstring

theorem infer_arithmetic {e : Expr} (he : e.isArithmetic = true) (h : ∀ n ∈ e.names, s.Offers n) :
    (infer s e).1.mayBe .int = true ∧ (infer s e).2.issues = [] := by
  induction e with
  | literal l span =>
    cases l with
    | int n => exact ⟨rfl, rfl⟩
    | _ => cases he
  | name i => exact inferName_offered (h i.name (List.mem_singleton.mpr rfl))
  | this span => cases he
  | field e i span ih => cases he
  | unary op e span ih =>
    cases op with
    | negate =>
      obtain ⟨ht, hissues⟩ := ih he h
      simp only [infer, negate_resultType ht]
      exact ⟨ht, hissues⟩
    | not => cases he
  | binary op l r span ihl ihr =>
    simp only [Expr.isArithmetic, Bool.and_eq_true] at he
    obtain ⟨hop, hl, hr⟩ := he
    obtain ⟨ht, hleft⟩ := ihl hl fun n hn => h n (List.mem_append_left r.names hn)
    obtain ⟨hu, hright⟩ := ihr hr fun n hn => h n (List.mem_append_right l.names hn)
    obtain ⟨w, hw, hint⟩ := resultType_of_isArithmetic hop ht hu
    simp only [infer, hw, issues_append, hleft, hright]
    exact ⟨hint, rfl⟩

theorem errors_check_cons : (Snippet.check ⟨b :: bs, result, span⟩ s).errors =
    (infer s b.value).2.errors ++
      (Snippet.check ⟨bs, result, span⟩ (checkBinding s b).2).errors := by
  have hvalue : (checkBinding s b).1.issues.filter Diagnostic.isError =
      (infer s b.value).2.issues.filter Diagnostic.isError :=
    congrArg Findings.issues (withoutWarnings_checkBinding s b)
  cases result <;> simp [Snippet.check, checkBindings, Findings.errors, hvalue]

theorem offers_bind {n : String} (hb : (infer s b.value).1.mayBe .int = true)
    (hn : n ≠ b.name.name → s.Offers n) : (checkBinding s b).2.Offers n := by
  rw [checkBinding_scope]
  by_cases hname : n = b.name.name
  · exact .inl ⟨_, by simp [Table.get?_insert, hname], hb⟩
  · simpa [Scope.Offers, Table.get?_insert, hname] using hn hname

theorem check_arithmetic (h : Snippet.isArithmetic ⟨bs, result, span⟩ = true)
    (hn : ∀ n, Snippet.ReadsFree ⟨bs, result, span⟩ n → s.Offers n) :
    (Snippet.check ⟨bs, result, span⟩ s).errors = [] := by
  induction bs generalizing s with
  | nil =>
    cases result with
    | none => rfl
    | some e =>
      have he := infer_arithmetic h fun n he => hn n (readsFree_result he)
      simp [Snippet.check, checkBindings, Findings.errors, he.2]
  | cons b bs ih =>
    obtain ⟨hb, hbs⟩ := isArithmetic_cons.mp h
    obtain ⟨hint, hissues⟩ := infer_arithmetic hb fun n he => hn n (readsFree_value he)
    have hvalue : (infer s b.value).2.errors = [] := by rw [Findings.errors, hissues]; rfl
    rw [errors_check_cons, hvalue, List.nil_append]
    apply ih hbs
    intro n hfree
    exact offers_bind hint fun hne => hn n (readsFree_cons hne hfree)

end

end SnippetEval
