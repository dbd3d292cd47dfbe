import SnippetEval.Description.Host
import SnippetEval.Proofs.Except
import SnippetEval.Proofs.Table

namespace SnippetEval.Description

open Json

inductive IsFieldValue : Json → Prop
  | null : IsFieldValue .null
  | bool (b : Bool) : IsFieldValue (.bool b)
  | number (n : Option Json.Number) : IsFieldValue (.number n)
  | string (s : Option String) : IsFieldValue (.string s)
  | ref {members : List (Option String × Json)} {ending : Option Flaw} {id : String} :
      (∀ m ∈ members, m.1 = some "ref") →
      members.getLast? = some (some "ref", .string (some id)) →
      IsFieldValue (.object members ending)

section object

variable {members : List (Option String × Json)} {ending : Option Flaw}

theorem fieldValue_eq_ref_iff {id : String} : fieldValue (.object members ending) = .ref id ↔
    (∀ m ∈ members, m.1 = some "ref") ∧
      members.getLast? = some (some "ref", .string (some id)) := by
  constructor
  · intro h
    simp only [fieldValue] at h
    split at h
    · next last rest hreverse =>
      split at h
      · next hall =>
        cases h
        have hmembers : members = rest.reverse ++ [(some "ref", .string (some id))] := by
          rw [← members.reverse_reverse, hreverse, List.reverse_cons]
        refine ⟨?_, by simp [hmembers]⟩
        intro m hm
        rw [hmembers, List.mem_append, List.mem_reverse, List.mem_singleton] at hm
        rcases hm with hm | rfl
        · simpa using List.all_eq_true.mp hall m hm
        · rfl
      · cases h
    · cases h
  · rintro ⟨hkeys, hlast⟩
    obtain ⟨rest, rfl⟩ := List.getLast?_eq_some_iff.mp hlast
    have hall : rest.reverse.all (·.1 = some "ref") = true := by
      simp only [List.all_eq_true, List.mem_reverse, decide_eq_true_eq]
      exact fun m hm => hkeys m (List.mem_append_left _ hm)
    simp [fieldValue, hall]

theorem exists_ref_of_supported (h : fieldValue (.object members ending) ≠ .unsupported) :
    ∃ id, fieldValue (.object members ending) = .ref id := by
  simp only [fieldValue] at h ⊢
  split at h
  · next id rest hreverse =>
    split at h
    · next hall => exact ⟨id, if_pos hall⟩
    · exact absurd rfl h
  · exact absurd rfl h

theorem fieldValue_object_iff : fieldValue (.object members ending) ≠ .unsupported ↔
    IsFieldValue (.object members ending) := by
  constructor
  · intro h
    obtain ⟨id, hid⟩ := exists_ref_of_supported h
    obtain ⟨hkeys, hlast⟩ := fieldValue_eq_ref_iff.mp hid
    exact .ref hkeys hlast
  · intro h
    cases h with
    | ref hkeys hlast =>
      rw [fieldValue_eq_ref_iff.mpr ⟨hkeys, hlast⟩]
      nofun

end object

theorem fieldValue_supported_iff {depth : Nat} {v : Json} (h : check depth v = .ok ()) :
    fieldValue v ≠ .unsupported ↔ IsFieldValue v := by
  cases v with
  | null => exact iff_of_true (by simp [fieldValue]) .null
  | bool b => exact iff_of_true (by simp [fieldValue]) (.bool b)
  | number n =>
    refine iff_of_true ?_ (.number n)
    match n with
    | none => cases depth <;> cases h
    | some (.float x) => simp [fieldValue]
    | some (.integer n) =>
      simp only [fieldValue]
      split <;> simp
  | string s =>
    refine iff_of_true ?_ (.string s)
    match s with
    | none => cases depth <;> cases h
    | some s => simp [fieldValue]
  | array items ending => exact iff_of_false (by simp [fieldValue]) (by rintro ⟨⟩)
  | object members ending => exact fieldValue_object_iff
  | flaw f => exact iff_of_false (by simp [fieldValue]) (by rintro ⟨⟩)

/-- The value that a JSON value stands for in a field. A whole number that no integer holds is a
float. -/
inductive Means : Json → FieldValue → Prop
  | null : Means .null .null
  | bool (b : Bool) : Means (.bool b) (.bool b)
  | int (n : Int64) : Means (.number (some (.integer n.toInt))) (.int n)
  | large {n : Int} : (∀ m : Int64, m.toInt ≠ n) →
      Means (.number (some (.integer n))) (.float (Json.Number.toFloat n.toNat))
  | float (x : Float) : Means (.number (some (.float x))) (.float x)
  | text (s : String) : Means (.string (some s)) (.text s)
  | ref {members : List (Option String × Json)} {ending : Option Flaw} {id : String} :
      (∀ m ∈ members, m.1 = some "ref") →
      members.getLast? = some (some "ref", .string (some id)) →
      Means (.object members ending) (.ref id)
  | unsupported {v : Json} : ¬ IsFieldValue v → Means v .unsupported

variable {depth : Nat} {v : Json} {f : FieldValue}

theorem means_fieldValue (h : check depth v = .ok ()) : Means v (fieldValue v) := by
  by_cases hv : IsFieldValue v
  · cases hv with
    | null => exact .null
    | bool b => exact .bool b
    | number n =>
      match n with
      | none => cases depth <;> cases h
      | some (.float x) => exact .float x
      | some (.integer n) =>
        simp only [fieldValue]
        split
        · next m hm =>
          rw [← Decimal.int64?_eq_some_iff.mp hm]
          exact .int m
        · next hnone =>
          refine .large fun m hm => ?_
          rw [Decimal.int64?_eq_some_iff.mpr hm] at hnone
          cases hnone
    | string s =>
      match s with
      | none => cases depth <;> cases h
      | some s => exact .text s
    | ref hkeys hlast =>
      rw [fieldValue_eq_ref_iff.mpr ⟨hkeys, hlast⟩]
      exact .ref hkeys hlast
  · rw [not_not.mp (mt (fieldValue_supported_iff h).mp hv)]
    exact .unsupported hv

theorem fieldValue_eq_iff (h : check depth v = .ok ()) : fieldValue v = f ↔ Means v f := by
  constructor
  · rintro rfl
    exact means_fieldValue h
  · intro hf
    cases hf with
    | int n =>
      have hn : Decimal.int64? n.toInt = some n := Decimal.int64?_eq_some_iff.mpr rfl
      simp only [fieldValue, hn]
    | @large n hn =>
      have hnone : Decimal.int64? n = none := by
        rw [Option.eq_none_iff_forall_ne_some]
        exact fun m hm => hn m (Decimal.int64?_eq_some_iff.mp hm)
      simp only [fieldValue, hnone]
    | ref hkeys hlast => exact fieldValue_eq_ref_iff.mpr ⟨hkeys, hlast⟩
    | unsupported hv => exact not_not.mp (mt (fieldValue_supported_iff h).mp hv)
    | _ => rfl

theorem wrongType_ne_ok {α : Type} {expected : String} {a : α} :
    v.wrongType expected ≠ .ok a := by
  intro h
  obtain ⟨found, -, hfail⟩ := bind_eq_ok_iff.mp h
  cases hfail

theorem readKey_eq_ok_iff {key : Option String} {k : String} :
    readKey key = .ok k ↔ key = some k := by
  cases key <;> simp [readKey]

theorem mapM_fieldValue_eq_ok {members : List (Option String × Json)}
    {entries : List (String × FieldValue)}
    (h : members.mapM (fun (key, w) => do
      let k ← readKey key
      check depth w
      return (k, fieldValue w)) = Except.ok entries) :
    ∃ ms : List (String × Json), members = ms.map (fun m => (some m.1, m.2)) ∧
      (∀ m ∈ ms, check depth m.2 = .ok ()) ∧ entries = ms.map (fun m => (m.1, fieldValue m.2)) := by
  induction members generalizing entries with
  | nil =>
    cases h
    exact ⟨[], rfl, nofun, rfl⟩
  | cons m members ih =>
    obtain ⟨key, w⟩ := m
    rw [List.mapM_cons, bind_eq_ok_iff] at h
    obtain ⟨e, he, h⟩ := h
    obtain ⟨rest, hrest, h⟩ := bind_eq_ok_iff.mp h
    obtain ⟨k, hk, he⟩ := bind_eq_ok_iff.mp he
    obtain ⟨⟨⟩, hcheck, he⟩ := bind_eq_ok_iff.mp he
    cases he
    cases h
    obtain ⟨ms, rfl, hall, rfl⟩ := ih hrest
    exact ⟨(k, w) :: ms, by rw [readKey_eq_ok_iff.mp hk]; rfl,
      List.forall_mem_cons.mpr ⟨hcheck, hall⟩, rfl⟩

theorem get?_ofList_iff {ms : List (String × Json)} {n : String} :
    (Table.ofList (ms.map fun m => (m.1, fieldValue m.2))).get? n = some f ↔
      ∃ w, LastGives (fun m w => m = (n, w)) ms w ∧ fieldValue w = f := by
  have hstep (t : Table String FieldValue) (m : String × Json) (f : FieldValue) :
      (t.insert m.1 (fieldValue m.2)).get? n = some f ↔
        (∃ w, m = (n, w) ∧ f = fieldValue w) ∨ (∀ w, m ≠ (n, w)) ∧ t.get? n = some f := by
    obtain ⟨k, w⟩ := m
    rw [Table.get?_insert]
    by_cases hk : n = k
    · simp [hk, eq_comm]
    · simp [hk, Ne.symm hk]
  rw [Table.ofList, List.foldl_map]
  refine (Table.get?_foldl_iff _ fieldValue hstep ms .empty f).trans ?_
  simp [eq_comm]

theorem readFieldValues_eq_ok {fields : Table String FieldValue}
    (h : readFieldValues depth v = .ok fields) :
    ∃ ms : List (String × Json), v = .object (ms.map fun m => (some m.1, m.2)) none ∧
      ∀ n f, fields.get? n = some f ↔
        ∃ w, LastGives (fun m w => m = (n, w)) ms w ∧ Means w f := by
  cases v with
  | object members ending =>
    obtain ⟨inner, -, h⟩ := bind_eq_ok_iff.mp h
    obtain ⟨entries, hentries, h⟩ := bind_eq_ok_iff.mp h
    obtain ⟨⟨⟩, hending, h⟩ := bind_eq_ok_iff.mp h
    cases h
    obtain ⟨ms, rfl, hcheck, rfl⟩ := mapM_fieldValue_eq_ok hentries
    cases ending with
    | some flaw => cases hending
    | none =>
      refine ⟨ms, rfl, fun n f => get?_ofList_iff.trans (exists_congr fun w => ?_)⟩
      refine and_congr_right fun hlast => fieldValue_eq_iff (hcheck (n, w) ?_)
      obtain ⟨before, m, after, rfl, rfl, -⟩ := hlast
      simp
  | _ => exact absurd h wrongType_ne_ok

end SnippetEval.Description
