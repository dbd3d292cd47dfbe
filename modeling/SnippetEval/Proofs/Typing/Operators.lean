import SnippetEval.Snippet.Running
import SnippetEval.Snippet.Typing
/-!
The operators on types and on values. On the types of values the tables are exact: an operator gives
a value of the type in the table, or it faults, and it faults with a type mismatch just where the
table has no entry. On `any` the tables are what they are on some type of value, except for `+`.
-/

namespace SnippetEval

namespace ValueType

theorem mayBe_iff {t u : ValueType} : t.mayBe u = true ↔ t = u ∨ t = .any := by
  simp [mayBe]

theorem mayBe_refl (t : ValueType) : t.mayBe t = true := mayBe_iff.mpr (.inl rfl)

theorem mayBe_trans {t u w : ValueType} (htu : t.mayBe u = true) (huw : u.mayBe w = true) :
    t.mayBe w = true := by
  rcases mayBe_iff.mp htu with rfl | rfl
  · exact huw
  · exact mayBe_iff.mpr (.inr rfl)

theorem any_mayBe (t : ValueType) : ValueType.any.mayBe t = true := mayBe_iff.mpr (.inr rfl)

end ValueType

theorem comparisonType_eq_bool {l r w : ValueType} (h : comparisonType l r = some w) :
    w = .bool := by
  unfold comparisonType at h
  split at h
  · exact (Option.some.inj h).symm
  · cases h

theorem comparisonType_of_any {l r : ValueType} (h : l = .any ∨ r = .any) :
    comparisonType l r = some .bool := by
  rcases h with rfl | rfl <;> simp [comparisonType]

theorem arithmeticType_isSome_iff (l r : ValueType) :
    (∃ w, arithmeticType l r = some w) ↔
      (l.isNumeric = true ∨ l = .any) ∧ (r.isNumeric = true ∨ r = .any) := by
  cases l <;> cases r <;> simp [arithmeticType, ValueType.isNumeric]

theorem arithmeticType_of_any {l r w : ValueType} (h : arithmeticType l r = some w)
    (hany : l = .any ∨ r = .any) : w = .any := by
  rcases hany with rfl | rfl
  · cases r <;> simp_all [arithmeticType, ValueType.isNumeric]
  · cases l <;> simp_all [arithmeticType, ValueType.isNumeric]

namespace UnaryOp

theorem apply_ok {op : UnaryOp} {a v : Value} (h : op.apply a = .ok v) :
    op.resultType a.type = some v.type := by
  unfold apply at h
  split at h
  · split at h
    · cases h; rfl
    · cases h
  · cases h; rfl
  · cases h; rfl
  · cases h

theorem apply_error {op : UnaryOp} {a : Value} {x : ExecutionFault} (h : op.apply a = .error x) :
    x.kind = .overflow ∨ x.kind = .typeMismatch ∧ op.resultType a.type = none := by
  unfold apply at h
  split at h
  · split at h
    · cases h
    · cases h; exact .inl rfl
  · cases h
  · cases h
  · cases h
    refine .inr ⟨rfl, ?_⟩
    cases op <;> cases a <;> simp_all [resultType, Value.type, ValueType.isNumeric,
      ValueType.mayBe]

theorem resultType_mono {op : UnaryOp} {t u w : ValueType} (ht : t.mayBe u = true)
    (h : op.resultType u = some w) : ∃ w', op.resultType t = some w' ∧ w'.mayBe w = true := by
  rcases ValueType.mayBe_iff.mp ht with rfl | rfl
  · exact ⟨w, h, w.mayBe_refl⟩
  · cases op with
    | negate => exact ⟨.any, rfl, w.any_mayBe⟩
    | not =>
      have hw : w = .bool := by simp_all [resultType]
      exact ⟨.bool, rfl, ValueType.mayBe_iff.mpr (.inl hw.symm)⟩

theorem resultType_ne_any {op : UnaryOp} {t w : ValueType} (ht : t ≠ .any)
    (h : op.resultType t = some w) : w ≠ .any := by
  unfold resultType at h
  split at h
  · split at h
    · exact Option.some.inj h ▸ ht
    · cases h
  · split at h
    · simp [← Option.some.inj h]
    · cases h

end UnaryOp

namespace BinaryOp

def isOrdered : BinaryOp → Bool
  | equal | notEqual | and | or => false
  | _ => true

def orderedType (op : BinaryOp) (l r : ValueType) : Option ValueType :=
  if op.isComparison then comparisonType l r else arithmeticType l r

theorem resultType_of_isOrdered {op : BinaryOp} (hop : op.isOrdered = true) (l r : ValueType) :
    op.resultType l r =
      if op = add ∧ (l = .string ∨ r = .string) then some .string else op.orderedType l r := by
  cases op <;> simp_all [isOrdered, resultType, orderedType, isComparison]

theorem applyInt_ok {op : BinaryOp} {a b : Int} {v : Value} (h : op.applyInt a b = .ok v) :
    v.type = if op.isComparison then .bool else .int := by
  unfold applyInt at h
  split at h
  · next hc => cases h; simp [Value.type, hc]
  · next hc =>
    simp only at h
    split at h
    · cases h
    · split at h
      · cases h; simp [Value.type, hc]
      · cases h

theorem applyInt_error {op : BinaryOp} {a b : Int} {x : ExecutionFault}
    (h : op.applyInt a b = .error x) : x.kind = .divisionByZero ∨ x.kind = .overflow := by
  unfold applyInt at h
  split at h
  · cases h
  · simp only at h
    split at h
    · cases h; exact .inl rfl
    · split at h
      · cases h
      · cases h; exact .inr rfl

theorem applyFloat_type {op : BinaryOp} (hop : op.isOrdered = true) (a b : Float) :
    (op.applyFloat a b).type = if op.isComparison then .bool else .float := by
  cases op <;> simp_all [isOrdered, applyFloat, Value.type, isComparison]

theorem orderedType_applyFloat {op : BinaryOp} (hop : op.isOrdered = true) {l r : ValueType}
    (hcomparison : comparisonType l r = some .bool) (harithmetic : arithmeticType l r = some .float)
    (a b : Float) : op.orderedType l r = some (op.applyFloat a b).type := by
  rw [applyFloat_type hop, orderedType]
  split
  · exact hcomparison
  · exact harithmetic

theorem applyOrdered_ok {op : BinaryOp} (hop : op.isOrdered = true) {a b v : Value}
    (h : op.applyOrdered a b = .ok v) : op.orderedType a.type b.type = some v.type := by
  unfold applyOrdered at h
  split at h
  · rw [applyInt_ok h]
    simp only [orderedType, Value.type]
    split <;> rfl
  · cases h
    exact orderedType_applyFloat hop rfl rfl _ _
  · cases h
    exact orderedType_applyFloat hop rfl rfl _ _
  · cases h
    exact orderedType_applyFloat hop rfl rfl _ _
  · split at h
    · next hc =>
      cases h
      simp [orderedType, Value.type, hc, comparisonType]
    · cases h
  · cases h

theorem applyOrdered_error {op : BinaryOp} {a b : Value} {x : ExecutionFault}
    (h : op.applyOrdered a b = .error x) :
    x.kind = .divisionByZero ∨ x.kind = .overflow ∨
      x.kind = .typeMismatch ∧ op.orderedType a.type b.type = none := by
  unfold applyOrdered at h
  split at h
  · rcases applyInt_error h with hx | hx
    · exact .inl hx
    · exact .inr (.inl hx)
  · cases h
  · cases h
  · cases h
  · split at h
    · cases h
    · next hc =>
      cases h
      refine .inr (.inr ⟨rfl, ?_⟩)
      simp [orderedType, Value.type, hc, arithmeticType, ValueType.isNumeric]
  · cases h
    refine .inr (.inr ⟨rfl, ?_⟩)
    cases a <;> cases b <;> simp_all [orderedType, Value.type, comparisonType, arithmeticType,
      ValueType.isNumeric]

theorem apply_of_isOrdered {op : BinaryOp} (hop : op.isOrdered = true) (a b : Value) :
    op.apply a b =
      if op = add ∧ (a.type = .string ∨ b.type = .string) then .ok (.text (a.display ++ b.display))
      else op.applyOrdered a b := by
  cases op <;> simp_all [isOrdered, apply]

theorem apply_ok {op : BinaryOp} {a b v : Value} (h : op.apply a b = .ok v) :
    op.resultType a.type b.type = some v.type := by
  by_cases hop : op.isOrdered = true
  · rw [apply_of_isOrdered hop] at h
    rw [resultType_of_isOrdered hop]
    split at h
    · next hs =>
      cases h
      exact if_pos hs
    · next hs =>
      rw [if_neg hs]
      exact applyOrdered_ok hop h
  · cases op with
    | equal => cases h; rfl
    | notEqual => cases h; rfl
    | and => cases h
    | or => cases h
    | _ => exact absurd rfl hop

theorem apply_error {op : BinaryOp} (hand : op ≠ and) (hor : op ≠ or) {a b : Value}
    {x : ExecutionFault} (h : op.apply a b = .error x) :
    x.kind = .divisionByZero ∨ x.kind = .overflow ∨
      x.kind = .typeMismatch ∧ op.resultType a.type b.type = none := by
  by_cases hop : op.isOrdered = true
  · rw [apply_of_isOrdered hop] at h
    rw [resultType_of_isOrdered hop]
    split at h
    · cases h
    · next hs =>
      rw [if_neg hs]
      exact applyOrdered_error h
  · cases op with
    | equal => cases h
    | notEqual => cases h
    | and => exact absurd rfl hand
    | or => exact absurd rfl hor
    | _ => exact absurd rfl hop

theorem orderedType_mono {op : BinaryOp} {t u a b w : ValueType} (ht : t.mayBe a = true)
    (hu : u.mayBe b = true) (h : op.orderedType a b = some w) :
    ∃ w', op.orderedType t u = some w' ∧ w'.mayBe w = true := by
  have hsame (ht : t = a) (hu : u = b) :
      ∃ w', op.orderedType t u = some w' ∧ w'.mayBe w = true := by
    subst ht hu
    exact ⟨w, h, w.mayBe_refl⟩
  have hany (hany : t = .any ∨ u = .any) :
      ∃ w', op.orderedType t u = some w' ∧ w'.mayBe w = true := by
    unfold orderedType at h ⊢
    split
    · next hc =>
      rw [if_pos hc] at h
      rw [comparisonType_eq_bool h]
      exact ⟨.bool, comparisonType_of_any hany, ValueType.mayBe_refl _⟩
    · next hc =>
      rw [if_neg hc] at h
      have hab := (arithmeticType_isSome_iff a b).mp ⟨w, h⟩
      have htu : (t.isNumeric = true ∨ t = .any) ∧ (u.isNumeric = true ∨ u = .any) := by
        rcases ValueType.mayBe_iff.mp ht with rfl | rfl <;>
          rcases ValueType.mayBe_iff.mp hu with rfl | rfl <;> simp [hab]
      obtain ⟨w', hw'⟩ := (arithmeticType_isSome_iff t u).mpr htu
      exact ⟨w', hw', by rw [arithmeticType_of_any hw' hany]; exact w.any_mayBe⟩
  rcases ValueType.mayBe_iff.mp ht with ht | ht
  · rcases ValueType.mayBe_iff.mp hu with hu | hu
    · exact hsame ht hu
    · exact hany (.inr hu)
  · exact hany (.inl ht)

/-- What works on some types works where `any` stands for them, but for `+` on a text. -/
theorem resultType_mono {op : BinaryOp} {t u a b w : ValueType} (ht : t.mayBe a = true)
    (hu : u.mayBe b = true) (h : op.resultType a b = some w) :
    (∃ w', op.resultType t u = some w' ∧ w'.mayBe w = true) ∨
      op = add ∧ (t = .any ∨ u = .any) ∧ (a = .string ∨ b = .string) ∧
        op.resultType t u = none := by
  by_cases hop : op.isOrdered = true
  · rw [resultType_of_isOrdered hop] at h ⊢
    by_cases hs : op = add ∧ (a = .string ∨ b = .string)
    · rw [if_pos hs] at h
      obtain rfl := Option.some.inj h
      split
      · exact .inl ⟨.string, rfl, ValueType.mayBe_refl _⟩
      · next hs' =>
        have hany : t = .any ∨ u = .any := by
          rcases ValueType.mayBe_iff.mp ht with rfl | rfl
          · rcases ValueType.mayBe_iff.mp hu with rfl | rfl
            · exact absurd hs hs'
            · exact .inr rfl
          · exact .inl rfl
        obtain ⟨rfl, hab⟩ := hs
        cases hw : add.orderedType t u with
        | none => exact .inr ⟨rfl, hany, hab, rfl⟩
        | some w' =>
          rw [arithmeticType_of_any hw hany]
          exact .inl ⟨.any, rfl, ValueType.any_mayBe _⟩
    · rw [if_neg hs] at h
      have hs' : ¬ (op = add ∧ (t = .string ∨ u = .string)) := by
        rintro ⟨hadd, rfl | rfl⟩
        · rcases ValueType.mayBe_iff.mp ht with ha | ha
          · exact hs ⟨hadd, .inl ha.symm⟩
          · cases ha
        · rcases ValueType.mayBe_iff.mp hu with hb | hb
          · exact hs ⟨hadd, .inr hb.symm⟩
          · cases hb
      rw [if_neg hs']
      exact .inl (orderedType_mono ht hu h)
  · have hlogic (h : (if a.mayBe .bool && b.mayBe .bool then some ValueType.bool else none) =
        some w) : ∃ w', (if t.mayBe .bool && u.mayBe .bool then some ValueType.bool else none) =
          some w' ∧ w'.mayBe w = true := by
      split at h
      · next hab =>
        obtain ⟨ha, hb⟩ := Bool.and_eq_true_iff.mp hab
        simp [ValueType.mayBe_trans ht ha, ValueType.mayBe_trans hu hb,
          ← Option.some.inj h, ValueType.mayBe_refl]
      · cases h
    cases op with
    | equal => exact .inl ⟨w, h, w.mayBe_refl⟩
    | notEqual => exact .inl ⟨w, h, w.mayBe_refl⟩
    | and => exact .inl (hlogic h)
    | or => exact .inl (hlogic h)
    | _ => exact absurd rfl hop

theorem orderedType_ne_any {op : BinaryOp} {t u w : ValueType} (ht : t ≠ .any) (hu : u ≠ .any)
    (h : op.orderedType t u = some w) : w ≠ .any := by
  unfold orderedType at h
  split at h
  · simp [comparisonType_eq_bool h]
  · cases t <;> cases u <;> simp_all [arithmeticType, ValueType.isNumeric] <;> simp [← h]

theorem resultType_ne_any {op : BinaryOp} {t u w : ValueType} (ht : t ≠ .any) (hu : u ≠ .any)
    (h : op.resultType t u = some w) : w ≠ .any := by
  by_cases hop : op.isOrdered = true
  · rw [resultType_of_isOrdered hop] at h
    split at h
    · simp [← Option.some.inj h]
    · exact orderedType_ne_any ht hu h
  · have hbool : w = .bool := by
      cases op <;> simp_all [isOrdered, resultType]
    simp [hbool]

end BinaryOp

end SnippetEval
