import Mathlib.Data.Set.Card
import SnippetEval.Table

namespace SnippetEval

section last

variable {α β : Type} {gives : α → β → Prop} {l : List α} {a : α} {b : β}

/-- What the last of the elements gives that give anything. -/
def LastGives (gives : α → β → Prop) (l : List α) (b : β) : Prop :=
  ∃ before a after, l = before ++ a :: after ∧ gives a b ∧ ∀ d ∈ after, ∀ c, ¬ gives d c

theorem not_lastGives_nil : ¬ LastGives gives [] b := by
  rintro ⟨before, a, after, h, -⟩
  simp at h

theorem lastGives_concat : LastGives gives (l ++ [a]) b ↔
    gives a b ∨ (∀ c, ¬ gives a c) ∧ LastGives gives l b := by
  constructor
  · rintro ⟨before, d, after, h, hd, hafter⟩
    rcases List.eq_nil_or_concat' after with rfl | ⟨after, e, rfl⟩
    · obtain ⟨-, hd'⟩ := List.append_inj' h rfl
      obtain rfl := List.singleton_inj.mp hd'
      exact .inl hd
    · rw [← List.cons_append, ← List.append_assoc] at h
      obtain ⟨rfl, he⟩ := List.append_inj' h rfl
      obtain rfl := List.singleton_inj.mp he
      exact .inr ⟨hafter a (by simp),
        before, d, after, rfl, hd, fun f hf => hafter f (List.mem_append_left _ hf)⟩
  · rintro (ha | ⟨hnone, before, d, after, rfl, hd, hafter⟩)
    · exact ⟨l, a, [], rfl, ha, nofun⟩
    · refine ⟨before, d, after ++ [a], by simp, hd, ?_⟩
      intro e he
      rcases List.mem_append.mp he with he | he
      · exact hafter e he
      · rwa [List.mem_singleton.mp he]

theorem exists_lastGives_iff : (∃ b, LastGives gives l b) ↔ ∃ a ∈ l, ∃ b, gives a b := by
  induction l using List.reverseRecOn with
  | nil => simp [not_lastGives_nil]
  | append_singleton l a ih =>
    simp only [lastGives_concat, exists_or, exists_and_left, ih, List.mem_append,
      List.mem_singleton, or_and_right, exists_or, exists_eq_left]
    by_cases ha : ∃ b, gives a b
    · simp [ha]
    · simp only [ha, or_false, false_or]
      exact and_iff_right fun b hb => ha ⟨b, hb⟩

end last

namespace Table

variable {κ α : Type} [DecidableEq κ]

def Same (t u : Table κ α) : Prop := ∀ k, t.get? k = u.get? k

theorem Same.contains {t u : Table κ α} (h : t.Same u) (k : κ) : t.contains k = u.contains k := by
  rw [Table.contains, Table.contains, h k]

theorem get?_map {β : Type} (f : κ → α → β) (t : Table κ α) (k : κ) :
    (t.map f).get? k = (t.get? k).map (f k) := by
  simp only [get?, map]
  induction t.entries with
  | nil => rfl
  | cons e l ih =>
    obtain ⟨m, v⟩ := e
    by_cases h : k = m
    · subst h; simp
    · rw [List.map_cons, lookup_cons_ne _ _ h, lookup_cons_ne _ _ h, ih]

theorem encard_contains (t : Table κ α) :
    {k | t.contains k = true}.encard = t.size := by
  have hk : {k | t.contains k = true} = (t.keys.toFinset : Set κ) := by
    ext k
    simp [← mem_keys_iff]
  have hn : t.keys.toFinset.card = t.size :=
    (List.toFinset_card_of_nodup t.nodup).trans (List.length_map _)
  rw [hk, Set.encard_coe_eq_coe_finsetCard, hn]

theorem mem_entries_iff {t : Table κ α} {k : κ} {v : α} :
    (k, v) ∈ t.entries ↔ t.get? k = some v := by
  obtain ⟨entries, hnodup⟩ := t
  simp only [get?]
  induction entries with
  | nil => simp
  | cons e l ih =>
    obtain ⟨m, w⟩ := e
    obtain ⟨hm, hl⟩ := List.nodup_cons.mp hnodup
    by_cases h : k = m
    · subst h
      have hnot : (k, v) ∉ l := fun hmem => hm (List.mem_map.mpr ⟨_, hmem, rfl⟩)
      simp [hnot, eq_comm]
    · rw [lookup_cons_ne _ _ h, ← ih hl]
      simp [h]

theorem mem_sorted_iff {t : Table String α} {k : String} {v : α} :
    (k, v) ∈ t.sorted ↔ t.get? k = some v := by
  rw [sorted, List.mem_mergeSort, mem_entries_iff]

theorem get?_of_suffix {t u : Table κ α} (h : t.entries <:+ u.entries) {k : κ} {v : α}
    (hv : t.get? k = some v) : u.get? k = some v :=
  mem_entries_iff.mp (h.subset (mem_entries_iff.mpr hv))

theorem entries_insert_of_new {t : Table κ α} {k : κ} (h : t.get? k = none) (v : α) :
    (t.insert k v).entries = (k, v) :: t.entries := by
  have hkept : ∀ e ∈ t.entries, decide (e.1 ≠ k) = true := by
    rintro ⟨m, w⟩ he
    have hm := mem_entries_iff.mp he
    simp only [ne_eq, decide_eq_true_eq]
    rintro rfl
    rw [h] at hm
    cases hm
  exact congrArg ((k, v) :: ·) (List.filter_eq_self.mpr hkept)

theorem get?_foldl_iff {κ α β γ : Type} [DecidableEq κ] {step : Table κ γ → α → Table κ γ}
    {k : κ} (gives : α → β → Prop) (make : β → γ)
    (hstep : ∀ t a v, (step t a).get? k = some v ↔
      (∃ b, gives a b ∧ v = make b) ∨ (∀ b, ¬ gives a b) ∧ t.get? k = some v)
    (l : List α) (t : Table κ γ) (v : γ) :
    (l.foldl step t).get? k = some v ↔
      (∃ b, LastGives gives l b ∧ v = make b) ∨
      (∀ b, ¬ LastGives gives l b) ∧ t.get? k = some v := by
  induction l using List.reverseRecOn with
  | nil => simp [not_lastGives_nil]
  | append_singleton l a ih =>
    rw [List.foldl_append, List.foldl_cons, List.foldl_nil, hstep, ih]
    simp only [lastGives_concat]
    constructor
    · rintro (⟨b, hb, rfl⟩ | ⟨hnone, ⟨b, hb, rfl⟩ | ⟨hrest, hv⟩⟩)
      · exact .inl ⟨b, .inl hb, rfl⟩
      · exact .inl ⟨b, .inr ⟨hnone, hb⟩, rfl⟩
      · exact .inr ⟨fun b => not_or.mpr ⟨hnone b, fun h => hrest b h.2⟩, hv⟩
    · rintro (⟨b, hb | ⟨hnone, hb⟩, rfl⟩ | ⟨hrest, hv⟩)
      · exact .inl ⟨b, hb, rfl⟩
      · exact .inr ⟨hnone, .inl ⟨b, hb, rfl⟩⟩
      · have hnone := fun b hb => hrest b (.inl hb)
        exact .inr ⟨hnone, .inr ⟨fun b hb => hrest b (.inr ⟨hnone, hb⟩), hv⟩⟩

end Table

end SnippetEval
