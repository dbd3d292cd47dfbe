namespace SnippetEval

structure Table (κ α : Type) where
  entries : List (κ × α) := []
  nodup : (entries.map Prod.fst).Nodup := by simp

namespace Table

variable {κ α β : Type} [DecidableEq κ]

def empty : Table κ α := {}

instance : Inhabited (Table κ α) := ⟨empty⟩

def get? (t : Table κ α) (k : κ) : Option α := t.entries.lookup k

def contains (t : Table κ α) (k : κ) : Bool := (t.get? k).isSome

def keys (t : Table κ α) : List κ := t.entries.map Prod.fst

def values (t : Table κ α) : List α := t.entries.map Prod.snd

def size (t : Table κ α) : Nat := t.entries.length

def isEmpty (t : Table κ α) : Bool := t.entries.isEmpty

omit [DecidableEq κ] in
theorem nodup_filter {l : List (κ × α)} (h : (l.map Prod.fst).Nodup) (p : κ × α → Bool) :
    ((l.filter p).map Prod.fst).Nodup :=
  h.sublist (List.filter_sublist.map Prod.fst)

def erase (t : Table κ α) (k : κ) : Table κ α where
  entries := t.entries.filter (fun e => e.1 ≠ k)
  nodup := nodup_filter t.nodup _

def insert (t : Table κ α) (k : κ) (v : α) : Table κ α where
  entries := (k, v) :: (t.erase k).entries
  nodup := by
    rw [List.map_cons, List.nodup_cons]
    refine ⟨fun h => ?_, (t.erase k).nodup⟩
    obtain ⟨e, he, rfl⟩ := List.mem_map.1 h
    simp [erase] at he

def ofList (l : List (κ × α)) : Table κ α := l.foldl (fun t e => t.insert e.1 e.2) empty

def map (f : κ → α → β) (t : Table κ α) : Table κ β where
  entries := t.entries.map (fun e => (e.1, f e.1 e.2))
  nodup := by simpa [Function.comp_def] using t.nodup

@[simp] theorem get?_empty (k : κ) : (empty : Table κ α).get? k = none := rfl

theorem lookup_cons_ne (l : List (κ × α)) {k m : κ} (v : α) (h : m ≠ k) :
    ((k, v) :: l).lookup m = l.lookup m := by
  rw [List.lookup_cons, beq_eq_false_iff_ne.2 h]

theorem lookup_filter_ne (l : List (κ × α)) (k m : κ) :
    (l.filter (fun e => e.1 ≠ k)).lookup m = if m = k then none else l.lookup m := by
  induction l with
  | nil => simp
  | cons e l ih =>
    obtain ⟨n, v⟩ := e
    by_cases hn : n = k
    · rw [List.filter_cons_of_neg (by simpa using hn), ih]
      split
      · rfl
      · next hm => exact (lookup_cons_ne l v (fun h => hm (h.trans hn))).symm
    · rw [List.filter_cons_of_pos (by simpa using hn)]
      by_cases hm : m = n
      · subst hm; simp [hn]
      · rw [lookup_cons_ne _ v hm, lookup_cons_ne l v hm, ih]

theorem get?_erase (t : Table κ α) (k m : κ) :
    (t.erase k).get? m = if m = k then none else t.get? m :=
  lookup_filter_ne t.entries k m

theorem get?_insert (t : Table κ α) (k m : κ) (v : α) :
    (t.insert k v).get? m = if m = k then some v else t.get? m := by
  by_cases h : m = k
  · subst h; simp [get?, insert]
  · rw [if_neg h, ← (get?_erase t k m).trans (if_neg h)]
    exact lookup_cons_ne _ v h

theorem contains_insert (t : Table κ α) (k m : κ) (v : α) :
    (t.insert k v).contains m = (decide (m = k) || t.contains m) := by
  by_cases h : m = k <;> simp [contains, get?_insert, h]

theorem mem_keys_iff (t : Table κ α) (k : κ) : k ∈ t.keys ↔ t.contains k = true := by
  simp only [keys, contains, get?]
  induction t.entries with
  | nil => simp
  | cons e l ih =>
    obtain ⟨n, v⟩ := e
    by_cases h : k = n
    · subst h; simp
    · rw [lookup_cons_ne l v h, ← ih]
      simp [h]

end Table

def Table.sorted {α : Type} (t : Table String α) : List (String × α) :=
  t.entries.mergeSort (fun a b => a.1 ≤ b.1)

end SnippetEval
