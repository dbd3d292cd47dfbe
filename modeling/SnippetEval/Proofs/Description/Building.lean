import SnippetEval.Proofs.Description.Graph
/-!
Building a graph of objects depth first. Every description that is not available is being built and
refers, over the others that are, to the object that is wanted; so a description that is wanted and
not available lies on a cycle. What is built once stays, and shows its description.
-/

namespace SnippetEval.Description

theorem takeOut_eq_none_iff {id : String} {ds : List ObjectDef} :
    takeOut id ds = none ↔ id ∉ ids ds := by
  induction ds with
  | nil => simp [takeOut, ids]
  | cons d ds ih =>
    by_cases h : d.id = id
    · simp [takeOut, ids, h]
    · simp only [ids] at ih
      simp [takeOut, ids, h, ih, Ne.symm h]

theorem takeOut_eq_some {id : String} {ds rest : List ObjectDef} {d : ObjectDef}
    (h : takeOut id ds = some (d, rest)) : d.id = id ∧ ds.Perm (d :: rest) := by
  induction ds generalizing d rest with
  | nil => cases h
  | cons c ds ih =>
    simp only [takeOut] at h
    split at h
    · next hid =>
      cases h
      exact ⟨hid, .refl _⟩
    · obtain ⟨⟨f, rest'⟩, hf, he⟩ := Option.map_eq_some_iff.mp h
      cases he
      obtain ⟨hid, hperm⟩ := ih hf
      exact ⟨hid, (hperm.cons c).trans (.swap f c rest')⟩

section

variable {ds available rest : List ObjectDef} {stamp : Nat} {t u w : Objects} {id b : String}
  {d : ObjectDef} {α : Type}

/-- The object is wanted by all that are being built. -/
structure Wanted (ds available : List ObjectDef) (id : String) : Prop where
  distinct : (ids available).Nodup
  subset : available ⊆ ds
  reaches : ∀ d ∈ ds, d ∉ available → Relation.TransGen (Refers ds) d.id id

theorem Wanted.next (h : Wanted ds available id) (htake : takeOut id available = some (d, rest))
    (hb : Refers ds id b) : Wanted ds rest b := by
  obtain ⟨hid, hperm⟩ := takeOut_eq_some htake
  have hdistinct : (ids (d :: rest)).Nodup := (hperm.map ObjectDef.id).nodup_iff.mp h.distinct
  refine ⟨(List.nodup_cons.mp hdistinct).2, ?_, ?_⟩
  · intro c hc
    exact h.subset (hperm.mem_iff.mpr (List.mem_cons_of_mem d hc))
  · intro c hc hrest
    by_cases hcd : c = d
    · rw [hcd, hid]
      exact .single hb
    · have hnot : c ∉ available := by
        rw [hperm.mem_iff]
        simp [hcd, hrest]
      exact (h.reaches c hc hnot).tail hb

/-- Building has added objects to the table, and only for descriptions that were available. -/
structure Grows (ds available : List ObjectDef) (stamp : Nat) (t u : Objects) : Prop where
  suffix : t.entries <:+ u.entries
  origin : ∀ k o, u.get? k = some o → t.get? k = some o ∨ k ∈ ids available
  faithful : Faithful ds stamp u

theorem Grows.refl (h : Faithful ds stamp t) : Grows ds available stamp t t :=
  ⟨List.suffix_refl _, fun _ _ ho => .inl ho, h⟩

theorem Grows.trans (h : Grows ds available stamp t u) (h' : Grows ds available stamp u w) :
    Grows ds available stamp t w := by
  refine ⟨h.suffix.trans h'.suffix, ?_, h'.faithful⟩
  intro k o ho
  rcases h'.origin k o ho with ho | hk
  · exact h.origin k o ho
  · exact .inr hk

theorem Grows.of_takeOut (h : Grows ds rest stamp t u)
    (htake : takeOut id available = some (d, rest)) :
    Grows ds available stamp t u := by
  refine ⟨h.suffix, ?_, h.faithful⟩
  intro k o ho
  refine (h.origin k o ho).imp_right fun hk => ?_
  have hperm := ((takeOut_eq_some htake).2.map ObjectDef.id).mem_iff (a := k)
  exact hperm.mpr (List.mem_cons_of_mem _ hk)

inductive Sound (ds available : List ObjectDef) (stamp : Nat) (t : Objects)
    (wanted : α → Objects → Prop) : Except HostError (α × Objects) → Prop
  | ok {a : α} {u : Objects} : Grows ds available stamp t u → wanted a u →
      Sound ds available stamp t wanted (.ok (a, u))
  | error {e : HostError} : Holds ds e → Sound ds available stamp t wanted (.error e)

section

variable {owner : String} (hobject : ∀ t b, Faithful ds stamp t → Refers ds owner b →
  Sound ds available stamp t (fun o u => u.get? b = some o)
    (buildObject stamp (ids ds) available t b owner))

include hobject

theorem buildValue_sound {name : String} {f : FieldValue} (ht : Faithful ds stamp t)
    (hf : ∃ d ∈ ds, d.id = owner ∧ d.fields.get? name = some f) :
    Sound ds available stamp t (fun v u => Denotes u f v)
      (buildValue stamp (ids ds) available owner name t f) := by
  rw [buildValue.eq_def]
  cases f with
  | unsupported => exact .error hf
  | ref id =>
    obtain ⟨d, hd, hid, hfield⟩ := hf
    have hsound := hobject t id ht ⟨d, hd, hid, .inl ⟨name, hfield⟩⟩
    dsimp only
    generalize buildObject stamp (ids ds) available t id owner = x at hsound ⊢
    cases hsound with
    | error he => exact .error he
    | ok hgrows ho => exact .ok hgrows (.ref ho)
  | _ => exact .ok (.refl ht) (by constructor)

theorem buildFields_sound {fs : List (String × FieldValue)} (ht : Faithful ds stamp t)
    (hfs : ∀ f ∈ fs, ∃ d ∈ ds, d.id = owner ∧ d.fields.get? f.1 = some f.2) :
    Sound ds available stamp t
      (fun es u => List.Forall₂ (fun f e => f.1 = e.1 ∧ Denotes u f.2 e.2) fs es)
      (buildFields stamp (ids ds) available owner t fs) := by
  induction fs generalizing t with
  | nil =>
    rw [buildFields.eq_def]
    exact .ok (.refl ht) .nil
  | cons f fs ih =>
    obtain ⟨name, f⟩ := f
    have hvalue := buildValue_sound hobject ht (hfs (name, f) List.mem_cons_self)
    rw [buildFields.eq_def]
    dsimp only
    generalize buildValue stamp (ids ds) available owner name t f = x at hvalue ⊢
    cases hvalue with
    | error he => exact .error he
    | @ok v u hgrows hv =>
      have hrest := ih hgrows.faithful fun g hg => hfs g (List.mem_cons_of_mem _ hg)
      dsimp only
      generalize buildFields stamp (ids ds) available owner u fs = x at hrest ⊢
      cases hrest with
      | error he => exact .error he
      | ok hgrows' hes => exact .ok (hgrows.trans hgrows') (.cons ⟨rfl, hv.mono hgrows'.suffix⟩ hes)

end

theorem Grows.store (h : Grows ds rest stamp t u) (htake : takeOut id available = some (d, rest))
    (hwanted : Wanted ds available id) (hnew : t.get? id = none) {o : Instance}
    (ho : Depicts u stamp d o) : Grows ds available stamp t (u.insert id o) := by
  obtain ⟨hid, hperm⟩ := takeOut_eq_some htake
  have hdistinct : (ids (d :: rest)).Nodup := (hperm.map ObjectDef.id).nodup_iff.mp hwanted.distinct
  have hmem : d ∈ available := hperm.mem_iff.mpr List.mem_cons_self
  -- The description was taken out before, so no call on the way can have stored the object.
  have habsent : u.get? id = none := by
    by_contra hsome
    obtain ⟨p, hp⟩ := Option.ne_none_iff_exists'.mp hsome
    rcases h.origin id p hp with ht | hrest
    · rw [hnew] at ht
      cases ht
    · rw [← hid] at hrest
      exact (List.nodup_cons.mp hdistinct).1 hrest
  have hentries := Table.entries_insert_of_new habsent o
  have hsuffix : u.entries <:+ (u.insert id o).entries := by
    rw [hentries]
    exact List.suffix_cons _ _
  refine ⟨h.suffix.trans hsuffix, ?_, ?_⟩
  · intro k p hp
    rw [Table.get?_insert] at hp
    split at hp
    · next hk =>
      right
      rw [hk, ← hid]
      exact List.mem_map_of_mem hmem
    · exact (h.of_takeOut htake).origin k p hp
  · intro k p hp
    rw [Table.get?_insert] at hp
    split at hp
    · next hk =>
      cases hp
      exact ⟨d, hwanted.subset hmem, hid.trans hk.symm, ho.mono hsuffix⟩
    · obtain ⟨c, hc, hck, hdepicts⟩ := h.faithful k p hp
      exact ⟨c, hc, hck, hdepicts.mono hsuffix⟩

theorem unavailable_holds {referencedBy : String} (hwanted : Wanted ds available id)
    (hnone : takeOut id available = none) (hid : id ∈ ids ds ∨ Refers ds referencedBy id) :
    Holds ds
      (if (ids ds).contains id then .cycle id else .unknownObject id referencedBy) := by
  by_cases hlisted : id ∈ ids ds
  · rw [if_pos (List.contains_iff_mem.mpr hlisted)]
    obtain ⟨d, hd, hdid⟩ := List.mem_map.mp hlisted
    have hbuilding : d ∉ available := by
      intro hmem
      rw [← hdid] at hnone
      exact takeOut_eq_none_iff.mp hnone (List.mem_map_of_mem hmem)
    -- All that is being built refers to the object that is wanted, and here that is itself.
    have hcycle := hwanted.reaches d hd hbuilding
    rw [hdid] at hcycle
    exact hcycle
  · rw [if_neg fun hcontains => hlisted (List.contains_iff_mem.mp hcontains)]
    exact ⟨hlisted, hid.resolve_left hlisted⟩

theorem buildObject_sound (referencedBy : String) (hwanted : Wanted ds available id)
    (ht : Faithful ds stamp t) (hid : id ∈ ids ds ∨ Refers ds referencedBy id) :
    Sound ds available stamp t (fun o u => u.get? id = some o)
      (buildObject stamp (ids ds) available t id referencedBy) := by
  -- Each call takes a description out, so fewer are available to the calls inside.
  induction hn : available.length using Nat.strong_induction_on
    generalizing available t id referencedBy with
  | _ n ih =>
    rw [buildObject.eq_def]
    split
    · next o ho => exact .ok (.refl ht) ho
    · next hnew =>
      split
      · next hnone => exact .error (unavailable_holds hwanted hnone hid)
      · next d rest htake =>
        obtain ⟨hdid, hperm⟩ := takeOut_eq_some htake
        have hd : d ∈ ds := hwanted.subset (hperm.mem_iff.mpr List.mem_cons_self)
        have hshorter : rest.length < n := by
          have hlength := length_of_takeOut htake
          omega
        have hnext (t : Objects) (b : String) (ht : Faithful ds stamp t) (hb : Refers ds id b) :
            Sound ds rest stamp t (fun o u => u.get? b = some o)
              (buildObject stamp (ids ds) rest t b id) :=
          ih _ hshorter id (hwanted.next htake hb) ht (.inr hb) rfl
        have hfields := buildFields_sound hnext ht fun f hf =>
          ⟨d, hd, hdid, Table.mem_sorted_iff.mp hf⟩
        generalize buildFields stamp (ids ds) rest id t d.fields.sorted = x at hfields ⊢
        cases hfields with
        | error he => exact .error he
        | @ok es u hgrows hes =>
          have hstored (o : Instance) (w : Objects) : (w.insert id o).get? id = some o := by
            simp [Table.get?_insert]
          dsimp only
          cases houter : d.outer with
          | none =>
            refine .ok (hgrows.store htake hwanted hnew ⟨by rw [hdid]; rfl, rfl, hes, ?_⟩)
              (hstored _ _)
            rw [houter]
            exact .none
          | some b =>
            have hsound := hnext u b hgrows.faithful ⟨d, hd, hdid, .inr houter⟩
            dsimp only
            generalize buildObject stamp (ids ds) rest u b id = x at hsound ⊢
            cases hsound with
            | error he => exact .error he
            | @ok p w hgrows' hp =>
              refine .ok ((hgrows.trans hgrows').store htake hwanted hnew ⟨by rw [hdid]; rfl, rfl,
                hes.imp fun f e he => ⟨he.1, he.2.mono hgrows'.suffix⟩, ?_⟩) (hstored _ _)
              rw [houter]
              exact .some hp

end

end SnippetEval.Description
