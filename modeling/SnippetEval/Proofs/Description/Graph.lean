import Mathlib.Data.List.Forall2
import Mathlib.Logic.Relation
import SnippetEval.Description.Host
import SnippetEval.Proofs.Table
/-!
The graph that a host describes. `WellFormed` says when its objects can be built, `Depicts` what a
built object shows of its description. Objects that show their descriptions are determined by them,
and an object is larger than those it refers to, so there are no cycles among them.
-/

namespace SnippetEval.Description

def ids (ds : List ObjectDef) : List String := ds.map ObjectDef.id

/-- The description of the first object names the second, in a field or as what is around it. -/
def Refers (ds : List ObjectDef) (a b : String) : Prop :=
  ∃ d ∈ ds, d.id = a ∧ ((∃ n, d.fields.get? n = some (.ref b)) ∨ d.outer = some b)

structure WellFormed (ds : List ObjectDef) : Prop where
  distinct : (ids ds).Nodup
  known : ∀ a b, Refers ds a b → b ∈ ids ds
  supported : ∀ d ∈ ds, ∀ n, d.fields.get? n ≠ some .unsupported
  acyclic : ∀ a, ¬ Relation.TransGen (Refers ds) a a

def Holds (ds : List ObjectDef) : HostError → Prop
  | .duplicateObject id => 2 ≤ (ids ds).count id
  | .unknownObject id referencedBy => id ∉ ids ds ∧ Refers ds referencedBy id
  | .unsupportedValue object field =>
    ∃ d ∈ ds, d.id = object ∧ d.fields.get? field = some .unsupported
  | .cycle id => Relation.TransGen (Refers ds) id id
  | .unreadable _ _ | .description _ => False

theorem WellFormed.not_holds {ds : List ObjectDef} (h : WellFormed ds) (e : HostError) :
    ¬ Holds ds e := by
  intro he
  cases e with
  | unreadable path reason => exact he
  | description problem => exact he
  | unknownObject id referencedBy => exact he.1 (h.known _ _ he.2)
  | unsupportedValue object field =>
    obtain ⟨d, hd, -, hfield⟩ := he
    exact h.supported d hd field hfield
  | cycle id => exact h.acyclic id he
  | duplicateObject id =>
    have hone : (ids ds).count id ≤ 1 := List.nodup_iff_count_le_one.mp h.distinct id
    have htwo : 2 ≤ (ids ds).count id := he
    omega

theorem WellFormed.perm {ds cs : List ObjectDef} (hperm : cs.Perm ds) (h : WellFormed ds) :
    WellFormed cs := by
  have hids : (ids cs).Perm (ids ds) := hperm.map ObjectDef.id
  have hrefers : Refers cs = Refers ds := by
    funext a b
    simp only [Refers, hperm.mem_iff]
  refine ⟨hids.nodup_iff.mpr h.distinct, ?_, ?_, ?_⟩
  · intro a b hab
    rw [hrefers] at hab
    exact hids.mem_iff.mpr (h.known a b hab)
  · intro d hd
    exact h.supported d (hperm.mem_iff.mp hd)
  · rw [hrefers]
    exact h.acyclic

inductive Denotes (g : Objects) : FieldValue → Value → Prop
  | null : Denotes g .null .null
  | bool (b : Bool) : Denotes g (.bool b) (.bool b)
  | int (n : Int64) : Denotes g (.int n) (.int n)
  | float (x : Float) : Denotes g (.float x) (.float x)
  | text (s : String) : Denotes g (.text s) (.text s)
  | ref {id : String} {o : Instance} : g.get? id = some o → Denotes g (.ref id) (.object o)

/-- The object is what is described, with just these fields in the order of their names. -/
structure Depicts (g : Objects) (stamp : Nat) (d : ObjectDef) (o : Instance) : Prop where
  identity : o.identity = ⟨stamp, d.id⟩
  typeName : o.typeName = d.typeName
  fields : List.Forall₂ (fun f e => f.1 = e.1 ∧ Denotes g f.2 e.2) d.fields.sorted o.fields
  outer : Option.Rel (fun id p => g.get? id = some p) d.outer o.outer

def Faithful (ds : List ObjectDef) (stamp : Nat) (g : Objects) : Prop :=
  ∀ id o, g.get? id = some o → ∃ d ∈ ds, d.id = id ∧ Depicts g stamp d o

section

variable {g t u : Objects} {stamp : Nat} {ds cs : List ObjectDef} {d : ObjectDef} {o p : Instance}
  {a b : String}

theorem Denotes.mono (h : t.entries <:+ u.entries) {f : FieldValue} {v : Value}
    (hv : Denotes t f v) : Denotes u f v := by
  cases hv with
  | ref ho => exact .ref (Table.get?_of_suffix h ho)
  | _ => constructor

theorem Depicts.outer_cases (ho : Depicts g stamp d o) :
    (d.outer = none ∧ o.outer = none) ∨
      ∃ b p, d.outer = some b ∧ o.outer = some p ∧ g.get? b = some p := by
  have hrel := ho.outer
  revert hrel
  generalize d.outer = x, o.outer = y
  intro hrel
  cases hrel with
  | none => exact .inl ⟨rfl, rfl⟩
  | some hp => exact .inr ⟨_, _, rfl, rfl, hp⟩

theorem Depicts.mono (h : t.entries <:+ u.entries) (ho : Depicts t stamp d o) :
    Depicts u stamp d o := by
  refine ⟨ho.identity, ho.typeName, ho.fields.imp fun f e he => ⟨he.1, he.2.mono h⟩, ?_⟩
  rcases ho.outer_cases with ⟨hd, hp⟩ | ⟨b, p, hd, hp, hstored⟩
  · rw [hd, hp]
    exact .none
  · rw [hd, hp]
    exact .some (Table.get?_of_suffix h hstored)

theorem eq_of_id (h : (ids ds).Nodup) {c d : ObjectDef} (hc : c ∈ ds) (hd : d ∈ ds)
    (hid : c.id = d.id) : c = d :=
  List.inj_on_of_nodup_map h hc hd hid

theorem Faithful.depicts (h : Faithful ds stamp g) (hdistinct : (ids ds).Nodup) (hd : d ∈ ds)
    (ho : g.get? d.id = some o) : Depicts g stamp d o := by
  obtain ⟨c, hc, hid, hdepicts⟩ := h d.id o ho
  rw [eq_of_id hdistinct hc hd hid] at hdepicts
  exact hdepicts

theorem exists_mem_of_forall₂ {α β : Type} {R : α → β → Prop} {l : List α} {m : List β}
    (h : List.Forall₂ R l m) {x : α} (hx : x ∈ l) : ∃ y ∈ m, R x y := by
  induction h with
  | nil => cases hx
  | @cons x' y l m hxy _ ih =>
    rcases List.mem_cons.mp hx with rfl | hx
    · exact ⟨y, List.mem_cons_self, hxy⟩
    · obtain ⟨z, hz, hxz⟩ := ih hx
      exact ⟨z, List.mem_cons_of_mem y hz, hxz⟩

theorem instance_ext (hidentity : o.identity = p.identity) (hname : o.typeName = p.typeName)
    (hfields : o.fields = p.fields) (houter : o.outer = p.outer) : o = p := by
  cases o
  cases p
  exact congr (congr (congr (congrArg Instance.mk hidentity) hname) hfields) houter

theorem sizeOf_outer (ho : o.outer = some p) : sizeOf p < sizeOf o := by
  obtain ⟨i, name, fields, outer⟩ := o
  obtain rfl : outer = some p := ho
  simp
  omega

theorem sizeOf_field {n : String} (ho : (n, Value.object p) ∈ o.fields) : sizeOf p < sizeOf o := by
  obtain ⟨i, name, fields, outer⟩ := o
  have hmem := List.sizeOf_lt_of_mem (show (n, Value.object p) ∈ fields from ho)
  simp at hmem ⊢
  omega

theorem Faithful.descends (h : Faithful ds stamp g) (hdistinct : (ids ds).Nodup)
    (hab : Refers ds a b) (ho : g.get? a = some o) :
    ∃ p, g.get? b = some p ∧ sizeOf p < sizeOf o := by
  obtain ⟨d, hd, rfl, ⟨n, hfield⟩ | houter⟩ := hab
  · have hdepicts := h.depicts hdistinct hd ho
    obtain ⟨⟨m, v⟩, he, -, hv⟩ :=
      exists_mem_of_forall₂ hdepicts.fields (Table.mem_sorted_iff.mpr hfield)
    cases hv with
    | @ref _ p hp => exact ⟨p, hp, sizeOf_field he⟩
  · rcases (h.depicts hdistinct hd ho).outer_cases with ⟨hnone, -⟩ | ⟨c, p, hc, hp, hstored⟩
    · rw [houter] at hnone
      cases hnone
    · rw [houter] at hc
      cases hc
      exact ⟨p, hstored, sizeOf_outer hp⟩

theorem Faithful.descends_trans (h : Faithful ds stamp g) (hdistinct : (ids ds).Nodup)
    (hab : Relation.TransGen (Refers ds) a b) (ho : g.get? a = some o) :
    ∃ p, g.get? b = some p ∧ sizeOf p < sizeOf o := by
  induction hab with
  | single hab => exact h.descends hdistinct hab ho
  | tail _ hbc ih =>
    obtain ⟨p, hp, hpo⟩ := ih
    obtain ⟨q, hq, hqp⟩ := h.descends hdistinct hbc hp
    exact ⟨q, hq, hqp.trans hpo⟩

theorem Faithful.wellFormed (h : Faithful ds stamp g) (hdistinct : (ids ds).Nodup)
    (hall : ∀ d ∈ ds, ∃ o, g.get? d.id = some o) : WellFormed ds := by
  refine ⟨hdistinct, ?_, ?_, ?_⟩
  · intro a b hab
    obtain ⟨d, hd, rfl, -⟩ := id hab
    obtain ⟨o, ho⟩ := hall d hd
    obtain ⟨p, hp, -⟩ := h.descends hdistinct hab ho
    obtain ⟨c, hc, rfl, -⟩ := h b p hp
    exact List.mem_map_of_mem hc
  · intro d hd n hfield
    obtain ⟨o, ho⟩ := hall d hd
    have hdepicts := h.depicts hdistinct hd ho
    obtain ⟨e, -, -, hv⟩ :=
      exists_mem_of_forall₂ hdepicts.fields (Table.mem_sorted_iff.mpr hfield)
    cases hv
  · intro a haa
    obtain ⟨c, ⟨d, hd, rfl, -⟩, -⟩ := Relation.TransGen.head'_iff.mp haa
    obtain ⟨o, ho⟩ := hall d hd
    obtain ⟨p, hp, hlt⟩ := h.descends_trans hdistinct haa ho
    rw [ho] at hp
    cases hp
    exact Nat.lt_irrefl _ hlt

theorem eq_of_forall₂ {α β : Type} {R S : α → β → Prop} {l : List α} {m n : List β}
    (hm : List.Forall₂ R l m) (hn : List.Forall₂ S l n)
    (h : ∀ x, ∀ y ∈ m, ∀ z, R x y → S x z → y = z) : m = n := by
  induction hm generalizing n with
  | nil =>
    cases hn
    rfl
  | @cons x y l m hxy _ ih =>
    cases hn with
    | @cons _ z _ n hxz hn =>
      rw [h x y List.mem_cons_self z hxy hxz,
        ih hn fun x y hy z => h x y (List.mem_cons_of_mem _ hy) z]

theorem Faithful.unique {g' : Objects} (hdistinct : (ids ds).Nodup) (h : Faithful ds stamp g)
    (h' : Faithful ds stamp g') {o o' : Instance} (ho : g.get? a = some o)
    (ho' : g'.get? a = some o') : o = o' := by
  -- What an object refers to is smaller, and the same in both tables.
  induction hn : sizeOf o using Nat.strong_induction_on generalizing a o o' with
  | _ n ih =>
    subst hn
    obtain ⟨d, hd, rfl, hdepicts⟩ := h a o ho
    have hdepicts' := h'.depicts hdistinct hd ho'
    have hvalues (f : FieldValue) (v w : Value) (hsize : ∀ p, v = .object p → sizeOf p < sizeOf o)
        (hv : Denotes g f v) (hw : Denotes g' f w) : v = w := by
      cases hv with
      | ref hp =>
        cases hw with
        | ref hp' => rw [ih _ (hsize _ rfl) hp hp' rfl]
      | _ =>
        cases hw
        rfl
    have hfields : o.fields = o'.fields := by
      apply eq_of_forall₂ hdepicts.fields hdepicts'.fields
      rintro ⟨m, f⟩ ⟨m', v⟩ hmem ⟨m'', w⟩ ⟨rfl, hv⟩ ⟨rfl, hw⟩
      rw [hvalues f v w (fun p hp => sizeOf_field (hp ▸ hmem)) hv hw]
    have houter : o.outer = o'.outer := by
      rcases hdepicts.outer_cases with ⟨hnone, hp⟩ | ⟨b, p, hb, hp, hstored⟩ <;>
        rcases hdepicts'.outer_cases with ⟨hnone', hp'⟩ | ⟨b', p', hb', hp', hstored'⟩
      · rw [hp, hp']
      · rw [hnone] at hb'
        cases hb'
      · rw [hb] at hnone'
        cases hnone'
      · rw [hb] at hb'
        cases hb'
        rw [hp, hp', ih _ (sizeOf_outer hp) hstored hstored' rfl]
    exact instance_ext (hdepicts.identity.trans hdepicts'.identity.symm)
      (hdepicts.typeName.trans hdepicts'.typeName.symm) hfields houter

end

end SnippetEval.Description
