import EvidenceCartographer.Python.Json

/-! When two JSON values are the same tree: up to the order of the fields of any object in them.

    Objects have unique keys, as Python's do. Sorting the fields everywhere gives the one
    representative of a tree that its canonical text shows. -/

namespace EvidenceCartographer.Python.Json

/-- Induction over a tree, with the hypothesis for every item and for every field value. -/
theorem tree_induction {P : Json → Prop} (null : P .null) (bool : ∀ b, P (.bool b))
    (int : ∀ n, P (.int n)) (str : ∀ s, P (.str s))
    (arr : ∀ items, (∀ item ∈ items, P item) → P (.arr items))
    (obj : ∀ fields : List (String × Json), (∀ f ∈ fields, P f.2) → P (.obj fields)) :
    ∀ value, P value :=
  Json.rec (motive_2 := fun items => ∀ item ∈ items, P item)
    (motive_3 := fun fields => ∀ f ∈ fields, P f.2) (motive_4 := fun f => P f.2)
    null bool int str arr obj (by simp)
    (fun item items hitem hitems => List.forall_mem_cons.mpr ⟨hitem, hitems⟩) (by simp)
    (fun f fields hf hfields => List.forall_mem_cons.mpr ⟨hf, hfields⟩) (fun key value h => h)

/-- Applying a function to the values of the fields. -/
def mapValues {β γ : Type} (g : β → γ) (f : String × β) : String × γ := (f.1, g f.2)

@[simp] theorem dumpsItems_eq (items : List Json) : dumpsItems items = items.map dumps := by
  induction items with
  | nil => rfl
  | cons item items ih => rw [dumpsItems, ih, List.map_cons]

@[simp] theorem dumpsFields_eq (fields : List (String × Json)) :
    dumpsFields fields = fields.map (mapValues dumps) := by
  induction fields with
  | nil => rfl
  | cons f fields ih => rw [dumpsFields, ih, List.map_cons, mapValues]

/-! ### The fields in key order -/

theorem sortFields_perm {β : Type} (fields : List (String × β)) : (sortFields fields).Perm fields :=
  List.perm_insertionSort _ _

theorem sortFields_sorted {β : Type} (fields : List (String × β)) :
    (sortFields fields).Pairwise fun f g => f.1 ≤ g.1 := by
  have htotal : Std.Total fun f g : String × β => f.1 ≤ g.1 := ⟨fun f g => le_total f.1 g.1⟩
  have htrans : IsTrans (String × β) fun f g => f.1 ≤ g.1 := ⟨fun _ _ _ => le_trans⟩
  exact List.pairwise_insertionSort _ _

theorem sortFields_map {β γ : Type} (g : β → γ) (fields : List (String × β)) :
    sortFields (fields.map (mapValues g)) = (sortFields fields).map (mapValues g) :=
  (List.map_insertionSort _ _ (mapValues g) fields fun _ _ _ _ => Iff.rfl).symm

theorem sortFields_idem {β : Type} (fields : List (String × β)) :
    sortFields (sortFields fields) = sortFields fields :=
  (sortFields_sorted fields).insertionSort_eq

/-- With unique keys, the order in which the fields come does not matter. -/
theorem sortFields_congr {β : Type} {fields fields' : List (String × β)}
    (hkeys : (fields.map Prod.fst).Nodup) (h : fields.Perm fields') :
    sortFields fields = sortFields fields' := by
  have hperm := ((sortFields_perm fields).trans h).trans (sortFields_perm fields').symm
  refine hperm.eq_of_pairwise ?_ (sortFields_sorted fields) (sortFields_sorted fields')
  intro f g hf hg hle hge
  have hf := (sortFields_perm fields).mem_iff.mp hf
  have hg := h.mem_iff.mpr ((sortFields_perm fields').mem_iff.mp hg)
  exact List.inj_on_of_nodup_map hkeys hf hg (le_antisymm hle hge)

/-! ### The canonical form -/

mutual

/-- The value with all its fields in key order. -/
def canonical : Json → Json
  | .arr items => .arr (canonicalItems items)
  | .obj fields => .obj (sortFields (canonicalFields fields))
  | .null => .null
  | .bool b => .bool b
  | .int n => .int n
  | .str s => .str s

def canonicalItems : List Json → List Json
  | [] => []
  | item :: items => canonical item :: canonicalItems items

def canonicalFields : List (String × Json) → List (String × Json)
  | [] => []
  | (key, value) :: fields => (key, canonical value) :: canonicalFields fields

end

@[simp] theorem canonicalItems_eq (items : List Json) :
    canonicalItems items = items.map canonical := by
  induction items with
  | nil => rfl
  | cons item items ih => rw [canonicalItems, ih, List.map_cons]

@[simp] theorem canonicalFields_eq (fields : List (String × Json)) :
    canonicalFields fields = fields.map (mapValues canonical) := by
  induction fields with
  | nil => rfl
  | cons f fields ih => rw [canonicalFields, ih, List.map_cons, mapValues]

theorem canonical_arr (items : List Json) : canonical (.arr items) = .arr (items.map canonical) := by
  rw [canonical, canonicalItems_eq]

theorem canonical_obj (fields : List (String × Json)) :
    canonical (.obj fields) = .obj ((sortFields fields).map (mapValues canonical)) := by
  rw [canonical, canonicalFields_eq, sortFields_map]

/-- The text of a value is that of its canonical form. -/
theorem dumps_canonical (value : Json) : dumps (canonical value) = dumps value := by
  induction value using tree_induction with
  | null | bool | int | str => rw [canonical]
  | arr items ih =>
    have hitems : (items.map canonical).map dumps = items.map dumps := by
      rw [List.map_map]
      exact List.map_congr_left ih
    rw [canonical_arr, dumps, dumps, dumpsItems_eq, dumpsItems_eq, hitems]
  | obj fields ih =>
    have hvalues : (fields.map (mapValues canonical)).map (mapValues dumps) =
        fields.map (mapValues dumps) := by
      rw [List.map_map]
      exact List.map_congr_left fun f hf => congrArg (Prod.mk f.1) (ih f hf)
    rw [canonical_obj, dumps, dumps, dumpsFields_eq, dumpsFields_eq, ← sortFields_map,
      ← sortFields_map, sortFields_idem, hvalues]

/-! ### The same tree -/

/-- Equal as Python values: the fields of an object come in any order. -/
inductive SameTree : Json → Json → Prop
  | refl (value : Json) : SameTree value value
  | symm {a b : Json} : SameTree a b → SameTree b a
  | trans {a b c : Json} : SameTree a b → SameTree b c → SameTree a c
  | reorder {fields fields' : List (String × Json)} :
      fields.Perm fields' → SameTree (.obj fields) (.obj fields')
  | item {a b : Json} (before after : List Json) :
      SameTree a b → SameTree (.arr (before ++ a :: after)) (.arr (before ++ b :: after))
  | value {a b : Json} (key : String) (before after : List (String × Json)) :
      SameTree a b →
        SameTree (.obj (before ++ (key, a) :: after)) (.obj (before ++ (key, b) :: after))

mutual

/-- No object of the tree has a key twice. -/
def UniqueKeys : Json → Prop
  | .arr items => UniqueKeysItems items
  | .obj fields => (fields.map Prod.fst).Nodup ∧ UniqueKeysFields fields
  | .null | .bool _ | .int _ | .str _ => True

def UniqueKeysItems : List Json → Prop
  | [] => True
  | item :: items => UniqueKeys item ∧ UniqueKeysItems items

def UniqueKeysFields : List (String × Json) → Prop
  | [] => True
  | (_, value) :: fields => UniqueKeys value ∧ UniqueKeysFields fields

end

@[simp] theorem uniqueKeysItems_iff (items : List Json) :
    UniqueKeysItems items ↔ ∀ item ∈ items, item.UniqueKeys := by
  induction items with
  | nil => simp [UniqueKeysItems]
  | cons item items ih => simp [UniqueKeysItems, ih]

@[simp] theorem uniqueKeysFields_iff (fields : List (String × Json)) :
    UniqueKeysFields fields ↔ ∀ f ∈ fields, f.2.UniqueKeys := by
  induction fields with
  | nil => simp [UniqueKeysFields]
  | cons f fields ih => simp [UniqueKeysFields, ih]

theorem uniqueKeys_arr (items : List Json) :
    (arr items).UniqueKeys ↔ ∀ item ∈ items, item.UniqueKeys := by
  rw [UniqueKeys, uniqueKeysItems_iff]

theorem uniqueKeys_obj (fields : List (String × Json)) :
    (obj fields).UniqueKeys ↔
      (fields.map Prod.fst).Nodup ∧ ∀ f ∈ fields, f.2.UniqueKeys := by
  rw [UniqueKeys, uniqueKeysFields_iff]

/-- The same tree has the same canonical form. -/
theorem SameTree.canonical_eq {a b : Json} (h : SameTree a b) :
    (a.UniqueKeys ↔ b.UniqueKeys) ∧ (a.UniqueKeys → a.canonical = b.canonical) := by
  induction h with
  | refl => exact ⟨Iff.rfl, fun _ => rfl⟩
  | symm h ih => exact ⟨ih.1.symm, fun hb => (ih.2 (ih.1.mpr hb)).symm⟩
  | trans h h' ih ih' =>
    exact ⟨ih.1.trans ih'.1, fun ha => (ih.2 ha).trans (ih'.2 (ih.1.mp ha))⟩
  | reorder hperm =>
    constructor
    · rw [uniqueKeys_obj, uniqueKeys_obj, (hperm.map Prod.fst).nodup_iff]
      simp only [hperm.mem_iff]
    · intro hunique
      rw [canonical_obj, canonical_obj, sortFields_congr ((uniqueKeys_obj _).mp hunique).1 hperm]
  | item before after h ih =>
    constructor
    · simp only [uniqueKeys_arr, List.forall_mem_append, List.forall_mem_cons, ih.1]
    · intro hunique
      simp only [uniqueKeys_arr, List.forall_mem_append, List.forall_mem_cons] at hunique
      simp only [canonical_arr, List.map_append, List.map_cons, ih.2 hunique.2.1]
  | value key before after h ih =>
    constructor
    · simp only [uniqueKeys_obj, List.map_append, List.map_cons, List.forall_mem_append,
        List.forall_mem_cons, ih.1]
    · intro hunique
      simp only [uniqueKeys_obj, List.forall_mem_append, List.forall_mem_cons] at hunique
      simp only [canonical_obj, ← sortFields_map, List.map_append, List.map_cons, mapValues,
        ih.2 hunique.2.2.1]

/-- Replacing each item by the same tree, one after the other. -/
theorem SameTree.items {g : Json → Json} (before items : List Json)
    (h : ∀ item ∈ items, SameTree item (g item)) :
    SameTree (.arr (before ++ items)) (.arr (before ++ items.map g)) := by
  induction items generalizing before with
  | nil => exact .refl _
  | cons item items ih =>
    obtain ⟨hitem, hitems⟩ := List.forall_mem_cons.mp h
    have hrest := ih (before ++ [g item]) hitems
    rw [List.append_assoc, List.append_assoc] at hrest
    exact (SameTree.item before items hitem).trans hrest

theorem SameTree.values {g : Json → Json} (before fields : List (String × Json))
    (h : ∀ f ∈ fields, SameTree f.2 (g f.2)) :
    SameTree (.obj (before ++ fields)) (.obj (before ++ fields.map (mapValues g))) := by
  induction fields generalizing before with
  | nil => exact .refl _
  | cons f fields ih =>
    obtain ⟨hf, hfields⟩ := List.forall_mem_cons.mp h
    have hrest := ih (before ++ [mapValues g f]) hfields
    rw [List.append_assoc, List.append_assoc] at hrest
    exact (SameTree.value f.1 before fields hf).trans hrest

theorem sameTree_canonical (value : Json) : SameTree value value.canonical := by
  induction value using tree_induction with
  | null | bool | int | str => rw [canonical]; exact .refl _
  | arr items ih => rw [canonical_arr]; exact SameTree.items [] items ih
  | obj fields ih =>
    rw [canonical_obj]
    refine (SameTree.reorder (sortFields_perm fields).symm).trans ?_
    exact SameTree.values [] _ fun f hf => ih f ((sortFields_perm fields).mem_iff.mp hf)

/-- The text of a tree does not show the order of its fields. -/
theorem SameTree.dumps_eq {a b : Json} (h : SameTree a b) (ha : a.UniqueKeys) :
    a.dumps = b.dumps := by
  rw [← dumps_canonical a, h.canonical_eq.2 ha, dumps_canonical]

end EvidenceCartographer.Python.Json
