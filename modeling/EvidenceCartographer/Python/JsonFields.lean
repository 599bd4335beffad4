import EvidenceCartographer.Python.JsonTree

/-! The fields of a canonical tree.

    A canonical tree has its fields in key order. Where names are unique, a field is found by its name
    in any order, and two trees dumped from fields with the same names have the same values. -/

namespace EvidenceCartographer.Python.Json

/-- A rearrangement of fields with unique names, whose names come in the old order, changes nothing. -/
theorem eq_of_perm_keys {β : Type} {fields fields' : List (String × β)}
    (hperm : fields.Perm fields') (hkeys : fields.map Prod.fst = fields'.map Prod.fst)
    (hunique : (fields.map Prod.fst).Nodup) : fields = fields' := by
  induction fields generalizing fields' with
  | nil => exact (List.nil_perm.mp hperm).symm
  | cons f fields ih =>
    rcases fields' with _ | ⟨g, fields'⟩
    · cases hkeys
    simp only [List.map_cons, List.cons.injEq] at hkeys
    obtain ⟨hname, hnames⟩ := hkeys
    rw [List.map_cons, List.nodup_cons] at hunique
    obtain ⟨hnew, hunique⟩ := hunique
    have hhead : f = g := by
      rcases List.mem_cons.mp (hperm.mem_iff.mp List.mem_cons_self) with hhead | hmem
      · exact hhead
      · rw [hnames] at hnew
        exact absurd (List.mem_map_of_mem hmem) hnew
    subst hhead
    rw [ih hperm.cons_inv hnames hunique]

/-- One tree, dumped from fields with the same names, has the same values. -/
theorem canonical_obj_inj {fields fields' : List (String × Json)}
    (h : canonical (.obj fields) = canonical (.obj fields'))
    (hkeys : fields.map Prod.fst = fields'.map Prod.fst) (hunique : (fields.map Prod.fst).Nodup) :
    fields.map (mapValues canonical) = fields'.map (mapValues canonical) := by
  have hnames : ∀ fs : List (String × Json), (fs.map (mapValues canonical)).map Prod.fst =
      fs.map Prod.fst := fun fs => by rw [List.map_map]; rfl
  rw [canonical_obj, canonical_obj] at h
  injection h with h
  have hperm := (sortFields_perm fields).map (mapValues canonical)
  have hperm' := (sortFields_perm fields').map (mapValues canonical)
  rw [h] at hperm
  refine eq_of_perm_keys (hperm.symm.trans hperm') ?_ ?_
  · rw [hnames, hnames, hkeys]
  · rw [hnames]
    exact hunique

/-- A field of an object. -/
def get (name : String) : Json → Option Json
  | .obj fields => fields.lookup name
  | _ => none

/-- The text of a string. -/
def text : Json → Option String
  | .str s => some s
  | _ => none

/-- The order of fields with unique names does not matter to a reader. -/
theorem lookup_perm {β : Type} {fields fields' : List (String × β)} (hperm : fields.Perm fields')
    (hunique : (fields.map Prod.fst).Nodup) (name : String) :
    fields.lookup name = fields'.lookup name := by
  induction hperm with
  | nil => rfl
  | cons f _ ih =>
    rw [List.map_cons, List.nodup_cons] at hunique
    rw [List.lookup_cons, List.lookup_cons, ih hunique.2]
  | swap f g fields =>
    obtain ⟨key, value⟩ := f
    obtain ⟨key', value'⟩ := g
    simp only [List.map_cons, List.nodup_cons, List.mem_cons, not_or] at hunique
    obtain ⟨⟨hne, -⟩, -⟩ := hunique
    rcases eq_or_ne name key with rfl | hkey
    · have hother : (name == key') = false := by simpa using Ne.symm hne
      simp [List.lookup_cons, hother]
    · have hother : (name == key) = false := by simpa using hkey
      simp [List.lookup_cons, hother]
  | trans h₁ _ ih₁ ih₂ =>
    rw [ih₁ hunique, ih₂ ((h₁.map Prod.fst).nodup hunique)]

theorem lookup_mapValues {β γ : Type} (g : β → γ) (fields : List (String × β)) (name : String) :
    (fields.map (mapValues g)).lookup name = (fields.lookup name).map g := by
  induction fields with
  | nil => rfl
  | cons f fields ih =>
    obtain ⟨key, value⟩ := f
    cases hname : name == key <;> simp [List.lookup_cons, mapValues, hname, ← ih]

theorem get_canonical {fields : List (String × Json)} (hunique : (fields.map Prod.fst).Nodup)
    (name : String) :
    (canonical (.obj fields)).get name = (fields.lookup name).map canonical := by
  rw [canonical_obj, get, lookup_mapValues, lookup_perm (sortFields_perm fields)]
  rw [((sortFields_perm fields).map Prod.fst).nodup_iff]
  exact hunique

end EvidenceCartographer.Python.Json
