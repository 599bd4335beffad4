import Mathlib.Data.List.Basic
import Mathlib.Logic.Function.Basic
import Mathlib.Logic.Relation

/-! Refinement by a view of the state, and the registry that writes every entry once.

    A view of a concrete state refines an abstract machine when every reachable concrete step is
    invisible in it or is one step of that machine. Then every run of the concrete system is seen as
    an execution of the machine: the list of the labels of its visible steps. In a registry whose only
    step publishes a value under a free name, such an execution is a history: it names nothing
    twice, and the registry holds exactly what it lists. -/

namespace EvidenceCartographer.Concurrency

variable {σ τ Λ K V : Type}

/-- The labels of a finite number of steps, in their order. -/
inductive Execution (step : τ → Λ → τ → Prop) (t : τ) : List Λ → τ → Prop where
  | start : Execution step t [] t
  | snoc {labels label t' t''} : Execution step t labels t' → step t' label t'' →
      Execution step t (labels ++ [label]) t''

/-- Every concrete step from a state reachable from `s₀` is invisible in the view, or is one step of
    the abstract machine. -/
def Refines (S : σ → σ → Prop) (s₀ : σ) (step : τ → Λ → τ → Prop) (view : σ → τ) : Prop :=
  ∀ s s', Relation.ReflTransGen S s₀ s → S s s' →
    view s' = view s ∨ ∃ label, step (view s) label (view s')

/-- The run lemma: a concrete run is seen as an execution. -/
theorem Refines.execution {S : σ → σ → Prop} {s₀ s : σ} {step : τ → Λ → τ → Prop} {view : σ → τ}
    (h : Refines S s₀ step view) (hr : Relation.ReflTransGen S s₀ s) :
    ∃ labels, Execution step (view s₀) labels (view s) := by
  induction hr with
  | refl => exact ⟨[], .start⟩
  | tail hr hs ih =>
    obtain ⟨labels, hlabels⟩ := ih
    rcases h _ _ hr hs with heq | ⟨label, hstep⟩
    · exact ⟨labels, heq ▸ hlabels⟩
    · exact ⟨labels ++ [label], hlabels.snoc hstep⟩

/-- What is published under each name. -/
abbrev Registry (K V : Type) := K → Option V

namespace Registry

variable [DecidableEq K] {admissible : K → V → Prop} {r r' : Registry K V}

/-- The one step of a registry: an admissible value is published under a name that was free. -/
inductive Publish (admissible : K → V → Prop) : Registry K V → K × V → Registry K V → Prop where
  | mk {r : Registry K V} (name : K) (value : V) : r name = none → admissible name value →
      Publish admissible r (name, value) (Function.update r name (some value))

/-- The step lemma: one more entry, and nothing else changes. -/
theorem Publish.eq_some_iff {entry : K × V} (h : Publish admissible r entry r') (name : K)
    (value : V) : r' name = some value ↔ r name = some value ∨ entry = (name, value) := by
  cases h with
  | mk name' value' hfree hadm =>
    by_cases hname : name = name'
    · subst hname
      simp [hfree]
    · rw [Function.update_of_ne hname]
      simp [Ne.symm hname]

/-- What an execution lists is what it added; each entry was admissible, and its name free. -/
structure History (admissible : K → V → Prop) (r : Registry K V) (entries : List (K × V))
    (r' : Registry K V) : Prop where
  nodup : (entries.map Prod.fst).Nodup
  admissible : ∀ entry ∈ entries, admissible entry.1 entry.2
  free : ∀ entry ∈ entries, r entry.1 = none
  eq_some_iff : ∀ name value, r' name = some value ↔ r name = some value ∨ (name, value) ∈ entries

/-- By induction on the execution. -/
theorem history {entries : List (K × V)} (h : Execution (Publish admissible) r entries r') :
    History admissible r entries r' := by
  induction h with
  | start => exact ⟨by simp, by simp, by simp, by simp⟩
  | @snoc entries entry r₁ r₂ _ hstep ih =>
    have hnew := hstep.eq_some_iff
    cases hstep with
    | mk name value hfree hadm =>
      -- a free name is not listed yet, and was free from the start
      have hlisted : ∀ value', (name, value') ∉ entries := by
        intro value' hmem
        rw [(ih.eq_some_iff name value').mpr (.inr hmem)] at hfree
        cases hfree
      have hstart : r name = none := by
        cases hr : r name with
        | none => rfl
        | some value' =>
          rw [(ih.eq_some_iff name value').mpr (.inl hr)] at hfree
          cases hfree
      refine ⟨?_, ?_, ?_, fun name' value' => ?_⟩
      · simp only [List.map_append, List.map_cons, List.map_nil, List.nodup_append]
        refine ⟨ih.nodup, by simp, ?_⟩
        intro name' hmem name'' hname hne
        obtain ⟨⟨_, value'⟩, hentry, rfl⟩ := List.mem_map.mp hmem
        obtain rfl := List.mem_singleton.mp hname
        subst hne
        exact hlisted value' hentry
      · intro entry hmem
        rcases List.mem_append.mp hmem with hmem | hmem
        · exact ih.admissible entry hmem
        · obtain rfl := List.mem_singleton.mp hmem
          exact hadm
      · intro entry hmem
        rcases List.mem_append.mp hmem with hmem | hmem
        · exact ih.free entry hmem
        · obtain rfl := List.mem_singleton.mp hmem
          exact hstart
      · rw [hnew name' value', ih.eq_some_iff name' value', List.mem_append, List.mem_singleton,
          or_assoc, eq_comm (a := (name, value))]

end Registry

end EvidenceCartographer.Concurrency
