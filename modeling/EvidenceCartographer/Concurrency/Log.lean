import Mathlib.Data.List.Basic
import Mathlib.Logic.Function.Basic

/-! One append-only log for each party, whose entries may be amended in place.

    An entry is addressed by its party and its number, and keeps that address for good: pushing adds
    an address, amending changes what one address holds, and neither touches any other. -/

namespace EvidenceCartographer.Concurrency

variable {ι α : Type}

/-- A log for each party. -/
structure Log (ι α : Type) where
  of : ι → List α

namespace Log

def empty : Log ι α := ⟨fun _ => []⟩

/-- The entry at an address. -/
def entry (l : Log ι α) (i : ι) (n : Nat) : Option α := (l.of i)[n]?

/-- How many entries a party has. -/
def size (l : Log ι α) (i : ι) : Nat := (l.of i).length

@[simp] theorem entry_empty (i : ι) (n : Nat) : (empty : Log ι α).entry i n = none := rfl

@[simp] theorem size_empty (i : ι) : (empty : Log ι α).size i = 0 := rfl

theorem lt_size {l : Log ι α} {i : ι} {n : Nat} {a : α} (h : l.entry i n = some a) : n < l.size i :=
  (List.getElem?_eq_some_iff.mp h).1

theorem entry_of_lt {l : Log ι α} {i : ι} {n : Nat} (h : n < l.size i) : ∃ a, l.entry i n = some a :=
  ⟨_, List.getElem?_eq_getElem h⟩

variable [DecidableEq ι]

/-- A new last entry for party `i`. -/
def push (l : Log ι α) (i : ι) (a : α) : Log ι α := ⟨Function.update l.of i (l.of i ++ [a])⟩

/-- Another value at an address. -/
def amend (l : Log ι α) (i : ι) (n : Nat) (a : α) : Log ι α :=
  ⟨Function.update l.of i ((l.of i).set n a)⟩

theorem entry_push (l : Log ι α) (i j : ι) (a : α) (n : Nat) :
    (l.push i a).entry j n = if j = i ∧ n = l.size i then some a else l.entry j n := by
  by_cases hj : j = i
  · subst hj
    simp only [push, entry, size, Function.update_self, true_and]
    rcases Nat.lt_trichotomy n (l.of j).length with h | h | h
    · rw [if_neg (Nat.ne_of_lt h), List.getElem?_append_left h]
    · rw [if_pos h, h, List.getElem?_concat_length]
    · rw [if_neg (Nat.ne_of_gt h), List.getElem?_eq_none (by simp; omega),
        List.getElem?_eq_none (Nat.le_of_lt h)]
  · rw [if_neg fun h => hj h.1]
    simp only [push, entry, Function.update_of_ne hj]

theorem entry_push_self (l : Log ι α) (i : ι) (a : α) :
    (l.push i a).entry i (l.size i) = some a := by
  rw [entry_push, if_pos ⟨rfl, rfl⟩]

/-- What is there stays there. -/
theorem entry_push_of_entry {l : Log ι α} {i j : ι} {n : Nat} {a b : α}
    (h : l.entry j n = some b) : (l.push i a).entry j n = some b := by
  rw [entry_push, if_neg]
  · exact h
  · rintro ⟨rfl, rfl⟩
    exact absurd (lt_size h) (Nat.lt_irrefl _)

theorem size_push (l : Log ι α) (i j : ι) (a : α) :
    (l.push i a).size j = if j = i then l.size i + 1 else l.size j := by
  by_cases hj : j = i
  · subst hj; simp [push, size]
  · simp [push, size, hj]

theorem size_push_self (l : Log ι α) (i : ι) (a : α) : (l.push i a).size i = l.size i + 1 := by
  rw [size_push, if_pos rfl]

theorem entry_amend {l : Log ι α} {i : ι} {n : Nat} {a : α} (h : l.entry i n = some a) (j : ι)
    (b : α) (m : Nat) :
    (l.amend i n b).entry j m = if j = i ∧ m = n then some b else l.entry j m := by
  by_cases hj : j = i
  · subst hj
    simp only [amend, entry, Function.update_self, true_and]
    by_cases hm : m = n
    · subst hm; rw [if_pos rfl, List.getElem?_set_self (lt_size h)]
    · rw [if_neg hm, List.getElem?_set_ne (Ne.symm hm)]
  · rw [if_neg fun h => hj h.1]
    simp only [amend, entry, Function.update_of_ne hj]

@[simp] theorem size_amend (l : Log ι α) (i j : ι) (n : Nat) (a : α) :
    (l.amend i n a).size j = l.size j := by
  by_cases hj : j = i
  · subst hj; simp [amend, size]
  · simp [amend, size, hj]

end Log

end EvidenceCartographer.Concurrency
