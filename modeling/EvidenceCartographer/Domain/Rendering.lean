import EvidenceCartographer.Domain.Values
import Mathlib.Data.Nat.ModEq

/-! Texts that determine what they render: UUIDs, padded numbers, integers and enumeration values. -/

namespace EvidenceCartographer.Domain

open Python

/-- By induction on the digits: they determine a number up to the next power. -/
theorem mod_pow_of_digits {a b : Nat} : ∀ n, (∀ k < n, a / 16 ^ k % 16 = b / 16 ^ k % 16) →
    a % 16 ^ n = b % 16 ^ n
  | 0, _ => by rw [Nat.pow_zero, Nat.mod_one, Nat.mod_one]
  | n + 1, h => by
      rw [Nat.mod_pow_succ, Nat.mod_pow_succ, h n (Nat.lt_succ_self n),
        mod_pow_of_digits n fun k hk => h k (Nat.lt_succ_of_lt hk)]

theorem digitChar_injective {a b : Nat} (ha : a < 16) (hb : b < 16)
    (h : Nat.digitChar a = Nat.digitChar b) : a = b := by
  have hall : ∀ a < 16, ∀ b < 16, Nat.digitChar a = Nat.digitChar b → a = b := by decide
  exact hall a ha b hb h

theorem UUID.length_hex (u : UUID) (i n : Nat) : (u.hex i n).length = n := by
  rw [UUID.hex, List.length_map, List.length_range]

theorem UUID.hex_digit {u v : UUID} {i n : Nat} (h : u.hex i n = v.hex i n) {j : Nat} (hj : j < n) :
    u.int.val / 16 ^ (31 - (i + j)) % 16 = v.int.val / 16 ^ (31 - (i + j)) % 16 := by
  have hget := congrArg (·[j]?) h
  simp only [UUID.hex, List.getElem?_map, List.getElem?_range hj, Option.map_some,
    Option.some.injEq] at hget
  exact digitChar_injective (Nat.mod_lt _ (by decide)) (Nat.mod_lt _ (by decide)) hget

theorem UUID.length_str (u : UUID) : u.str.toList.length = 36 := by
  simp only [UUID.str, String.toList_ofList, List.length_append, List.length_cons, UUID.length_hex]

theorem UUID.utf8ByteSize_str_le (u : UUID) : u.str.utf8ByteSize ≤ 144 := by
  have h := Json.utf8ByteSize_le_length_toList u.str
  rwa [UUID.length_str] at h

theorem UUID.width_dump (u : UUID) : u.dump.width = 218 := by
  rw [UUID.dump, Json.width, UUID.length_str]

/-- All 32 digits are in the text, each at its place. -/
theorem UUID.str_injective {u v : UUID} (h : u.str = v.str) : u = v := by
  have hlist := congrArg String.toList h
  simp only [UUID.str, String.toList_ofList, List.append_assoc, List.cons_append] at hlist
  obtain ⟨h₀, hlist⟩ := List.append_inj hlist (by rw [UUID.length_hex, UUID.length_hex])
  obtain ⟨h₈, hlist⟩ := List.append_inj (List.cons.inj hlist).2
    (by rw [UUID.length_hex, UUID.length_hex])
  obtain ⟨h₁₂, hlist⟩ := List.append_inj (List.cons.inj hlist).2
    (by rw [UUID.length_hex, UUID.length_hex])
  obtain ⟨h₁₆, hlist⟩ := List.append_inj (List.cons.inj hlist).2
    (by rw [UUID.length_hex, UUID.length_hex])
  have h₂₀ := (List.cons.inj hlist).2
  have hdigits : ∀ k < 32, u.int.val / 16 ^ k % 16 = v.int.val / 16 ^ k % 16 := by
    intro k hk
    have digit : ∀ {i n}, u.hex i n = v.hex i n → i ≤ 31 - k → 31 - k < i + n →
        u.int.val / 16 ^ k % 16 = v.int.val / 16 ^ k % 16 := by
      intro i n heq hle hlt
      have hplace := UUID.hex_digit heq (j := 31 - k - i) (by omega)
      rwa [show 31 - (i + (31 - k - i)) = k by omega] at hplace
    rcases Nat.lt_or_ge (31 - k) 8 with h | h
    · exact digit h₀ (by omega) (by omega)
    rcases Nat.lt_or_ge (31 - k) 12 with h | h
    · exact digit h₈ (by omega) (by omega)
    rcases Nat.lt_or_ge (31 - k) 16 with h | h
    · exact digit h₁₂ (by omega) (by omega)
    rcases Nat.lt_or_ge (31 - k) 20 with h | h
    · exact digit h₁₆ (by omega) (by omega)
    · exact digit h₂₀ (by omega) (by omega)
  have hmod := mod_pow_of_digits 32 hdigits
  have hpow : (2 : Nat) ^ 128 = 16 ^ 32 := by decide
  rw [Nat.mod_eq_of_lt (u.int.isLt.trans_eq hpow), Nat.mod_eq_of_lt (v.int.isLt.trans_eq hpow)] at hmod
  obtain ⟨uint⟩ := u
  obtain ⟨vint⟩ := v
  exact congrArg UUID.mk (Fin.ext hmod)

/-- Leading zeros do not count. -/
theorem ofDigitChars_replicate (k : Nat) (digits : List Char) :
    Nat.ofDigitChars 10 (List.replicate k '0' ++ digits) 0 = Nat.ofDigitChars 10 digits 0 := by
  induction k with
  | zero => rfl
  | succ k ih =>
    rw [List.replicate_succ, List.cons_append, ← ih]
    rfl

theorem zeroPad_injective {width n m : Nat} (h : zeroPad width n = zeroPad width m) : n = m := by
  have hlist := congrArg String.toList h
  simp only [zeroPad, String.toList_ofList] at hlist
  have hvalue := congrArg (Nat.ofDigitChars 10 · 0) hlist
  simpa only [ofDigitChars_replicate, Nat.ofDigitChars_ten_toDigits] using hvalue

theorem toString_injective {n m : Nat} (h : toString n = toString m) : n = m := by
  rw [Nat.toString_eq_ofList_toDigits, Nat.toString_eq_ofList_toDigits] at h
  have hdigits := congrArg (Nat.ofDigitChars 10 · 0) (String.ofList_injective h)
  simpa only [Nat.ofDigitChars_ten_toDigits] using hdigits

theorem SourceName.value_injective {a b : SourceName} (h : a.value = b.value) : a = b := by
  cases a <;> cases b <;> first | rfl | exact absurd h (by decide)

end EvidenceCartographer.Domain
