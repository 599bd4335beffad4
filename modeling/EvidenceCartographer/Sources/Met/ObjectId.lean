import EvidenceCartographer.Python.Numeral
import EvidenceCartographer.Sources.Met.Rows

/-! Which texts are read as an Object ID.

    The contract wants a positive catalogue number and quarantines what is blank, nonnumeric, zero or
    negative. `int` reads more than such numbers: digits of other scripts, and underscores between
    digits. Those texts are the ones on which the reader departs from the contract. -/

namespace EvidenceCartographer.Sources.Met

open Python Domain Application Infrastructure

/-- A stripped text that is the catalogue number `n`: an optional plus, and ASCII digits. -/
def CatalogueNumber (cs : List Char) (n : Int) : Prop :=
  ∃ digits, (cs = digits ∨ cs = '+' :: digits) ∧ digits ≠ [] ∧
    (∀ c ∈ digits, c.isDigit = true) ∧ n = (Nat.ofDigitChars 10 digits 0 : Int) ∧ 0 < n

/-- A numeral that is not written in ASCII digits alone, and not all zeros. -/
def LooseNumeral (cs : List Char) : Prop :=
  ∃ body, (cs = body ∨ cs = '+' :: body) ∧ Numeral body ∧ (∃ c ∈ body, c.isDigit = false) ∧
    ∃ c ∈ body, isDecimal c = true ∧ transformDecimalAndSpace c ≠ '0'

/-- The text is read as the contract says: as the catalogue number it is, and otherwise not at all;
    then its row is quarantined under its place, and neither claims an Object ID nor repeats one. -/
structure ReadAsDocumented (text : String) : Prop where
  parsed : ∀ n, parsePositiveObjectId (some text) = some n ↔ CatalogueNumber (strip text).toList n
  refused : (∀ n, ¬ CatalogueNumber (strip text).toList n) →
    ∀ fromisoformat context id payload n seen, Payload.get payload "Object ID" = some text → 2 ≤ n →
      ∃ item, evidenceForRow fromisoformat context id payload n seen = .ok (item, seen) ∧
        item.result.outcome = .quarantined ∧
        item.provenance.sourceRecordId = sourceRecordId context none n

/-- A row without an Object ID, whatever was seen before it. -/
theorem evidenceForRow_quarantined {fromisoformat : String → Bool} {context : MetEvidenceContext}
    {id : UUID} {payload : Payload} {n : Nat} {seen : List Int} (hge : 2 ≤ n)
    (hnone : parsePositiveObjectId (payload.get "Object ID") = none) :
    ∃ item, evidenceForRow fromisoformat context id payload n seen = .ok (item, seen) ∧
      item.result.outcome = .quarantined ∧
      item.provenance.sourceRecordId = sourceRecordId context none n := by
  simp only [evidenceForRow, hnone, dif_pos hge]
  refine ⟨_, rfl, ?_, rfl⟩
  exact (validate_outcome fromisoformat _).1.mpr hnone

/-- What the reader takes for an Object ID. -/
theorem parsePositiveObjectId_iff (text : String) (n : Int) :
    parsePositiveObjectId (some text) = some n ↔
      ∃ body, ((strip text).toList = body ∨ (strip text).toList = '+' :: body) ∧ Numeral body ∧
        (strip text).toList.countP isDecimal ≤ maxStrDigits ∧ n = numeralValue body ∧ 0 < n := by
  have hint := int_trimmed (strip_trimmed text)
  rw [String.ofList_toList] at hint
  have hparse : parsePositiveObjectId (some text) = some n ↔ int (strip text) = some n ∧ 0 < n := by
    unfold parsePositiveObjectId
    dsimp only
    split
    · rename_i hnone
      simp [hnone]
    · rename_i parsed hparsed
      split
      · rename_i hpos
        rw [hparsed]
        constructor
        · rintro ⟨⟩
          exact ⟨rfl, hpos⟩
        · exact fun h => h.1
      · rename_i hneg
        rw [hparsed]
        constructor
        · rintro ⟨⟩
        · rintro ⟨⟨⟩, hpos⟩
          exact absurd hpos hneg
  rw [hparse, hint]
  constructor
  · rintro ⟨⟨s, body, hs, hbody, hlength, rfl⟩, hpos⟩
    generalize (strip text).toList = cs at hs hlength
    cases hs with
    | none => exact ⟨_, .inl rfl, hbody, hlength, by rw [Int.one_mul], hpos⟩
    | plus => exact ⟨_, .inr rfl, hbody, hlength, by rw [Int.one_mul], hpos⟩
    | minus =>
      have hge : (0 : Int) ≤ numeralValue body := Int.natCast_nonneg _
      omega
  · rintro ⟨body, hcs, hbody, hlength, rfl, hpos⟩
    refine ⟨⟨1, body, ?_, hbody, hlength, by rw [Int.one_mul]⟩, hpos⟩
    rcases hcs with hcs | hcs
    · rw [hcs]; exact .none body
    · rw [hcs]; exact .plus body

/-- A numeral has no sign of its own. -/
theorem numeral_not_plus {body : List Char} : ¬ Numeral ('+' :: body) := by
  intro h
  exact absurd (numeral_cons.mp h).1 (by decide)

/-- What follows the sign of a numeral. -/
theorem numeral_unique {cs body body' : List Char} (h : cs = body ∨ cs = '+' :: body)
    (h' : cs = body' ∨ cs = '+' :: body') (hbody : Numeral body) (hbody' : Numeral body') :
    body = body' := by
  rcases h with rfl | rfl
  · rcases h' with rfl | rfl
    · rfl
    · exact absurd hbody numeral_not_plus
  · rcases h' with rfl | h'
    · exact absurd hbody' numeral_not_plus
    · exact (List.cons.inj h').2

theorem catalogueNumber_numeral {cs : List Char} {n : Int} (h : CatalogueNumber cs n) :
    ∃ body, (cs = body ∨ cs = '+' :: body) ∧ Numeral body ∧ (∀ c ∈ body, c.isDigit = true) ∧
      n = numeralValue body ∧ 0 < n := by
  obtain ⟨digits, hcs, hne, hdigits, rfl, hpos⟩ := h
  refine ⟨digits, hcs, .of_digits hdigits hne, hdigits, ?_, hpos⟩
  rw [numeralValue, digitsOf_digits hdigits]

/-- A text is read as the contract says if and only if it is no loose numeral. -/
theorem readAsDocumented_iff {text : String}
    (hlimit : (strip text).toList.countP isDecimal ≤ maxStrDigits) :
    ReadAsDocumented text ↔ ¬ LooseNumeral (strip text).toList := by
  constructor
  · rintro ⟨hparsed, -⟩ ⟨body, hcs, hbody, ⟨c, hc, hloose⟩, hpositive⟩
    have hpos : (0 : Int) < numeralValue body := by
      exact_mod_cast numeralValue_pos.mpr hpositive
    -- it is read as a number, which it is not
    have hread := (parsePositiveObjectId_iff text _).mpr ⟨body, hcs, hbody, hlimit, rfl, hpos⟩
    obtain ⟨body', hcs', hbody', hdigits, -⟩ := catalogueNumber_numeral ((hparsed _).mp hread)
    obtain rfl := numeral_unique hcs hcs' hbody hbody'
    rw [hdigits c hc] at hloose
    cases hloose
  · intro hstrict
    have hparsed : ∀ n, parsePositiveObjectId (some text) = some n ↔
        CatalogueNumber (strip text).toList n := by
      intro n
      rw [parsePositiveObjectId_iff]
      constructor
      · rintro ⟨body, hcs, hbody, -, rfl, hpos⟩
        have hdigits : ∀ c ∈ body, c.isDigit = true := by
          intro c hc
          by_contra hloose
          refine hstrict ⟨body, hcs, hbody, ⟨c, hc, by simpa using hloose⟩, ?_⟩
          exact numeralValue_pos.mp (by exact_mod_cast hpos)
        refine ⟨body, hcs, ?_, hdigits, ?_, hpos⟩
        · rintro rfl
          cases hbody
        · rw [numeralValue, digitsOf_digits hdigits]
      · intro hnumber
        obtain ⟨body, hcs, hbody, -, hn, hpos⟩ := catalogueNumber_numeral hnumber
        exact ⟨body, hcs, hbody, hlimit, hn, hpos⟩
    refine ⟨hparsed, fun hnone fromisoformat context id payload n seen hpayload hge => ?_⟩
    refine evidenceForRow_quarantined hge ?_
    rw [hpayload, Option.eq_none_iff_forall_ne_some]
    exact fun m hm => hnone m ((hparsed m).mp hm)

theorem readAsDocumented_iff_sample :
    ReadAsDocumented " +42 " ↔ ¬ LooseNumeral (strip " +42 ").toList :=
  readAsDocumented_iff (by decide)

/-- Ten, with an underscore. -/
theorem readAsDocumented_underscore :
    (strip "1_0").toList.countP isDecimal ≤ maxStrDigits ∧
      parsePositiveObjectId (some "1_0") = some 10 ∧ ¬ ReadAsDocumented "1_0" := by
  refine ⟨by decide, by decide, fun h => ?_⟩
  obtain ⟨digits, hcs, -, hdigits, -⟩ := (h.parsed 10).mp (by decide)
  have htext : (strip "1_0").toList = ['1', '_', '0'] := by decide
  rw [htext] at hcs
  rcases hcs with rfl | hcs
  · exact absurd (hdigits '_' (by simp)) (by decide)
  · exact absurd (List.cons.inj hcs).1 (by decide)

end EvidenceCartographer.Sources.Met
