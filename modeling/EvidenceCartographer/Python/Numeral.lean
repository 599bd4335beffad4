import EvidenceCartographer.Python.Int
import Mathlib.Data.List.DropRight
import Mathlib.Data.List.Infix

/-! Which texts `int` accepts.

    On a text without surrounding white space `int` reads a sign and a `Numeral`: decimal digits of
    any script, with single underscores between them. The only other thing it looks at is how many
    digits there are. -/

namespace EvidenceCartographer.Python

/-- A decimal digit of any script. -/
def isDecimal (c : Char) : Bool := (transformDecimalAndSpace c).isDigit

/-- Decimal digits with single underscores between them. -/
inductive Numeral : List Char → Prop where
  | digit {c} : isDecimal c = true → Numeral [c]
  | digits {c cs} : isDecimal c = true → Numeral cs → Numeral (c :: cs)
  | underscore {c cs} : isDecimal c = true → Numeral cs → Numeral (c :: '_' :: cs)

/-- The digits of a numeral, in ASCII. -/
def digitsOf (cs : List Char) : List Char := (cs.filter isDecimal).map transformDecimalAndSpace

/-- What a numeral denotes. -/
def numeralValue (cs : List Char) : Nat := Nat.ofDigitChars 10 (digitsOf cs) 0

/-! ### The transformed text -/

theorem digitChar_isDigit {d : Nat} (h : d < 10) : (Nat.digitChar d).isDigit = true := by
  have hall : ∀ d < 10, (Nat.digitChar d).isDigit = true := by decide
  exact hall d h

theorem decimalValue_lt {c : Char} {d : Nat} (h : decimalValue c = some d) : d < 10 := by
  rw [decimalValue] at h
  obtain ⟨z, hz, rfl⟩ := Option.map_eq_some_iff.mp h
  have hspec := List.find?_some hz
  simp only [Bool.and_eq_true, decide_eq_true_eq] at hspec
  omega

/-- A transformed character is itself, a blank, a digit or a question mark. -/
theorem transform_cases (c : Char) : transformDecimalAndSpace c = c ∨
    (transformDecimalAndSpace c = ' ' ∧ isSpace c = true) ∨
    (transformDecimalAndSpace c).isDigit = true ∨ transformDecimalAndSpace c = '?' := by
  unfold transformDecimalAndSpace
  split
  · exact .inl rfl
  split
  · rename_i hspace
    exact .inr (.inl ⟨rfl, hspace⟩)
  split
  · rename_i d hd
    exact .inr (.inr (.inl (digitChar_isDigit (decimalValue_lt hd))))
  · exact .inr (.inr (.inr rfl))

theorem transform_ascii {c : Char} (h : c.toNat < 127) : transformDecimalAndSpace c = c := by
  rw [transformDecimalAndSpace, if_pos h]

/-- The signs and the underscore are only what they are. -/
theorem transform_eq_iff {c x : Char} (hascii : x.toNat < 127) (hblank : x ≠ ' ')
    (hquestion : x ≠ '?') (hdigit : x.isDigit = false) :
    transformDecimalAndSpace c = x ↔ c = x := by
  constructor
  · intro h
    rcases transform_cases c with hc | ⟨hc, -⟩ | hc | hc
    · rw [← hc, h]
    · exact absurd (h.symm.trans hc) hblank
    · rw [h, hdigit] at hc; cases hc
    · exact absurd (h.symm.trans hc) hquestion
  · rintro rfl
    exact transform_ascii hascii

/-- Only white space is transformed to a blank. -/
theorem isSpace_of_transform {c : Char} (h : isAsciiSpace (transformDecimalAndSpace c) = true) :
    isSpace c = true := by
  rcases transform_cases c with hc | ⟨-, hc⟩ | hc | hc
  · rw [hc, isAsciiSpace] at h
    simp only [Bool.or_eq_true, Bool.and_eq_true, decide_eq_true_eq, beq_iff_eq] at h
    simp only [isSpace, Bool.or_eq_true, Bool.and_eq_true, decide_eq_true_eq, beq_iff_eq]
    rcases h with h | rfl
    · omega
    · decide
  · exact hc
  · rw [not_space_digit hc] at h; cases h
  · rw [hc] at h; cases h

theorem isDecimal_of_isDigit {c : Char} (h : c.isDigit = true) : isDecimal c = true := by
  rw [isDecimal, transform_digit h]; exact h

theorem not_isDecimal_underscore : isDecimal '_' = false := by decide

theorem digitsOf_cons {c : Char} (cs : List Char) (h : isDecimal c = true) :
    digitsOf (c :: cs) = transformDecimalAndSpace c :: digitsOf cs := by
  rw [digitsOf, List.filter_cons, if_pos h, List.map_cons, digitsOf]

theorem digitsOf_underscore (cs : List Char) : digitsOf ('_' :: cs) = digitsOf cs := by
  rw [digitsOf, List.filter_cons, not_isDecimal_underscore, if_neg Bool.false_ne_true, digitsOf]

theorem length_digitsOf (cs : List Char) : (digitsOf cs).length = cs.countP isDecimal := by
  rw [digitsOf, List.length_map, List.countP_eq_length_filter]

/-- A plain digit string is its own digits. -/
theorem digitsOf_digits {cs : List Char} (h : ∀ c ∈ cs, c.isDigit = true) : digitsOf cs = cs := by
  induction cs with
  | nil => rfl
  | cons c cs ih =>
    have hc := h c List.mem_cons_self
    rw [digitsOf_cons cs (isDecimal_of_isDigit hc), transform_digit hc,
      ih fun x hx => h x (List.mem_cons_of_mem _ hx)]

theorem Numeral.of_digits {cs : List Char} (h : ∀ c ∈ cs, c.isDigit = true) (hne : cs ≠ []) :
    Numeral cs := by
  induction cs with
  | nil => exact absurd rfl hne
  | cons c cs ih =>
    have hc := isDecimal_of_isDigit (h c List.mem_cons_self)
    cases cs with
    | nil => exact .digit hc
    | cons d cs => exact .digits hc (ih (fun x hx => h x (List.mem_cons_of_mem _ hx)) (by simp))

/-- A digit string denotes zero if all its digits do. -/
theorem ofDigitChars_pos {ds : List Char} (h : ∀ c ∈ ds, c.isDigit = true) (init : Nat) :
    0 < Nat.ofDigitChars 10 ds init ↔ 0 < init ∨ ∃ c ∈ ds, c ≠ '0' := by
  induction ds generalizing init with
  | nil => simp [Nat.ofDigitChars]
  | cons c ds ih =>
    have hr := isDigit_range (h c List.mem_cons_self)
    have hzero : c ≠ '0' ↔ 0 < c.toNat - 48 := by
      rw [ne_eq, ← Char.toNat_inj]
      change ¬ c.toNat = 48 ↔ _
      omega
    have hstep : Nat.ofDigitChars 10 (c :: ds) init =
        Nat.ofDigitChars 10 ds (10 * init + (c.toNat - 48)) := rfl
    rw [hstep, ih fun x hx => h x (List.mem_cons_of_mem _ hx)]
    simp only [List.mem_cons, exists_eq_or_imp, hzero]
    rw [← or_assoc]
    refine or_congr_left ?_
    omega

theorem isDigit_of_mem_digitsOf {cs : List Char} {c : Char} (h : c ∈ digitsOf cs) :
    c.isDigit = true := by
  obtain ⟨x, hx, rfl⟩ := List.mem_map.mp h
  exact (List.mem_filter.mp hx).2

/-- Which numerals are positive. -/
theorem numeralValue_pos {cs : List Char} :
    0 < numeralValue cs ↔ ∃ c ∈ cs, isDecimal c = true ∧ transformDecimalAndSpace c ≠ '0' := by
  rw [numeralValue, ofDigitChars_pos (fun c hc => isDigit_of_mem_digitsOf hc)]
  constructor
  · rintro (h | ⟨c, hc, hne⟩)
    · cases h
    · obtain ⟨x, hx, rfl⟩ := List.mem_map.mp hc
      obtain ⟨hmem, hdecimal⟩ := List.mem_filter.mp hx
      exact ⟨x, hmem, hdecimal, hne⟩
  · rintro ⟨c, hc, hdecimal, hne⟩
    exact .inr ⟨_, List.mem_map.mpr ⟨c, List.mem_filter.mpr ⟨hc, hdecimal⟩, rfl⟩, hne⟩

/-! ### The scan -/

/-- A list that can follow a digit: nothing, or more of the numeral, after one underscore or none. -/
def NumeralTail (cs : List Char) : Prop :=
  cs = [] ∨ Numeral cs ∨ ∃ rest, cs = '_' :: rest ∧ Numeral rest

theorem numeral_cons {c : Char} {cs : List Char} :
    Numeral (c :: cs) ↔ isDecimal c = true ∧ NumeralTail cs := by
  constructor
  · intro h
    cases h with
    | digit hc => exact ⟨hc, .inl rfl⟩
    | digits hc hcs => exact ⟨hc, .inr (.inl hcs)⟩
    | underscore hc hcs => exact ⟨hc, .inr (.inr ⟨_, rfl, hcs⟩)⟩
  · rintro ⟨hc, rfl | hcs | ⟨rest, rfl, hrest⟩⟩
    · exact .digit hc
    · exact .digits hc hcs
    · exact .underscore hc hrest

theorem numeralTail_cons {c : Char} {cs : List Char} :
    NumeralTail (c :: cs) ↔ isDecimal c = true ∧ NumeralTail cs ∨ c = '_' ∧ Numeral cs := by
  constructor
  · rintro (h | h | ⟨rest, h, hrest⟩)
    · cases h
    · exact .inl (numeral_cons.mp h)
    · obtain ⟨rfl, rfl⟩ := List.cons.inj h
      exact .inr ⟨rfl, hrest⟩
  · rintro (h | ⟨rfl, h⟩)
    · exact .inr (.inl (numeral_cons.mpr h))
    · exact .inr (.inr ⟨cs, rfl, h⟩)

/-- By induction on the text: what is read to its end is a numeral, or the tail of one. -/
theorem scanDigits_numeral (cs digits : List Char) :
    (scanDigits true (cs.map transformDecimalAndSpace) = some (digits, []) ↔
      Numeral cs ∧ digits = digitsOf cs) ∧
    (scanDigits false (cs.map transformDecimalAndSpace) = some (digits, []) ↔
      NumeralTail cs ∧ digits = digitsOf cs) := by
  induction cs generalizing digits with
  | nil =>
    refine ⟨⟨fun h => ?_, fun h => ?_⟩, ⟨fun h => ?_, fun h => ?_⟩⟩
    · cases h
    · cases h.1
    · cases h
      exact ⟨.inl rfl, rfl⟩
    · rw [h.2]; rfl
  | cons c cs ih =>
    rw [numeral_cons, numeralTail_cons, List.map_cons]
    by_cases hc : isDecimal c = true
    · have hscan : ∀ needDigit,
          scanDigits needDigit (transformDecimalAndSpace c :: cs.map transformDecimalAndSpace) =
            some (digits, []) ↔ NumeralTail cs ∧ digits = digitsOf (c :: cs) := by
        intro needDigit
        rw [scanDigits, if_pos (show (transformDecimalAndSpace c).isDigit = true from hc),
          Option.map_eq_some_iff, digitsOf_cons cs hc]
        constructor
        · rintro ⟨⟨ds, rest⟩, hds, heq⟩
          obtain ⟨rfl, rfl⟩ := Prod.mk.inj heq
          obtain ⟨htail, rfl⟩ := (ih ds).2.mp hds
          exact ⟨htail, rfl⟩
        · rintro ⟨htail, rfl⟩
          exact ⟨_, (ih _).2.mpr ⟨htail, rfl⟩, rfl⟩
      have hne : c ≠ '_' := by
        rintro rfl
        rw [not_isDecimal_underscore] at hc; cases hc
      refine ⟨(hscan true).trans ?_, (hscan false).trans ?_⟩
      · simp [hc]
      · simp [hc, hne]
    · have hdigit : ¬ (transformDecimalAndSpace c).isDigit = true := hc
      have hiff := transform_eq_iff (c := c) (x := '_') (by decide) (by decide) (by decide)
        (by decide)
      rw [scanDigits, scanDigits, if_neg hdigit, if_neg hdigit, if_pos rfl,
        if_neg Bool.false_ne_true]
      refine ⟨by simp [hc], ?_⟩
      by_cases hu : c = '_'
      · subst hu
        rw [if_pos (hiff.mpr rfl), (ih digits).1, digitsOf_underscore]
        simp [hc]
      · rw [if_neg fun h => hu (hiff.mp h)]
        simp [hc, hu]

/-- What is left after a scan is the end of the text. -/
theorem scanDigits_suffix {needDigit : Bool} {cs digits rest : List Char}
    (h : scanDigits needDigit cs = some (digits, rest)) : rest <:+ cs := by
  induction cs generalizing needDigit digits with
  | nil =>
    rw [scanDigits] at h
    split at h
    · cases h
    · cases h; exact List.suffix_refl _
  | cons c cs ih =>
    rw [scanDigits] at h
    split at h
    · obtain ⟨⟨ds, rest'⟩, hds, heq⟩ := Option.map_eq_some_iff.mp h
      obtain ⟨-, rfl⟩ := Prod.mk.inj heq
      exact (ih hds).trans (List.suffix_cons _ _)
    split at h
    · cases h
    split at h
    · exact (ih h).trans (List.suffix_cons _ _)
    · cases h; exact List.suffix_refl _

/-! ### `int` -/

/-- A text with no white space around it. -/
structure Trimmed (cs : List Char) : Prop where
  head : ∀ c ∈ cs.head?, isSpace c = false
  last : ∀ c ∈ cs.getLast?, isSpace c = false

theorem strip_trimmed (s : String) : Trimmed (strip s).toList := by
  rw [strip, String.toList_ofList]
  change Trimmed (List.rdropWhile isSpace (s.toList.dropWhile isSpace))
  refine ⟨fun c hc => ?_, fun c hc => ?_⟩
  · -- what is dropped at the end leaves the head alone
    obtain ⟨rest, hrest⟩ := List.rdropWhile_prefix isSpace (l := s.toList.dropWhile isSpace)
    have hhead : (s.toList.dropWhile isSpace).head? = some c := by
      rw [← hrest, List.head?_append, Option.mem_def.mp hc]; rfl
    have hnot := List.head?_dropWhile_not isSpace s.toList
    rw [hhead] at hnot
    simpa using hnot
  · rw [Option.mem_def, List.getLast?_eq_some_iff] at hc
    obtain ⟨init, hinit⟩ := hc
    have hne : List.rdropWhile isSpace (s.toList.dropWhile isSpace) ≠ [] := by rw [hinit]; simp
    have hlast := List.rdropWhile_last_not isSpace (s.toList.dropWhile isSpace) hne
    simp only [hinit, List.getLast_append_singleton] at hlast
    simpa using hlast

/-- A sign, and what follows it. -/
inductive Signed : List Char → Int → List Char → Prop where
  | none (body) : Signed body 1 body
  | plus (body) : Signed ('+' :: body) 1 body
  | minus (body) : Signed ('-' :: body) (-1) body

theorem takeSign_signed (cs : List Char) : ∃ s body, Signed cs s body ∧
    takeSign (cs.map transformDecimalAndSpace) = (s, body.map transformDecimalAndSpace) := by
  cases cs with
  | nil => exact ⟨1, [], .none [], rfl⟩
  | cons c cs =>
    by_cases hplus : c = '+'
    · subst hplus
      exact ⟨1, cs, .plus cs, rfl⟩
    by_cases hminus : c = '-'
    · subst hminus
      exact ⟨-1, cs, .minus cs, rfl⟩
    refine ⟨1, c :: cs, .none _, ?_⟩
    have hp := transform_eq_iff (c := c) (x := '+') (by decide) (by decide) (by decide) (by decide)
    have hm := transform_eq_iff (c := c) (x := '-') (by decide) (by decide) (by decide) (by decide)
    rw [List.map_cons]
    unfold takeSign
    split
    · rename_i heq
      exact absurd (hp.mp (List.cons.inj heq).1) hplus
    · rename_i heq
      exact absurd (hm.mp (List.cons.inj heq).1) hminus
    · rfl

/-- A numeral leaves no choice of its sign. -/
theorem takeSign_of_signed {cs body : List Char} {s : Int} (h : Signed cs s body)
    (hbody : Numeral body) :
    takeSign (cs.map transformDecimalAndSpace) = (s, body.map transformDecimalAndSpace) := by
  cases h with
  | plus => rfl
  | minus => rfl
  | none =>
    cases cs with
    | nil => cases hbody
    | cons c cs => exact takeSign_digit _ (numeral_cons.mp hbody).1

theorem dropWhile_trimmed {cs : List Char} (h : Trimmed cs) :
    (cs.map transformDecimalAndSpace).dropWhile isAsciiSpace = cs.map transformDecimalAndSpace := by
  cases cs with
  | nil => rfl
  | cons c cs =>
    have hc := h.head c (by simp)
    have hblank : isAsciiSpace (transformDecimalAndSpace c) = false := by
      by_contra hspace
      rw [isSpace_of_transform (by simpa using hspace)] at hc
      cases hc
    rw [List.map_cons, List.dropWhile_cons_of_neg (by simp [hblank])]

theorem Signed.suffix {cs body : List Char} {s : Int} (h : Signed cs s body) : body <:+ cs := by
  cases h with
  | none => exact List.suffix_refl _
  | plus => exact List.suffix_cons _ _
  | minus => exact List.suffix_cons _ _

/-- After a trimmed text there are no blanks to skip. -/
theorem rest_trimmed {cs rest : List Char} (h : Trimmed cs)
    (hrest : rest <:+ cs.map transformDecimalAndSpace) (hblank : rest.all isAsciiSpace = true) :
    rest = [] := by
  rcases List.eq_nil_or_concat rest with rfl | ⟨init, last, rfl⟩
  · rfl
  obtain ⟨before, hbefore⟩ := hrest
  rw [List.concat_eq_append] at hblank hbefore
  have hlast : (cs.map transformDecimalAndSpace).getLast? = some last := by
    rw [← hbefore, ← List.append_assoc, List.getLast?_concat]
  rw [List.getLast?_map, Option.map_eq_some_iff] at hlast
  obtain ⟨c, hc, rfl⟩ := hlast
  have hspace : isAsciiSpace (transformDecimalAndSpace c) = true := by
    simp only [List.all_append, List.all_cons, Bool.and_eq_true] at hblank
    exact hblank.2.1
  have hnot := h.last c hc
  rw [isSpace_of_transform hspace] at hnot
  cases hnot

/-- `int` on a trimmed text: a sign, and a numeral that is not too long. -/
theorem int_trimmed {cs : List Char} (h : Trimmed cs) (v : Int) :
    int (.ofList cs) = some v ↔ ∃ s body, Signed cs s body ∧ Numeral body ∧
      cs.countP isDecimal ≤ maxStrDigits ∧ v = s * numeralValue body := by
  have hcount : ∀ {s body}, Signed cs s body → (digitsOf body).length = cs.countP isDecimal := by
    intro s body hs
    rw [length_digitsOf]
    cases hs with
    | none => rfl
    | plus => exact (List.countP_cons_of_neg (by decide)).symm
    | minus => exact (List.countP_cons_of_neg (by decide)).symm
  simp only [int, String.toList_ofList, dropWhile_trimmed h]
  constructor
  · intro hint
    obtain ⟨s, body, hs, htake⟩ := takeSign_signed cs
    rw [htake] at hint
    split at hint
    · cases hint
    rename_i digits rest hscan
    dsimp only at hscan
    split at hint
    · cases hint
    rename_i hlength
    split at hint
    swap
    · cases hint
    rename_i hblank
    have hrest : rest = [] := by
      refine rest_trimmed h ((scanDigits_suffix hscan).trans ?_) hblank
      exact hs.suffix.map _
    subst hrest
    obtain ⟨hbody, rfl⟩ := (scanDigits_numeral body digits).1.mp hscan
    refine ⟨s, body, hs, hbody, ?_, (Option.some.inj hint).symm⟩
    rw [← hcount hs]
    exact Nat.le_of_not_lt hlength
  · rintro ⟨s, body, hs, hbody, hlength, rfl⟩
    rw [takeSign_of_signed hs hbody, (scanDigits_numeral body (digitsOf body)).1.mpr ⟨hbody, rfl⟩]
    rw [← hcount hs] at hlength
    simp only [if_neg (Nat.not_lt.mpr hlength), List.all_nil, if_true]
    rfl

end EvidenceCartographer.Python
