import Mathlib.Data.List.Basic
import Mathlib.Data.Nat.Digits.Defs

/-! `int(value)`, `value.strip()` and `repr(value)` on text, as CPython 3.12 computes them.

    `int` first maps every Unicode space to a blank and every Unicode decimal digit to its ASCII
    digit, then reads blanks, an optional sign, digits with single underscores between them, and
    blanks. `none` stands for the `ValueError`. -/

namespace EvidenceCartographer.Python

/-- The code points `str.isspace` accepts. -/
def isSpace (c : Char) : Bool :=
  let n := c.toNat
  (9 ≤ n && n ≤ 13) || (28 ≤ n && n ≤ 32) || n == 0x85 || n == 0xa0 || n == 0x1680 ||
    (0x2000 ≤ n && n ≤ 0x200a) || n == 0x2028 || n == 0x2029 || n == 0x202f || n == 0x205f ||
    n == 0x3000

/-- `str.strip()`. -/
def strip (s : String) : String :=
  .ofList (((s.toList.dropWhile isSpace).reverse.dropWhile isSpace).reverse)

/-- The characters of Latin-1 that `repr` writes in hexadecimal. -/
def isNonPrintable (n : Nat) : Bool := n < 32 || (127 ≤ n && n ≤ 160) || n == 173

/-- One character inside `repr(value)`. -/
def reprChar (quote c : Char) : List Char :=
  let n := c.toNat
  if c = '\\' ∨ c = quote then ['\\', c]
  else if c = '\n' then ['\\', 'n']
  else if c = '\r' then ['\\', 'r']
  else if c = '\t' then ['\\', 't']
  else if isNonPrintable n then ['\\', 'x', Nat.digitChar (n / 16), Nat.digitChar (n % 16)]
  else [c]

/-- `repr(value)`, on Latin-1 text. -/
def repr (value : String) : String :=
  let single := Char.ofNat 39
  let double := Char.ofNat 34
  let quote := if single ∈ value.toList ∧ double ∉ value.toList then double else single
  .ofList (quote :: value.toList.flatMap (reprChar quote) ++ [quote])

/-- The zeros of the decimal digit runs outside ASCII (category Nd of Unicode 15.0). -/
def decimalZeros : List Nat :=
  [0x660, 0x6f0, 0x7c0, 0x966, 0x9e6, 0xa66, 0xae6, 0xb66, 0xbe6, 0xc66, 0xce6, 0xd66, 0xde6,
   0xe50, 0xed0, 0xf20, 0x1040, 0x1090, 0x17e0, 0x1810, 0x1946, 0x19d0, 0x1a80, 0x1a90, 0x1b50,
   0x1bb0, 0x1c40, 0x1c50, 0xa620, 0xa8d0, 0xa900, 0xa9d0, 0xa9f0, 0xaa50, 0xabf0, 0xff10,
   0x104a0, 0x10d30, 0x11066, 0x110f0, 0x11136, 0x111d0, 0x112f0, 0x11450, 0x114d0, 0x11650,
   0x116c0, 0x11730, 0x118e0, 0x11950, 0x11c50, 0x11d50, 0x11da0, 0x11f50, 0x16a60, 0x16ac0,
   0x16b50, 0x1d7ce, 0x1d7d8, 0x1d7e2, 0x1d7ec, 0x1d7f6, 0x1e140, 0x1e2f0, 0x1e4f0, 0x1e950,
   0x1fbf0]

/-- The value of a decimal digit outside ASCII. -/
def decimalValue (c : Char) : Option Nat :=
  (decimalZeros.find? fun z => z ≤ c.toNat && c.toNat < z + 10).map (c.toNat - ·)

/-- One character of the text `int` works on: ASCII, with `?` for what is neither. -/
def transformDecimalAndSpace (c : Char) : Char :=
  if c.toNat < 127 then c
  else if isSpace c then ' '
  else match decimalValue c with
    | some d => Nat.digitChar d
    | none => '?'

/-- C's `isspace`, on the transformed text. -/
def isAsciiSpace (c : Char) : Bool := (9 ≤ c.toNat && c.toNat ≤ 13) || c == ' '

/-- Digits with single underscores between them, and what follows; `needDigit` at the start and
    after an underscore. -/
def scanDigits : Bool → List Char → Option (List Char × List Char)
  | needDigit, [] => if needDigit then none else some ([], [])
  | needDigit, c :: cs =>
    if c.isDigit then (scanDigits false cs).map fun r => (c :: r.1, r.2)
    else if needDigit then none
    else if c = '_' then scanDigits true cs
    else some ([], c :: cs)

/-- The optional sign. -/
def takeSign : List Char → Int × List Char
  | '+' :: cs => (1, cs)
  | '-' :: cs => (-1, cs)
  | cs => (1, cs)

/-- `sys.int_info.default_max_str_digits`. -/
def maxStrDigits : Nat := 4300

/-- `int(value)`. -/
def int (value : String) : Option Int :=
  let text := (value.toList.map transformDecimalAndSpace).dropWhile isAsciiSpace
  let signed := takeSign text
  match scanDigits true signed.2 with
  | none => none
  | some (digits, rest) =>
    if maxStrDigits < digits.length then none
    else if rest.all isAsciiSpace then some (signed.1 * Nat.ofDigitChars 10 digits 0)
    else none

/-- The text of the `ValueError` that `int(value)` raises: the value is quoted up to its 200th
    character, unless it has too many digits. -/
def intError (value : String) : String :=
  let invalid := "invalid literal for int() with base 10: " ++ .ofList ((repr value).toList.take 200)
  let text := (value.toList.map transformDecimalAndSpace).dropWhile isAsciiSpace
  match scanDigits true (takeSign text).2 with
  | none => invalid
  | some (digits, _) =>
    if maxStrDigits < digits.length then
      "Exceeds the limit (" ++ toString maxStrDigits ++ " digits) for integer string conversion: " ++
        "value has " ++ toString digits.length ++
        " digits; use sys.set_int_max_str_digits() to increase the limit"
    else invalid

example : int " +1_0 " = some 10 := by decide
example : int "1__0" = none := by decide

theorem scanDigits_digits {cs : List Char} (h : ∀ c ∈ cs, c.isDigit = true) :
    scanDigits false cs = some (cs, []) := by
  induction cs with
  | nil => rfl
  | cons c cs ih => simp [scanDigits, h c, ih fun c hc => h c (List.mem_cons_of_mem _ hc)]

theorem scanDigits_start {cs : List Char} (h : ∀ c ∈ cs, c.isDigit = true) (hne : cs ≠ []) :
    scanDigits true cs = some (cs, []) := by
  cases cs with
  | nil => exact absurd rfl hne
  | cons c cs =>
    simp [scanDigits, h c, scanDigits_digits fun c hc => h c (List.mem_cons_of_mem _ hc)]

theorem isDigit_range {c : Char} (h : c.isDigit = true) : 48 ≤ c.toNat ∧ c.toNat ≤ 57 := by
  simp only [Char.isDigit, Bool.and_eq_true, decide_eq_true_eq] at h
  exact ⟨h.1, h.2⟩

theorem transform_digit {c : Char} (h : c.isDigit = true) : transformDecimalAndSpace c = c := by
  have := isDigit_range h
  rw [transformDecimalAndSpace, if_pos (by omega)]

theorem not_space_digit {c : Char} (h : c.isDigit = true) : isAsciiSpace c = false := by
  have hr := isDigit_range h
  have hne : c ≠ ' ' := by rintro rfl; simp at h
  simp only [isAsciiSpace, Bool.or_eq_false_iff, beq_eq_false_iff_ne]
  exact ⟨by simp; omega, hne⟩

theorem takeSign_digit {c : Char} (cs : List Char) (h : c.isDigit = true) :
    takeSign (c :: cs) = (1, c :: cs) := by
  unfold takeSign
  split
  · rename_i he; cases he; simp at h
  · rename_i he; cases he; simp at h
  · rfl

/-- `int` reads a plain digit string, up to the length limit. -/
theorem int_digits {cs : List Char} (h : ∀ c ∈ cs, c.isDigit = true) (hne : cs ≠ [])
    (hlen : cs.length ≤ maxStrDigits) :
    int (.ofList cs) = some (Nat.ofDigitChars 10 cs 0 : Int) := by
  have hmap : cs.map transformDecimalAndSpace = cs :=
    (List.map_congr_left fun c hc => transform_digit (h c hc)).trans (List.map_id cs)
  have hdrop : cs.dropWhile isAsciiSpace = cs := by
    cases cs with
    | nil => rfl
    | cons c cs => simp [not_space_digit (h c List.mem_cons_self)]
  have hsign : takeSign cs = (1, cs) := by
    cases cs with
    | nil => exact absurd rfl hne
    | cons c cs => exact takeSign_digit cs (h c List.mem_cons_self)
  simp [int, hmap, hdrop, hsign, scanDigits_start h hne, hlen.not_gt]

/-- `int(str(n)) == n` below the length limit. -/
theorem int_toString {n : Nat} (h : n < 10 ^ maxStrDigits) : int (toString n) = some (n : Int) := by
  rw [Nat.toString_eq_ofList_toDigits,
    int_digits (fun c hc => Nat.isDigit_of_mem_toDigits (by decide) (by decide) hc)
      Nat.toDigits_ne_nil (Nat.toDigits_length 10 n maxStrDigits (by decide) h),
    Nat.ofDigitChars_ten_toDigits]

end EvidenceCartographer.Python
