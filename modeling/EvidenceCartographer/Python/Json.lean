import EvidenceCartographer.Python.Hashlib
import Mathlib.Data.List.Sort
import Mathlib.Data.Nat.Digits.Defs
import Mathlib.Data.String.Basic

/-! `json.dumps(value, ensure_ascii=False, separators=(",", ":"), sort_keys=True)` and its UTF-8
    encoding.

    A JSON value is what `model_dump(mode="json")` returns: a finite tree of objects, arrays,
    strings, booleans, integers and `null`. Its text has no newline, nor has the encoding of its
    text, so a value and a newline after it are one line. -/

namespace EvidenceCartographer.Python

inductive Json where
  | null
  | bool (b : Bool)
  | int (n : Int)
  | str (s : String)
  | arr (items : List Json)
  | obj (fields : List (String × Json))

namespace Json

/-- `ESCAPE_DCT` of the encoder, with its `\u00XX` default below the space. -/
def escapeChar (c : Char) : List Char :=
  if c = '\x22' then ['\x5c', '\x22']
  else if c = '\x5c' then ['\x5c', '\x5c']
  else if c = '\n' then ['\x5c', 'n']
  else if c = '\r' then ['\x5c', 'r']
  else if c = '\t' then ['\x5c', 't']
  else if c = '\x08' then ['\x5c', 'b']
  else if c = '\x0c' then ['\x5c', 'f']
  else if c.toNat < 0x20 then
    ['\x5c', 'u', '0', '0', Nat.digitChar (c.toNat / 16), Nat.digitChar (c.toNat % 16)]
  else [c]

/-- A string in its quotes. -/
def quote (s : String) : List Char := '\x22' :: (s.toList.flatMap escapeChar ++ ['\x22'])

/-- The fields of an object in key order. -/
def sortFields {β : Type} (fields : List (String × β)) : List (String × β) :=
  fields.insertionSort fun f g => f.1 ≤ g.1

def field (f : String × List Char) : List Char := quote f.1 ++ ':' :: f.2

mutual

def dumps : Json → List Char
  | .null => "null".toList
  | .bool true => "true".toList
  | .bool false => "false".toList
  | .int n => (toString n).toList
  | .str s => quote s
  | .arr items => '[' :: (List.intercalate [','] (dumpsItems items) ++ [']'])
  | .obj fields =>
    '\x7b' :: (List.intercalate [','] ((sortFields (dumpsFields fields)).map field) ++ ['\x7d'])

def dumpsItems : List Json → List (List Char)
  | [] => []
  | item :: items => dumps item :: dumpsItems items

def dumpsFields : List (String × Json) → List (String × List Char)
  | [] => []
  | (key, value) :: fields => (key, dumps value) :: dumpsFields fields

end

/-- What `escapeChar` can write: an entry of `ESCAPE_DCT`, a `\u00XX`, or the character itself. -/
inductive Escaped : Char → List Char → Prop where
  | short {c e} : (c, e) ∈ [('\x22', '\x22'), ('\x5c', '\x5c'), ('\n', 'n'), ('\r', 'r'),
      ('\t', 't'), ('\x08', 'b'), ('\x0c', 'f')] → Escaped c ['\x5c', e]
  | control {c} : c.toNat < 0x20 →
      Escaped c ['\x5c', 'u', '0', '0', Nat.digitChar (c.toNat / 16), Nat.digitChar (c.toNat % 16)]
  | plain {c} : c ≠ '\x22' → c ≠ '\x5c' → ¬ c.toNat < 0x20 → Escaped c [c]

theorem escaped_escapeChar (c : Char) : Escaped c (escapeChar c) := by
  unfold escapeChar
  repeat' split
  any_goals subst_vars; exact .short (by decide)
  · rename_i hcontrol
    exact .control hcontrol
  · rename_i hquote hbackslash _ _ _ _ _ hcontrol
    exact .plain hquote hbackslash hcontrol

theorem Escaped.length {c : Char} {text : List Char} (h : Escaped c text) :
    1 ≤ text.length ∧ text.length ≤ 6 := by
  cases h with
  | short | control | plain => simp

theorem Escaped.newline_not_mem {c : Char} {text : List Char} (h : Escaped c text) :
    '\n' ∉ text := by
  cases h with
  | short h =>
    intro hmem
    rcases List.mem_cons.mp hmem with hmem | hmem
    · cases hmem
    · rw [← List.mem_singleton.mp hmem] at h
      revert h
      simp
  | control h =>
    have digit : ∀ n < 16, '\n' ≠ Nat.digitChar n := by decide
    simp only [List.mem_cons, List.not_mem_nil, or_false, not_or]
    exact ⟨by decide, by decide, by decide, by decide, digit _ (by omega), digit _ (by omega)⟩
  | plain _ _ h =>
    rw [List.mem_singleton]
    rintro rfl
    exact h (by decide)

theorem newline_not_mem_quote (s : String) : '\n' ∉ quote s := by
  simp only [quote, List.mem_cons, List.mem_append, List.mem_flatMap, List.not_mem_nil, or_false,
    not_or]
  refine ⟨by decide, ?_, by decide⟩
  rintro ⟨c, -, hc⟩
  exact (escaped_escapeChar c).newline_not_mem hc

theorem toString_ofNat (n : Nat) : (toString (Int.ofNat n)).toList = Nat.toDigits 10 n := by
  show (toString n).toList = _
  rw [Nat.toString_eq_ofList_toDigits, String.toList_ofList]

theorem toString_negSucc (n : Nat) :
    (toString (Int.negSucc n)).toList = '-' :: Nat.toDigits 10 (n + 1) := by
  show ("-" ++ toString (n + 1)).toList = _
  simp [String.toList_append]

/-- The digits of a number below a power of ten. -/
theorem length_toString_le {n k : Nat} (hk : 0 < k) (h : n < 10 ^ k) :
    (toString (n : Int)).toList.length ≤ k :=
  (congrArg List.length (toString_ofNat n)).trans_le (Nat.toDigits_length 10 n k hk h)

theorem newline_not_mem_int (n : Int) : '\n' ∉ (toString n).toList := by
  have digits : ∀ m : Nat, '\n' ∉ Nat.toDigits 10 m := by
    intro m hm
    have hdigit := Nat.isDigit_of_mem_toDigits (by decide) (by decide) hm
    revert hdigit
    decide
  cases n with
  | ofNat m =>
    rw [toString_ofNat]
    exact digits m
  | negSucc m =>
    rw [toString_negSucc, List.mem_cons, not_or]
    exact ⟨by decide, digits _⟩

/-- By induction on the parts, two at a time. -/
theorem newline_not_mem_intercalate : ∀ {parts : List (List Char)},
    (∀ part ∈ parts, '\n' ∉ part) → '\n' ∉ List.intercalate [','] parts
  | [], _ => by simp
  | [part], h => by simpa using h part (by simp)
  | part :: next :: parts, h => by
      have hrest := newline_not_mem_intercalate fun p (hp : p ∈ next :: parts) =>
        h p (List.mem_cons_of_mem _ hp)
      rw [List.intercalate_cons_cons]
      simp only [List.mem_append, List.mem_singleton, not_or]
      exact ⟨⟨h part (by simp), by decide⟩, hrest⟩

mutual

theorem newline_not_mem_dumps : ∀ value : Json, '\n' ∉ dumps value
  | .null => by rw [dumps]; decide
  | .bool true => by rw [dumps]; decide
  | .bool false => by rw [dumps]; decide
  | .int n => by rw [dumps]; exact newline_not_mem_int n
  | .str s => by rw [dumps]; exact newline_not_mem_quote s
  | .arr items => by
      have hitems := newline_not_mem_intercalate (newline_not_mem_dumpsItems items)
      rw [dumps]
      simp only [List.mem_cons, List.mem_append, List.not_mem_nil, or_false, not_or]
      exact ⟨by decide, hitems, by decide⟩
  | .obj fields => by
      have hfields : '\n' ∉ List.intercalate [',']
          ((sortFields (dumpsFields fields)).map field) := by
        refine newline_not_mem_intercalate fun part hpart => ?_
        obtain ⟨f, hf, rfl⟩ := List.mem_map.mp hpart
        have hvalue := newline_not_mem_dumpsFields fields f ((List.mem_insertionSort _).mp hf)
        simp only [field, List.mem_append, List.mem_cons, not_or]
        exact ⟨newline_not_mem_quote f.1, by decide, hvalue⟩
      rw [dumps]
      simp only [List.mem_cons, List.mem_append, List.not_mem_nil, or_false, not_or]
      exact ⟨by decide, hfields, by decide⟩

theorem newline_not_mem_dumpsItems : ∀ (items : List Json), ∀ part ∈ dumpsItems items, '\n' ∉ part
  | [] => by simp [dumpsItems]
  | item :: items => by
      rw [dumpsItems, List.forall_mem_cons]
      exact ⟨newline_not_mem_dumps item, newline_not_mem_dumpsItems items⟩

theorem newline_not_mem_dumpsFields : ∀ (fields : List (String × Json)),
    ∀ f ∈ dumpsFields fields, '\n' ∉ f.2
  | [] => by simp [dumpsFields]
  | (key, value) :: fields => by
      rw [dumpsFields, List.forall_mem_cons]
      exact ⟨newline_not_mem_dumps value, newline_not_mem_dumpsFields fields⟩

end

mutual

/-- A bound on the length of the text, six characters for each one of a string. -/
def width : Json → Nat
  | .null => 4
  | .bool _ => 5
  | .int n => (toString n).toList.length
  | .str s => 6 * s.toList.length + 2
  | .arr items => widthItems items + 2
  | .obj fields => widthFields fields + 2

def widthItems : List Json → Nat
  | [] => 0
  | item :: items => width item + 1 + widthItems items

def widthFields : List (String × Json) → Nat
  | [] => 0
  | (key, value) :: fields => 6 * key.toList.length + width value + 4 + widthFields fields

end

/-- The bytes of a literal are counted faster than its characters. -/
theorem length_toList_le_utf8ByteSize (s : String) : s.toList.length ≤ s.utf8ByteSize := by
  induction s using String.push_induction with
  | empty => simp
  | push s c ih =>
    have hsize : 0 < c.utf8Size := c.utf8Size_pos
    rw [String.toList_push, List.length_append, List.length_singleton, String.utf8ByteSize_push]
    omega

theorem utf8ByteSize_le_length_toList (s : String) : s.utf8ByteSize ≤ 4 * s.toList.length := by
  induction s using String.push_induction with
  | empty => simp
  | push s c ih =>
    have hsize := c.utf8Size_le_four
    rw [String.toList_push, List.length_append, List.length_singleton, String.utf8ByteSize_push]
    omega

theorem length_quote_le (s : String) : (quote s).length ≤ 6 * s.toList.length + 2 := by
  have hchars : ∀ cs : List Char, (cs.flatMap escapeChar).length ≤ 6 * cs.length := by
    intro cs
    induction cs with
    | nil => simp
    | cons c cs ih =>
      have := (escaped_escapeChar c).length
      rw [List.flatMap_cons, List.length_append, List.length_cons]
      omega
  have := hchars s.toList
  rw [quote, List.length_cons, List.length_append, List.length_singleton]
  omega

theorem length_intercalate_le : ∀ parts : List (List Char),
    (List.intercalate [','] parts).length ≤ (parts.map fun part => part.length + 1).sum
  | [] => by simp
  | [part] => by simp
  | part :: next :: parts => by
      have hrest := length_intercalate_le (next :: parts)
      rw [List.intercalate_cons_cons, List.length_append, List.length_append,
        List.length_singleton, List.map_cons, List.sum_cons]
      omega

mutual

/-- By induction on the value; sorting the fields of an object keeps the sum of their lengths. -/
theorem length_dumps_le : ∀ value : Json, (dumps value).length ≤ value.width
  | .null => by rw [dumps, width]; decide
  | .bool true => by rw [dumps, width]; decide
  | .bool false => by rw [dumps, width]; decide
  | .int n => by rw [dumps, width]
  | .str s => by rw [dumps, width]; exact length_quote_le s
  | .arr items => by
      have hparts := length_intercalate_le (dumpsItems items)
      have hitems := sum_dumpsItems_le items
      rw [dumps, width, List.length_cons, List.length_append, List.length_singleton]
      omega
  | .obj fields => by
      have hparts := length_intercalate_le ((sortFields (dumpsFields fields)).map field)
      have hfields := sum_dumpsFields_le fields
      have hsort :
          (((sortFields (dumpsFields fields)).map field).map fun part => part.length + 1).sum =
          ((dumpsFields fields).map fun f => (field f).length + 1).sum := by
        rw [List.map_map]
        exact ((List.perm_insertionSort _ _).map _).sum_nat
      rw [dumps, width, List.length_cons, List.length_append, List.length_singleton]
      omega

theorem sum_dumpsItems_le : ∀ items : List Json,
    ((dumpsItems items).map fun part => part.length + 1).sum ≤ widthItems items
  | [] => by simp [dumpsItems]
  | item :: items => by
      have hitem := length_dumps_le item
      have hitems := sum_dumpsItems_le items
      rw [dumpsItems, widthItems, List.map_cons, List.sum_cons]
      omega

theorem sum_dumpsFields_le : ∀ fields : List (String × Json),
    ((dumpsFields fields).map fun f => (field f).length + 1).sum ≤ widthFields fields
  | [] => by simp [dumpsFields]
  | (key, value) :: fields => by
      have hkey := length_quote_le key
      have hvalue := length_dumps_le value
      have hfields := sum_dumpsFields_le fields
      rw [dumpsFields, widthFields, List.map_cons, List.sum_cons, field, List.length_append,
        List.length_cons]
      dsimp only
      omega

end

theorem length_le_length_quote (s : String) : s.toList.length ≤ (quote s).length := by
  have hchars : s.toList.length ≤ (s.toList.flatMap escapeChar).length := by
    induction s.toList with
    | nil => exact Nat.le_refl 0
    | cons c cs ih =>
      have hc : 0 < (escapeChar c).length := List.length_pos_of_ne_nil (by unfold escapeChar; grind)
      rw [List.flatMap_cons, List.length_append, List.length_cons]
      omega
  rw [quote, List.length_cons, List.length_append]
  omega

theorem length_le_length_intercalate {part : List Char} : ∀ {parts : List (List Char)},
    part ∈ parts → part.length ≤ (List.intercalate [','] parts).length
  | [], h => by cases h
  | [only], h => by simp [List.mem_singleton.mp h]
  | first :: next :: parts, h => by
      rw [List.intercalate_cons_cons, List.length_append, List.length_append]
      rcases List.mem_cons.mp h with rfl | hrest
      · omega
      · have := length_le_length_intercalate hrest
        omega

theorem mem_dumpsFields {key : String} {value : Json} : ∀ {fields : List (String × Json)},
    (key, value) ∈ fields → (key, dumps value) ∈ dumpsFields fields
  | [], h => by cases h
  | (key', value') :: fields, h => by
      rw [dumpsFields]
      rcases List.mem_cons.mp h with heq | hrest
      · cases heq
        exact List.mem_cons_self
      · exact List.mem_cons_of_mem _ (mem_dumpsFields hrest)

/-- An object is longer than each of its keys and each of its values. -/
theorem length_lt_length_dumps {key : String} {value : Json} {fields : List (String × Json)}
    (h : (key, value) ∈ fields) :
    key.toList.length + (dumps value).length < (dumps (.obj fields)).length := by
  have hsorted : field (key, dumps value) ∈ (sortFields (dumpsFields fields)).map field :=
    List.mem_map_of_mem ((List.perm_insertionSort _ _).mem_iff.mpr (mem_dumpsFields h))
  have hpart := length_le_length_intercalate hsorted
  have hkey := length_le_length_quote key
  rw [field, List.length_append, List.length_cons] at hpart
  dsimp only at hpart
  rw [dumps, List.length_cons, List.length_append, List.length_singleton]
  omega

end Json

/-- `text.encode("utf-8")`. -/
def encodeUtf8 (text : List Char) : Bytes := text.flatMap String.utf8EncodeChar

/-- Every byte of a character outside ASCII is at least `0x80`. -/
theorem newline_of_mem_utf8 {c : Char} (h : (0x0a : UInt8) ∈ String.utf8EncodeChar c) :
    c = '\n' := by
  have high : ∀ n, 0x80 ≤ n → n < 256 → (0x0a : UInt8) ≠ UInt8.ofNat n := by
    intro n hlow hhigh heq
    rw [← UInt8.toNat_inj, UInt8.toNat_ofNat'] at heq
    change 10 = _ at heq
    omega
  unfold String.utf8EncodeChar at h
  dsimp only at h
  split at h
  · rename_i hle
    rw [List.mem_singleton, ← UInt8.toNat_inj, UInt8.toNat_ofNat'] at h
    have hval : c.val.toNat = 10 := by
      change 10 = _ at h
      omega
    exact Char.ext (UInt32.toNat_inj.mp hval)
  split at h
  · simp only [List.mem_cons, List.not_mem_nil, or_false] at h
    rcases h with h | h <;> exact absurd h (high _ (by omega) (by omega))
  split at h
  · simp only [List.mem_cons, List.not_mem_nil, or_false] at h
    rcases h with h | h | h <;> exact absurd h (high _ (by omega) (by omega))
  · simp only [List.mem_cons, List.not_mem_nil, or_false] at h
    rcases h with h | h | h | h <;> exact absurd h (high _ (by omega) (by omega))

/-- A text on one line is encoded on one line. -/
theorem newline_not_mem_encodeUtf8 {text : List Char} (h : '\n' ∉ text) :
    (0x0a : UInt8) ∉ encodeUtf8 text := by
  intro hbyte
  obtain ⟨c, hc, hmem⟩ := List.mem_flatMap.mp hbyte
  rw [newline_of_mem_utf8 hmem] at hc
  exact h hc

theorem length_encodeUtf8_le (text : List Char) : (encodeUtf8 text).length ≤ 4 * text.length := by
  induction text with
  | nil => simp [encodeUtf8]
  | cons c text ih =>
    have hc := String.length_utf8EncodeChar c
    have h4 := c.utf8Size_le_four
    rw [encodeUtf8] at ih
    rw [encodeUtf8, List.flatMap_cons, List.length_append, List.length_cons]
    omega

theorem length_le_length_encodeUtf8 (text : List Char) : text.length ≤ (encodeUtf8 text).length := by
  induction text with
  | nil => exact Nat.le_refl 0
  | cons c text ih =>
    have hc := String.length_utf8EncodeChar c
    have hpos := c.utf8Size_pos
    rw [encodeUtf8] at ih
    rw [encodeUtf8, List.flatMap_cons, List.length_append, List.length_cons]
    omega

example : Json.dumps (.obj [("b", .arr [.int (-1), .null]), ("a", .str "x\n")]) =
    ['\x7b', '\x22', 'a', '\x22', ':', '\x22', 'x', '\x5c', 'n', '\x22', ',', '\x22', 'b', '\x22',
     ':', '[', '-', '1', ',', 'n', 'u', 'l', 'l', ']', '\x7d'] := by decide

end EvidenceCartographer.Python
