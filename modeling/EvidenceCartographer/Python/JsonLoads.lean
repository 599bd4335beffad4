import EvidenceCartographer.Python.JsonTree
import Mathlib.Data.Nat.Digits.Lemmas

/-! `json.loads`, and that it reads back what `json.dumps` wrote.

    The decoder is total: each of its functions has fuel, and a text has enough of it for itself. A
    text that no `Json` stands for is refused like one that is not JSON: a number with a fraction or
    an exponent, and an escape of half a surrogate pair. -/

namespace EvidenceCartographer.Python.Json

/-- `WHITESPACE`. -/
def isSpace (c : Char) : Bool := c ∈ [' ', '\t', '\n', '\r']

def skipSpace (text : List Char) : List Char := text.dropWhile isSpace

/-! ### Strings -/

/-- `BACKSLASH`. -/
def unescape (c : Char) : Option Char :=
  if c = '\x22' ∨ c = '\x5c' ∨ c = '/' then some c
  else if c = 'b' then some '\x08'
  else if c = 'f' then some '\x0c'
  else if c = 'n' then some '\n'
  else if c = 'r' then some '\r'
  else if c = 't' then some '\t'
  else none

def hexDigit (c : Char) : Option Nat :=
  if c.isDigit then some (c.toNat - '0'.toNat)
  else if 'a' ≤ c ∧ c ≤ 'f' then some (c.toNat - 'a'.toNat + 10)
  else if 'A' ≤ c ∧ c ≤ 'F' then some (c.toNat - 'A'.toNat + 10)
  else none

/-- The four digits after `\u`. -/
def scanHex : List Char → Option (Nat × List Char)
  | a :: b :: c :: d :: rest => do
    let a ← hexDigit a
    let b ← hexDigit b
    let c ← hexDigit c
    let d ← hexDigit d
    return (4096 * a + 256 * b + 16 * c + d, rest)
  | _ => none

/-- What stands after `\u`; a high surrogate takes the escape after it as well. -/
def scanUnicode (text : List Char) : Option (Char × List Char) := do
  let (high, rest) ← scanHex text
  if 0xd800 ≤ high ∧ high ≤ 0xdbff then
    match rest with
    | '\x5c' :: 'u' :: rest =>
      let (low, rest) ← scanHex rest
      if 0xdc00 ≤ low ∧ low ≤ 0xdfff then
        return (.ofNat (0x10000 + (high - 0xd800) * 0x400 + (low - 0xdc00)), rest)
      else none
    | _ => none
  else if 0xdc00 ≤ high ∧ high ≤ 0xdfff then none
  else return (.ofNat high, rest)

/-- One character of a string, out of its escape. -/
def scanChar : List Char → Option (Char × List Char)
  | [] => none
  | c :: rest =>
    if c = '\x5c' then
      match rest with
      | [] => none
      | e :: rest => if e = 'u' then scanUnicode rest else (unescape e).map (·, rest)
    else if c.toNat < 0x20 then none
    else some (c, rest)

/-- `scanstring`: the rest of a string after its opening quote. -/
def scanString : Nat → List Char → Option (List Char × List Char)
  | 0, _ => none
  | n + 1, text =>
    if text.head? = some '\x22' then some ([], text.tail)
    else do
      let (c, rest) ← scanChar text
      let (chars, rest) ← scanString n rest
      return (c :: chars, rest)

/-! ### Numbers -/

/-- `0|[1-9][0-9]*`. -/
def scanNatural (text : List Char) : Option (Nat × List Char) :=
  match text.takeWhile Char.isDigit with
  | [] => none
  | '0' :: _ => some (0, text.tail)
  | digits => some (Nat.ofDigitChars 10 digits 0, text.dropWhile Char.isDigit)

/-- The integer part of a number. A fraction or an exponent after it stays in the text, where nothing
    accepts it. -/
def scanInt (text : List Char) : Option (Int × List Char) :=
  if text.head? = some '-' then (scanNatural text.tail).map fun (n, rest) => (-n, rest)
  else (scanNatural text).map fun (n, rest) => (n, rest)

/-! ### Values -/

/-- The assignment `result[key] = value`. -/
def assign (fields : List (String × Json)) (f : String × Json) : List (String × Json) :=
  if f.1 ∈ fields.map Prod.fst then fields.map fun g => if g.1 = f.1 then f else g
  else fields ++ [f]

/-- `dict(pairs)`. -/
def dict (pairs : List (String × Json)) : List (String × Json) := pairs.foldl assign []

/-- A literal and its value, if it stands here. -/
def scanLiteral (literal : String) (value : Json) (text : List Char) : Option (Json × List Char) :=
  if literal.toList <+: text then some (value, text.drop literal.toList.length) else none

mutual

/-- `scan_once`. -/
def scanOnce : Nat → List Char → Option (Json × List Char)
  | 0, _ => none
  | n + 1, text =>
    match text.head? with
    | none => none
    | some c =>
      if c = '\x22' then
        (scanString n text.tail).map fun (chars, rest) => (.str (.ofList chars), rest)
      else if c = '[' then
        let rest := skipSpace text.tail
        if rest.head? = some ']' then some (.arr [], rest.tail)
        else (scanItems n rest).map fun (items, rest) => (.arr items, rest)
      else if c = '\x7b' then
        let rest := skipSpace text.tail
        if rest.head? = some '\x7d' then some (.obj [], rest.tail)
        else (scanFields n rest).map fun (pairs, rest) => (.obj (dict pairs), rest)
      else if c = 'n' then scanLiteral "null" .null text
      else if c = 't' then scanLiteral "true" (.bool true) text
      else if c = 'f' then scanLiteral "false" (.bool false) text
      else (scanInt text).map fun (n, rest) => (.int n, rest)

/-- The loop of `JSONArray`, at an item. -/
def scanItems : Nat → List Char → Option (List Json × List Char)
  | 0, _ => none
  | n + 1, text => do
    let (item, rest) ← scanOnce n text
    let rest := skipSpace rest
    if rest.head? = some ']' then return ([item], rest.tail)
    else if rest.head? = some ',' then
      let (items, rest) ← scanItems n (skipSpace rest.tail)
      return (item :: items, rest)
    else none

/-- The loop of `JSONObject`, at a key. -/
def scanFields : Nat → List Char → Option (List (String × Json) × List Char)
  | 0, _ => none
  | n + 1, text =>
    if text.head? = some '\x22' then do
      let (key, rest) ← scanString n text.tail
      let rest := skipSpace rest
      if rest.head? = some ':' then
        let (value, rest) ← scanOnce n (skipSpace rest.tail)
        let rest := skipSpace rest
        if rest.head? = some '\x7d' then return ([(.ofList key, value)], rest.tail)
        else if rest.head? = some ',' then
          let (pairs, rest) ← scanFields n (skipSpace rest.tail)
          return ((.ofList key, value) :: pairs, rest)
        else none
      else none
    else none

end

/-- `json.loads`. -/
def loads (text : List Char) : Option Json := do
  let (value, rest) ← scanOnce (text.length + 1) (skipSpace text)
  if skipSpace rest = [] then return value else none

/-! ### Reading back a string -/

theorem hexDigit_digitChar : ∀ d < 16, hexDigit (Nat.digitChar d) = some d := by decide

/-- An escape without surrogates. -/
theorem scanUnicode_eq {text rest : List Char} {n : Nat} (h : scanHex text = some (n, rest))
    (hn : n < 0xd800) : scanUnicode text = some (.ofNat n, rest) := by
  have hhigh : ¬ (0xd800 ≤ n ∧ n ≤ 0xdbff) := by omega
  have hlow : ¬ (0xdc00 ≤ n ∧ n ≤ 0xdfff) := by omega
  simp only [scanUnicode, h, bind, Option.bind, if_neg hhigh, if_neg hlow, pure]

theorem scanHex_control {n : Nat} (hn : n < 0x20) (rest : List Char) :
    scanHex ('0' :: '0' :: Nat.digitChar (n / 16) :: Nat.digitChar (n % 16) :: rest) =
      some (n, rest) := by
  have hzero : hexDigit '0' = some 0 := rfl
  have hhigh := hexDigit_digitChar (n / 16) (by omega)
  have hlow := hexDigit_digitChar (n % 16) (by omega)
  have hvalue : 4096 * 0 + 256 * 0 + 16 * (n / 16) + n % 16 = n := by omega
  simp only [scanHex, hzero, hhigh, hlow, bind, Option.bind, pure, hvalue]

theorem Escaped.scanChar {c : Char} {text : List Char} (h : Escaped c text) (rest : List Char) :
    scanChar (text ++ rest) = some (c, rest) := by
  cases h with
  | short h =>
    simp only [List.mem_cons, Prod.mk.injEq, List.not_mem_nil, or_false] at h
    rcases h with h | h | h | h | h | h | h
    all_goals
      obtain ⟨rfl, rfl⟩ := h
      rfl
  | control hcontrol =>
    have hscan := scanUnicode_eq (scanHex_control hcontrol rest) (by omega)
    rw [Char.ofNat_toNat] at hscan
    exact hscan
  | plain _ hbackslash hcontrol =>
    simp only [List.singleton_append, Json.scanChar, if_neg hbackslash, if_neg hcontrol]

theorem Escaped.head {c : Char} {text : List Char} (h : Escaped c text) (rest : List Char) :
    (text ++ rest).head? ≠ some '\x22' := by
  cases h with
  | short | control => simp
  | plain hquote => simpa using hquote

/-- By induction on the characters, one escape at a time. -/
theorem scanString_escape (chars rest : List Char) {n : Nat} (hn : chars.length < n) :
    scanString n (chars.flatMap escapeChar ++ '\x22' :: rest) = some (chars, rest) := by
  induction chars generalizing n with
  | nil =>
    obtain ⟨n, rfl⟩ := Nat.exists_eq_add_of_lt hn
    simp [scanString]
  | cons c chars ih =>
    cases n with
    | zero => omega
    | succ n =>
      rw [List.length_cons] at hn
      rw [List.flatMap_cons, List.append_assoc, scanString, if_neg ((escaped_escapeChar c).head _),
        (escaped_escapeChar c).scanChar]
      simp only [bind, Option.bind, ih (Nat.lt_of_succ_lt_succ hn), pure]

theorem length_le_escape (chars : List Char) : chars.length ≤ (chars.flatMap escapeChar).length := by
  induction chars with
  | nil => simp
  | cons c chars ih =>
    have := (escaped_escapeChar c).length
    rw [List.flatMap_cons, List.length_append, List.length_cons]
    omega

/-- The rest of a quoted string, when there is fuel for its text. -/
theorem scanString_quote (s : String) (rest : List Char) {n : Nat} (hn : (quote s).length ≤ n + 1) :
    scanString n ((quote s).tail ++ rest) = some (s.toList, rest) := by
  have hlength := length_le_escape s.toList
  rw [quote, List.length_cons, List.length_append, List.length_singleton] at hn
  rw [quote, List.tail_cons, List.append_assoc, List.singleton_append]
  exact scanString_escape s.toList rest (by omega)

/-! ### Reading back a number -/

/-- No digit comes next. -/
def Ends (rest : List Char) : Prop := ∀ c, rest.head? = some c → c.isDigit = false

theorem Ends.nil : Ends [] := nofun

theorem Ends.cons {c : Char} (h : c.isDigit = false) (rest : List Char) : Ends (c :: rest) := by
  intro d hd
  cases hd
  exact h

theorem takeWhile_digits {digits rest : List Char} (hdigits : ∀ c ∈ digits, c.isDigit = true)
    (hrest : Ends rest) : (digits ++ rest).takeWhile Char.isDigit = digits ∧
      (digits ++ rest).dropWhile Char.isDigit = rest := by
  have hnone : rest.takeWhile Char.isDigit = [] ∧ rest.dropWhile Char.isDigit = rest := by
    cases rest with
    | nil => exact ⟨rfl, rfl⟩
    | cons c rest => simp [hrest c rfl]
  rw [List.takeWhile_append_of_pos hdigits, List.dropWhile_append_of_pos hdigits, hnone.1, hnone.2,
    List.append_nil]
  exact ⟨rfl, rfl⟩

/-- A decimal has no leading zero, except that of zero itself. -/
theorem toDigits_head (n : Nat) :
    Nat.toDigits 10 n = ['0'] ∧ n = 0 ∨
      ∃ c digits, Nat.toDigits 10 n = c :: digits ∧ c ≠ '0' := by
  induction n using Nat.strong_induction_on with
  | _ n ih =>
    rcases Nat.lt_or_ge n 10 with hlt | hge
    · have hsmall : ∀ n < 10, Nat.toDigits 10 n = ['0'] ∧ n = 0 ∨
          ∃ c digits, Nat.toDigits 10 n = c :: digits ∧ c ≠ '0' := by
        intro n hn
        rw [Nat.toDigits_of_lt_base hn]
        rcases Nat.eq_zero_or_pos n with rfl | hpos
        · exact .inl ⟨rfl, rfl⟩
        · have hne : ∀ d < 10, 0 < d → Nat.digitChar d ≠ '0' := by decide
          exact .inr ⟨_, _, rfl, hne n hn hpos⟩
      exact hsmall n hlt
    · have hstep : Nat.toDigits 10 n = Nat.toDigits 10 (n / 10) ++ [Nat.digitChar (n % 10)] :=
        Nat.toDigits_of_base_le (by decide) hge
      rcases ih (n / 10) (by omega) with ⟨-, hzero⟩ | ⟨c, digits, hhead, hne⟩
      · omega
      · exact .inr ⟨c, _, by rw [hstep, hhead, List.cons_append], hne⟩

theorem scanNatural_toDigits (n : Nat) {rest : List Char} (hrest : Ends rest) :
    scanNatural (Nat.toDigits 10 n ++ rest) = some (n, rest) := by
  have hdigits : ∀ c ∈ Nat.toDigits 10 n, c.isDigit = true := fun c hc =>
    Nat.isDigit_of_mem_toDigits (by decide) (by decide) hc
  obtain ⟨htake, hdrop⟩ := takeWhile_digits hdigits hrest
  rw [scanNatural, htake, hdrop]
  rcases toDigits_head n with ⟨hzero, rfl⟩ | ⟨c, digits, hhead, hne⟩
  · rw [hzero]; rfl
  · have hvalue : Nat.ofDigitChars 10 (c :: digits) 0 = n := by
      rw [← hhead, Nat.ofDigitChars_ten_toDigits]
    rw [hhead]
    split
    · rename_i heq
      cases heq
    · rename_i heq
      exact absurd (List.cons.inj heq).1 hne
    · rw [hvalue]

theorem toDigits_cons (n : Nat) :
    ∃ c digits, Nat.toDigits 10 n = c :: digits ∧ c.isDigit = true := by
  obtain ⟨c, digits, hcons⟩ := List.exists_cons_of_ne_nil (Nat.toDigits_ne_nil (n := n) (b := 10))
  have hc : c ∈ Nat.toDigits 10 n := by
    rw [hcons]
    exact List.mem_cons_self
  exact ⟨c, digits, hcons, Nat.isDigit_of_mem_toDigits (by decide) (by decide) hc⟩

theorem scanInt_toString (n : Int) {rest : List Char} (hrest : Ends rest) :
    scanInt ((toString n).toList ++ rest) = some (n, rest) := by
  cases n with
  | ofNat n =>
    have hhead : (Nat.toDigits 10 n ++ rest).head? ≠ some '-' := by
      obtain ⟨c, digits, hcons, hc⟩ := toDigits_cons n
      rw [hcons, List.cons_append, List.head?_cons]
      rintro ⟨⟩
      cases hc
    rw [toString_ofNat, scanInt, if_neg hhead, scanNatural_toDigits n hrest]
    rfl
  | negSucc n =>
    rw [toString_negSucc, List.cons_append, scanInt, List.head?_cons, if_pos rfl, List.tail_cons,
      scanNatural_toDigits (n + 1) hrest]
    rfl

/-! ### Reading back a tree -/

/-- The characters that begin a value. -/
def isStart (c : Char) : Bool := c.isDigit || c ∈ ['-', '\x22', '[', '\x7b', 'n', 't', 'f']

theorem dumps_head (value : Json) : ∃ c text, dumps value = c :: text ∧ isStart c = true := by
  cases value with
  | null => exact ⟨'n', _, by rw [dumps]; rfl, rfl⟩
  | bool b => cases b
              · exact ⟨'f', _, by rw [dumps]; rfl, rfl⟩
              · exact ⟨'t', _, by rw [dumps]; rfl, rfl⟩
  | int n =>
    cases n with
    | ofNat n =>
      obtain ⟨c, digits, hcons, hc⟩ := toDigits_cons n
      exact ⟨c, digits, by rw [dumps, toString_ofNat, hcons], by simp [isStart, hc]⟩
    | negSucc n => exact ⟨'-', _, by rw [dumps, toString_negSucc], rfl⟩
  | str s => exact ⟨'\x22', _, by rw [dumps, quote], rfl⟩
  | arr items => exact ⟨'[', _, by rw [dumps], rfl⟩
  | obj fields => exact ⟨'\x7b', _, by rw [dumps], rfl⟩

theorem skipSpace_cons {c : Char} (h : isSpace c = false) (text : List Char) :
    skipSpace (c :: text) = c :: text := by
  rw [skipSpace, List.dropWhile_cons, h]
  rfl

theorem not_isSpace_of_start {c : Char} (h : isStart c = true) : isSpace c = false := by
  cases hspace : isSpace c with
  | false => rfl
  | true =>
    simp only [isSpace, decide_eq_true_eq, List.mem_cons, List.not_mem_nil, or_false] at hspace
    rcases hspace with rfl | rfl | rfl | rfl <;> cases h

theorem skipSpace_dumps (value : Json) (rest : List Char) :
    skipSpace (dumps value ++ rest) = dumps value ++ rest := by
  obtain ⟨c, text, hdumps, hstart⟩ := dumps_head value
  rw [hdumps, List.cons_append, skipSpace_cons (not_isSpace_of_start hstart)]

theorem intercalate_head (sep part : List Char) (parts : List (List Char)) :
    ∃ text, List.intercalate sep (part :: parts) = part ++ text := by
  cases parts with
  | nil => exact ⟨[], by rw [List.intercalate_singleton, List.append_nil]⟩
  | cons next parts => exact ⟨_, by rw [List.intercalate_cons_cons, List.append_assoc]⟩

/-- The decoder reads the text of the value, whatever follows that is not a digit. -/
def ReadBack (value : Json) : Prop := ∀ n rest, Ends rest → (dumps value).length ≤ n →
  scanOnce n (dumps value ++ rest) = some (value.canonical, rest)

theorem scanItems_last {n : Nat} {text rest : List Char} {item : Json}
    (hitem : scanOnce n text = some (item, ']' :: rest)) :
    scanItems (n + 1) text = some ([item], rest) := by
  simp only [scanItems, hitem, bind, Option.bind, skipSpace_cons (c := ']') rfl, List.head?_cons,
    if_true, List.tail_cons, pure]

theorem scanItems_more {n : Nat} {text rest rest' : List Char} {item : Json} {items : List Json}
    (hitem : scanOnce n text = some (item, ',' :: rest))
    (hitems : scanItems n (skipSpace rest) = some (items, rest')) :
    scanItems (n + 1) text = some (item :: items, rest') := by
  have hcomma : ¬ (some ',' = some ']') := by decide
  simp only [scanItems, hitem, bind, Option.bind, skipSpace_cons (c := ',') rfl, List.head?_cons,
    if_neg hcomma, if_true, List.tail_cons, hitems, pure]

/-- By induction on the items, the last one before the bracket. -/
theorem scanItems_dumps {items : List Json} (hne : items ≠ [])
    (hitems : ∀ item ∈ items, item.ReadBack) {n : Nat} (rest : List Char)
    (hn : (List.intercalate [','] (items.map dumps)).length < n) :
    scanItems n (List.intercalate [','] (items.map dumps) ++ ']' :: rest) =
      some (items.map canonical, rest) := by
  induction items generalizing n with
  | nil => exact absurd rfl hne
  | cons item items ih =>
    obtain ⟨hitem, hitems⟩ := List.forall_mem_cons.mp hitems
    cases n with
    | zero => omega
    | succ n =>
      cases items with
      | nil =>
        rw [List.map_singleton, List.intercalate_singleton] at hn ⊢
        exact scanItems_last (hitem n _ (.cons rfl rest) (by omega))
      | cons next items =>
        have hskip : skipSpace (List.intercalate [','] ((next :: items).map dumps) ++ ']' :: rest) =
            List.intercalate [','] ((next :: items).map dumps) ++ ']' :: rest := by
          obtain ⟨text, htext⟩ := intercalate_head [','] (dumps next) (items.map dumps)
          rw [List.map_cons, htext, List.append_assoc, skipSpace_dumps]
        have hjoin : List.intercalate [','] ((item :: next :: items).map dumps) =
            dumps item ++ ',' :: List.intercalate [','] ((next :: items).map dumps) := by
          rw [List.map_cons, List.map_cons, List.intercalate_cons_cons, ← List.map_cons,
            List.append_assoc, List.singleton_append]
        rw [hjoin, List.length_append, List.length_cons] at hn
        rw [hjoin, List.append_assoc, List.cons_append]
        refine scanItems_more (hitem n _ (.cons rfl _) (by omega)) ?_
        rw [hskip]
        exact ih (List.cons_ne_nil _ _) hitems (by omega)

/-- A key, a colon and a value. -/
structure ScansField (n : Nat) (text : List Char) (f : String × Json) (rest : List Char) : Prop where
  quote : text.head? = some '\x22'
  parts : ∃ chars afterKey, scanString n text.tail = some (chars, ':' :: afterKey) ∧
    f.1 = .ofList chars ∧ scanOnce n (skipSpace afterKey) = some (f.2, rest)

theorem scanFields_last {n : Nat} {text rest : List Char} {f : String × Json}
    (hfield : ScansField n text f ('\x7d' :: rest)) :
    scanFields (n + 1) text = some ([f], rest) := by
  obtain ⟨hquote, chars, afterKey, hkey, hname, hvalue⟩ := hfield
  simp only [scanFields, if_pos hquote, hkey, hvalue, bind, Option.bind,
    skipSpace_cons (c := ':') rfl, skipSpace_cons (c := '\x7d') rfl, List.head?_cons, if_true,
    List.tail_cons, pure, ← hname]

theorem scanFields_more {n : Nat} {text rest rest' : List Char} {f : String × Json}
    {fields : List (String × Json)} (hfield : ScansField n text f (',' :: rest))
    (hfields : scanFields n (skipSpace rest) = some (fields, rest')) :
    scanFields (n + 1) text = some (f :: fields, rest') := by
  have hcomma : ¬ (some ',' = some '\x7d') := by decide
  obtain ⟨hquote, chars, afterKey, hkey, hname, hvalue⟩ := hfield
  simp only [scanFields, if_pos hquote, hkey, hvalue, bind, Option.bind,
    skipSpace_cons (c := ':') rfl, skipSpace_cons (c := ',') rfl, List.head?_cons, if_true,
    if_neg hcomma, List.tail_cons, hfields, pure, ← hname]

/-- The text of a field. -/
def fieldText (f : String × Json) : List Char := field (mapValues dumps f)

theorem fieldText_eq (f : String × Json) :
    fieldText f = '\x22' :: ((quote f.1).tail ++ ':' :: dumps f.2) := by
  rw [fieldText, field, mapValues, quote, List.tail_cons, List.cons_append]

theorem scansField_text {f : String × Json} (hvalue : f.2.ReadBack) {n : Nat} {rest : List Char}
    (hrest : Ends rest) (hn : (fieldText f).length ≤ n) :
    ScansField n (fieldText f ++ rest) (mapValues canonical f) rest := by
  have hlength : (fieldText f).length = (quote f.1).length + (dumps f.2).length + 1 := by
    rw [fieldText, field, mapValues, List.length_append, List.length_cons]
    dsimp only
    omega
  have htail : (fieldText f ++ rest).tail = (quote f.1).tail ++ (':' :: (dumps f.2 ++ rest)) := by
    rw [fieldText_eq, List.cons_append, List.tail_cons, List.append_assoc, List.cons_append]
  refine ⟨by rw [fieldText_eq]; rfl, f.1.toList, dumps f.2 ++ rest, ?_, ?_, ?_⟩
  · rw [htail]
    exact scanString_quote f.1 _ (by omega)
  · rw [mapValues, String.ofList_toList]
  · rw [skipSpace_dumps]
    exact hvalue n rest hrest (by omega)

/-- By induction on the fields, the last one before the brace. -/
theorem scanFields_dumps {fields : List (String × Json)} (hne : fields ≠ [])
    (hfields : ∀ f ∈ fields, f.2.ReadBack) {n : Nat} (rest : List Char)
    (hn : (List.intercalate [','] (fields.map fieldText)).length < n) :
    scanFields n (List.intercalate [','] (fields.map fieldText) ++ '\x7d' :: rest) =
      some (fields.map (mapValues canonical), rest) := by
  induction fields generalizing n with
  | nil => exact absurd rfl hne
  | cons f fields ih =>
    obtain ⟨hf, hfields⟩ := List.forall_mem_cons.mp hfields
    cases n with
    | zero => omega
    | succ n =>
      cases fields with
      | nil =>
        rw [List.map_singleton, List.intercalate_singleton] at hn ⊢
        exact scanFields_last (scansField_text hf (.cons rfl rest) (by omega))
      | cons next fields =>
        have hskip :
            skipSpace (List.intercalate [','] ((next :: fields).map fieldText) ++ '\x7d' :: rest) =
              List.intercalate [','] ((next :: fields).map fieldText) ++ '\x7d' :: rest := by
          obtain ⟨text, htext⟩ := intercalate_head [','] (fieldText next) (fields.map fieldText)
          rw [List.map_cons, htext, fieldText_eq]
          exact skipSpace_cons rfl _
        have hjoin : List.intercalate [','] ((f :: next :: fields).map fieldText) =
            fieldText f ++ ',' :: List.intercalate [','] ((next :: fields).map fieldText) := by
          rw [List.map_cons, List.map_cons, List.intercalate_cons_cons, ← List.map_cons,
            List.append_assoc, List.singleton_append]
        rw [hjoin, List.length_append, List.length_cons] at hn
        rw [hjoin, List.append_assoc, List.cons_append]
        refine scanFields_more (scansField_text hf (.cons rfl _) (by omega)) ?_
        rw [hskip]
        exact ih (List.cons_ne_nil _ _) hfields (by omega)

theorem assign_new {fields : List (String × Json)} {f : String × Json}
    (h : f.1 ∉ fields.map Prod.fst) : assign fields f = fields ++ [f] := if_neg h

/-- Pairs with different keys are the fields of their object. -/
theorem dict_eq {pairs : List (String × Json)} (h : (pairs.map Prod.fst).Nodup) :
    dict pairs = pairs := by
  have hfold : ∀ (before after : List (String × Json)),
      ((before ++ after).map Prod.fst).Nodup → after.foldl assign before = before ++ after := by
    intro before after hkeys
    induction after generalizing before with
    | nil => rw [List.foldl_nil, List.append_nil]
    | cons f after ih =>
      have hnew : f.1 ∉ before.map Prod.fst := by
        intro hmem
        rw [List.map_append, List.map_cons] at hkeys
        exact (List.disjoint_of_nodup_append hkeys) hmem List.mem_cons_self
      have hassoc : before ++ [f] ++ after = before ++ f :: after := by
        rw [List.append_assoc, List.singleton_append]
      rw [List.foldl_cons, assign_new hnew, ih (before ++ [f]) (by rw [hassoc]; exact hkeys), hassoc]
  exact hfold [] pairs h

/-! ### Reading back a tree: one case per constructor -/

theorem readBack_null : ReadBack .null := by
  intro n rest _ hn
  rw [dumps] at hn ⊢
  cases n with
  | zero => cases hn
  | succ n => simp [scanOnce, scanLiteral, canonical]

theorem readBack_bool (b : Bool) : ReadBack (.bool b) := by
  intro n rest _ hn
  cases b
  · rw [dumps] at hn ⊢
    cases n with
    | zero => cases hn
    | succ n => simp [scanOnce, scanLiteral, canonical]
  · rw [dumps] at hn ⊢
    cases n with
    | zero => cases hn
    | succ n => simp [scanOnce, scanLiteral, canonical]

theorem scanOnce_number {n : Nat} {text : List Char} {c : Char} (hhead : text.head? = some c)
    (hc : c.isDigit = true ∨ c = '-') :
    scanOnce (n + 1) text = (scanInt text).map fun (n, rest) => (.int n, rest) := by
  have hne : ∀ d, d.isDigit = false → d ≠ '-' → c ≠ d := by
    rintro d hdigit hsign rfl
    rcases hc with hc | hc
    · rw [hdigit] at hc; cases hc
    · exact hsign hc
  have hquote := hne '\x22' rfl (by decide)
  have hbracket := hne '[' rfl (by decide)
  have hbrace := hne '\x7b' rfl (by decide)
  have hnull := hne 'n' rfl (by decide)
  have htrue := hne 't' rfl (by decide)
  have hfalse := hne 'f' rfl (by decide)
  simp only [scanOnce, hhead, if_neg hquote, if_neg hbracket, if_neg hbrace, if_neg hnull,
    if_neg htrue, if_neg hfalse]

theorem readBack_int (i : Int) : ReadBack (.int i) := by
  intro n rest hrest hn
  obtain ⟨c, text, hdumps, hc⟩ : ∃ c text, dumps (.int i) = c :: text ∧
      (c.isDigit = true ∨ c = '-') := by
    cases i with
    | ofNat i =>
      obtain ⟨c, digits, hcons, hc⟩ := toDigits_cons i
      exact ⟨c, digits, by rw [dumps, toString_ofNat, hcons], .inl hc⟩
    | negSucc i => exact ⟨'-', _, by rw [dumps, toString_negSucc], .inr rfl⟩
  cases n with
  | zero => rw [hdumps, List.length_cons] at hn; omega
  | succ n =>
    rw [scanOnce_number (by rw [hdumps]; rfl) hc, dumps, scanInt_toString i hrest, canonical]
    rfl

theorem readBack_str (s : String) : ReadBack (.str s) := by
  intro n rest _ hn
  rw [dumps] at hn ⊢
  cases n with
  | zero => rw [quote, List.length_cons] at hn; omega
  | succ n =>
    have hhead : (quote s ++ rest).head? = some '\x22' := rfl
    have htail : (quote s ++ rest).tail = (quote s).tail ++ rest := rfl
    simp only [scanOnce, hhead, if_true, htail, scanString_quote s rest hn, Option.map_some,
      String.ofList_toList, canonical]

theorem head_dumps_ne (value : Json) {c : Char} (h : isStart c = false) (rest : List Char) :
    (dumps value ++ rest).head? ≠ some c := by
  obtain ⟨d, text, hdumps, hstart⟩ := dumps_head value
  rw [hdumps, List.cons_append, List.head?_cons]
  rintro ⟨⟩
  rw [h] at hstart
  cases hstart

theorem readBack_arr {items : List Json} (hitems : ∀ item ∈ items, item.ReadBack) :
    ReadBack (.arr items) := by
  intro n rest _ hn
  rw [dumps, dumpsItems_eq, List.length_cons, List.length_append, List.length_singleton] at hn
  rw [dumps, dumpsItems_eq, List.cons_append, List.append_assoc, List.singleton_append]
  have hquote : ¬ '[' = '\x22' := by decide
  cases n with
  | zero => omega
  | succ n =>
    rw [canonical_arr]
    cases items with
    | nil => rfl
    | cons item items =>
      obtain ⟨text, htext⟩ := intercalate_head [','] (dumps item) (items.map dumps)
      have hread := scanItems_dumps (List.cons_ne_nil _ _) hitems rest (n := n) (by omega)
      rw [List.map_cons, htext, List.append_assoc] at hread
      have hclose := head_dumps_ne item (c := ']') rfl (text ++ ']' :: rest)
      rw [List.map_cons, htext, List.append_assoc]
      simp only [scanOnce, List.head?_cons, if_neg hquote, if_true, List.tail_cons, skipSpace_dumps,
        if_neg hclose, hread, Option.map_some]

theorem readBack_obj {fields : List (String × Json)} (hkeys : (fields.map Prod.fst).Nodup)
    (hfields : ∀ f ∈ fields, f.2.ReadBack) : ReadBack (.obj fields) := by
  intro n rest _ hn
  have hperm := sortFields_perm fields
  have hsorted : ∀ f ∈ sortFields fields, f.2.ReadBack := fun f hf =>
    hfields f (hperm.mem_iff.mp hf)
  have hnodup : (((sortFields fields).map (mapValues canonical)).map Prod.fst).Nodup := by
    rw [List.map_map]
    exact ((hperm.map Prod.fst).nodup_iff).mpr hkeys
  have htexts : (sortFields (dumpsFields fields)).map field = (sortFields fields).map fieldText := by
    rw [dumpsFields_eq, sortFields_map, List.map_map]
    rfl
  rw [dumps, htexts, List.length_cons, List.length_append, List.length_singleton] at hn
  rw [dumps, htexts, canonical_obj, List.cons_append, List.append_assoc, List.singleton_append]
  have hquote : ¬ '\x7b' = '\x22' := by decide
  have hbracket : ¬ '\x7b' = '[' := by decide
  cases n with
  | zero => omega
  | succ n =>
    generalize sortFields fields = sorted at *
    cases sorted with
    | nil => rfl
    | cons f sorted =>
      have hread := scanFields_dumps (List.cons_ne_nil _ _) hsorted rest (n := n) (by omega)
      obtain ⟨text, htext⟩ := intercalate_head [','] (fieldText f) (sorted.map fieldText)
      rw [List.map_cons, htext, fieldText_eq, List.cons_append, List.cons_append] at hread ⊢
      have hclose : ¬ (some '\x22' = some '\x7d') := by decide
      simp only [scanOnce, List.head?_cons, if_neg hquote, if_neg hbracket, if_true, List.tail_cons,
        skipSpace_cons (c := '\x22') rfl, if_neg hclose, hread, Option.map_some, dict_eq hnodup]

/-- By induction on the tree. -/
theorem readBack {value : Json} (hunique : value.UniqueKeys) : value.ReadBack := by
  induction value using tree_induction with
  | null => exact readBack_null
  | bool b => exact readBack_bool b
  | int n => exact readBack_int n
  | str s => exact readBack_str s
  | arr items ih =>
    rw [uniqueKeys_arr] at hunique
    exact readBack_arr fun item hitem => ih item hitem (hunique item hitem)
  | obj fields ih =>
    rw [uniqueKeys_obj] at hunique
    exact readBack_obj hunique.1 fun f hf => ih f hf (hunique.2 f hf)

/-- Loading what was dumped gives the same tree. -/
theorem loads_dumps {value : Json} (hunique : value.UniqueKeys) :
    loads (dumps value) = some value.canonical := by
  have hskip := skipSpace_dumps value []
  have hread := readBack hunique ((dumps value).length + 1) [] .nil (Nat.le_succ _)
  rw [List.append_nil] at hskip hread
  simp only [loads, hskip, hread, bind, Option.bind]
  rfl

/-! ### Bytes -/

/-- `data.decode("utf-8")`. -/
def decodeUtf8 (data : Bytes) : Option (List Char) :=
  data.toByteArray.utf8Decode?.map Array.toList

theorem decodeUtf8_encodeUtf8 (text : List Char) : decodeUtf8 (encodeUtf8 text) = some text := by
  have hencode : (encodeUtf8 text).toByteArray = text.utf8Encode := rfl
  rw [decodeUtf8, hencode, List.utf8Decode?_utf8Encode]
  rfl

/-- `json.loads` of a byte string. -/
def loadsBytes (data : Bytes) : Option Json := (decodeUtf8 data).bind loads

end EvidenceCartographer.Python.Json
