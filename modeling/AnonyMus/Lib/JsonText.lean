import AnonyMus.Lib.Bytes
import AnonyMus.Lib.Dict
import AnonyMus.Lib.Json

/-!
# JSON texts

The text that `JSON.stringify` makes of a value, and a reader for the grammar of
JSON. How a number is written and what a literal of the number grammar stands
for are the business of the language, so they are parameters.

* `write` — a value as text, without blanks;
* `readValue`, `parse?` — the reader, which lets the last of equal members win;
* `Legible` — every number of the value is read as it was written, and no object
  has a key twice;
* `parse?_write` — such a value is read back from its text.
-/

namespace Json

/-- How a language writes and reads the numbers of JSON. -/
structure Numerals where
  float : UInt64 → List Char
  value : List Char → Option Json

/-! ## Strings -/

/-- A character between the quotes of a string. -/
def escape (c : Char) : List Char :=
  if c = '"' then ['\\', '"']
  else if c = '\\' then ['\\', '\\']
  else if c = '\n' then ['\\', 'n']
  else if c = '\r' then ['\\', 'r']
  else if c = '\t' then ['\\', 't']
  else if c = Char.ofNat 8 then ['\\', 'b']
  else if c = Char.ofNat 12 then ['\\', 'f']
  else if c.toNat < 32 then
    ['\\', 'u', '0', '0', hexDigit (c.toNat / 16), hexDigit (c.toNat % 16)]
  else [c]

def quote (s : String) : List Char := '"' :: (s.toList.flatMap escape ++ ['"'])

/-- The character after a backslash. -/
def unescape : Char → Option Char
  | '"' => some '"'
  | '\\' => some '\\'
  | '/' => some '/'
  | 'n' => some '\n'
  | 'r' => some '\r'
  | 't' => some '\t'
  | 'b' => some (Char.ofNat 8)
  | 'f' => some (Char.ofNat 12)
  | _ => none

/-- The code unit of four hexadecimal digits. -/
def codeUnit (a b c d : Char) : Option ℕ := do
  let a ← hexValue a
  let b ← hexValue b
  let c ← hexValue c
  let d ← hexValue d
  return ((a * 16 + b) * 16 + c) * 16 + d

/-- A pair of surrogates, or a code unit of its own. -/
def readUnit (unit : ℕ) (rest : List Char) : Option (Char × List Char) :=
  if unit < 0xD800 ∨ 0xE000 ≤ unit then some (Char.ofNat unit, rest)
  else match rest with
    | '\\' :: 'u' :: a :: b :: c :: d :: rest => do
      let low ← codeUnit a b c d
      if unit < 0xDC00 ∧ 0xDC00 ≤ low ∧ low < 0xE000 then
        some (Char.ofNat (0x10000 + (unit - 0xD800) * 0x400 + (low - 0xDC00)), rest)
      else none
    -- a surrogate without its partner is no character
    | _ => none

/-- One character of a string. -/
def readChar : List Char → Option (Char × List Char)
  | '\\' :: 'u' :: a :: b :: c :: d :: rest =>
    (codeUnit a b c d).bind fun unit => readUnit unit rest
  | '\\' :: e :: rest => (unescape e).map fun c => (c, rest)
  | c :: rest => if c.toNat < 32 ∨ c = '\\' then none else some (c, rest)
  | [] => none

/-- The rest of a string after its opening quote. -/
def readString : ℕ → List Char → Option (List Char × List Char)
  | 0, _ => none
  | fuel + 1, cs =>
    if cs.head? = some '"' then some ([], cs.tail)
    else (readChar cs).bind fun first =>
      (readString fuel first.2).map fun r => (first.1 :: r.1, r.2)

theorem readChar_plain {c : Char} (hback : c ≠ '\\') (hlarge : ¬ c.toNat < 32)
    (rest : List Char) : readChar (c :: rest) = some (c, rest) := by
  unfold readChar
  split
  case h_1 heq => exact absurd (List.cons.inj heq).1 hback
  case h_2 heq => exact absurd (List.cons.inj heq).1 hback
  case h_3 heq =>
    obtain ⟨rfl, rfl⟩ := List.cons.inj heq
    rw [if_neg (not_or.mpr ⟨hlarge, hback⟩)]
  case h_4 heq => cases heq

theorem readUnit_of_lt {unit : ℕ} (h : unit < 0xD800) (rest : List Char) :
    readUnit unit rest = some (Char.ofNat unit, rest) := by
  unfold readUnit
  rw [if_pos (.inl h)]

theorem readChar_control {c : Char} (hsmall : c.toNat < 32) (rest : List Char) :
    readChar ('\\' :: 'u' :: '0' :: '0' :: hexDigit (c.toNat / 16) :: hexDigit (c.toNat % 16) ::
      rest) = some (c, rest) := by
  have hzero : hexValue '0' = some 0 := by decide
  have hunit : codeUnit '0' '0' (hexDigit (c.toNat / 16)) (hexDigit (c.toNat % 16)) =
      some c.toNat := by
    rw [codeUnit, hzero, hexValue_hexDigit _ (by omega), hexValue_hexDigit _ (by omega)]
    show some _ = some _
    rw [Option.some.injEq]
    omega
  rw [readChar, hunit, Option.bind_some, readUnit_of_lt (by omega), Char.ofNat_toNat]

/-- A character is read as it was written. -/
theorem readChar_escape (c : Char) (rest : List Char) :
    readChar (escape c ++ rest) = some (c, rest) := by
  unfold escape
  split_ifs with hquote hback hn hr ht hb hf hsmall
  case pos => subst hquote; rfl
  case pos => subst hback; rfl
  case pos => subst hn; rfl
  case pos => subst hr; rfl
  case pos => subst ht; rfl
  case pos => subst hb; rfl
  case pos => subst hf; rfl
  case pos => exact readChar_control hsmall rest
  case neg => exact readChar_plain hback hsmall rest

theorem head?_escape (c : Char) (rest : List Char) :
    (escape c ++ rest).head? ≠ some '"' := by
  unfold escape
  split_ifs with hquote
  case neg => simpa using hquote
  all_goals simp

theorem length_escape (c : Char) : 1 ≤ (escape c).length := by
  unfold escape
  split_ifs <;> simp

theorem readString_quote {chars : List Char} {fuel : ℕ} (hfuel : chars.length < fuel)
    (rest : List Char) :
    readString fuel (chars.flatMap escape ++ '"' :: rest) = some (chars, rest) := by
  induction chars generalizing fuel with
  | nil =>
    obtain ⟨fuel, rfl⟩ : ∃ n, fuel = n + 1 := ⟨fuel - 1, by omega⟩
    rfl
  | cons c chars ih =>
    rw [List.length_cons] at hfuel
    obtain ⟨fuel, rfl⟩ : ∃ n, fuel = n + 1 := ⟨fuel - 1, by omega⟩
    rw [List.flatMap_cons, List.append_assoc, readString, if_neg (head?_escape c _),
      readChar_escape, Option.bind_some, ih (by omega)]
    rfl

/-! ## Values -/

section

variable (N : Numerals)

mutual

/-- `JSON.stringify`. -/
def write : Json → List Char
  | null => ['n', 'u', 'l', 'l']
  | bool true => ['t', 'r', 'u', 'e']
  | bool false => ['f', 'a', 'l', 's', 'e']
  | int n => (toString n).toList
  | float bits => N.float bits
  | str s => quote s
  | arr [] => ['[', ']']
  | arr (item :: items) => '[' :: (write item ++ writeItems items)
  | obj [] => [Char.ofNat 123, Char.ofNat 125]
  | obj ((key, value) :: members) =>
    Char.ofNat 123 :: (quote key ++ ':' :: (write value ++ writeMembers members))

/-- Further items, and the bracket that closes. -/
def writeItems : List Json → List Char
  | [] => [']']
  | item :: items => ',' :: (write item ++ writeItems items)

/-- Further members, and the brace that closes. -/
def writeMembers : List (String × Json) → List Char
  | [] => [Char.ofNat 125]
  | (key, value) :: members =>
    ',' :: (quote key ++ ':' :: (write value ++ writeMembers members))

end

def isBlank (c : Char) : Bool := c = ' ' || c = '\t' || c = '\n' || c = '\r'

def skipBlank (cs : List Char) : List Char := cs.dropWhile isBlank

/-- A character of a number; none of them can follow a number in a text. -/
def isNumeral (c : Char) : Bool :=
  c.isDigit || c = '-' || c = '+' || c = '.' || c = 'e' || c = 'E'

/-- The members of an object in which equal keys may occur: the last one wins. -/
def settle (members : List (String × Json)) : List (String × Json) :=
  members.foldl (fun kept m => Dict.insertEntries kept m.1 m.2) []

/-- The rest of a word, once its first letter is read. -/
def readWord (letters : List Char) (value : Json) (rest : List Char) :
    Option (Json × List Char) :=
  if rest.take letters.length = letters then some (value, rest.drop letters.length) else none

/-- The character that a blank may precede, and what follows it. -/
def next? (cs : List Char) : Option (Char × List Char) :=
  match skipBlank cs with
  | [] => none
  | c :: rest => some (c, rest)

mutual

def readValue : ℕ → List Char → Option (Json × List Char)
  | 0, _ => none
  | fuel + 1, cs =>
    (next? cs).bind fun (c, rest) =>
      if c = 'n' then readWord ['u', 'l', 'l'] null rest
      else if c = 't' then readWord ['r', 'u', 'e'] (bool true) rest
      else if c = 'f' then readWord ['a', 'l', 's', 'e'] (bool false) rest
      else if c = '"' then
        (readString fuel rest).map fun r => (str (String.ofList r.1), r.2)
      else if c = '[' then
        (next? rest).bind fun (d, after) =>
          if d = ']' then some (arr [], after)
          else (readItems fuel rest).map fun r => (arr r.1, r.2)
      else if c = Char.ofNat 123 then
        (next? rest).bind fun (d, after) =>
          if d = Char.ofNat 125 then some (obj [], after)
          else (readMembers fuel rest).map fun r => (obj (settle r.1), r.2)
      else
        (N.value ((c :: rest).takeWhile isNumeral)).map fun n =>
          (n, (c :: rest).dropWhile isNumeral)

/-- The items of an array that is not empty, with the bracket that closes it. -/
def readItems : ℕ → List Char → Option (List Json × List Char)
  | 0, _ => none
  | fuel + 1, cs =>
    (readValue fuel cs).bind fun (item, rest) =>
      (next? rest).bind fun (c, rest) =>
        if c = ',' then (readItems fuel rest).map fun r => (item :: r.1, r.2)
        else if c = ']' then some ([item], rest)
        else none

/-- The members of an object that is not empty, with the brace that closes it. -/
def readMembers : ℕ → List Char → Option (List (String × Json) × List Char)
  | 0, _ => none
  | fuel + 1, cs =>
    (next? cs).bind fun (q, rest) =>
      if q = '"' then
        (readString fuel rest).bind fun (key, rest) =>
          (next? rest).bind fun (colon, rest) =>
            if colon = ':' then
              (readValue fuel rest).bind fun (value, rest) =>
                (next? rest).bind fun (c, rest) =>
                  if c = ',' then
                    (readMembers fuel rest).map fun r =>
                      ((String.ofList key, value) :: r.1, r.2)
                  else if c = Char.ofNat 125 then some ([(String.ofList key, value)], rest)
                  else none
            else none
      else none

end

/-- `JSON.parse`. -/
def parse? (text : List Char) : Option Json :=
  match readValue N (text.length + 1) text with
  | some (value, rest) => if skipBlank rest = [] then some value else none
  | none => none

/-! ## What is written is read -/

/-- A literal that is read as this value, and is told from other values. -/
def Literal (text : List Char) (value : Json) : Prop :=
  N.value text = some value ∧ text ≠ [] ∧ ∀ c ∈ text, isNumeral c = true

theorem isNumeral_of_mem_toString (n : ℤ) : ∀ c ∈ (toString n).toList, isNumeral c = true := by
  have hdigits : ∀ (m : ℕ), ∀ c ∈ m.repr.toList, isNumeral c = true := by
    intro m c hc
    rw [Nat.toList_repr] at hc
    rw [isNumeral, Nat.isDigit_of_mem_toDigits (by decide) (by decide) hc]
    rfl
  cases n with
  | ofNat m => exact hdigits m
  | negSucc m =>
    show ∀ c ∈ ("-" ++ (m + 1).repr).toList, isNumeral c = true
    intro c hc
    rw [String.toList_append, List.mem_append] at hc
    rcases hc with hc | hc
    · have hminus : c = '-' := by simpa using hc
      subst hminus
      decide
    · exact hdigits _ c hc

theorem toString_ne_nil (n : ℤ) : (toString n).toList ≠ [] := by
  cases n with
  | ofNat m =>
    show m.repr.toList ≠ []
    rw [Nat.toList_repr]
    exact Nat.toDigits_ne_nil
  | negSucc m =>
    show ("-" ++ (m + 1).repr).toList ≠ []
    simp

theorem literal_int {n : ℤ} (h : N.value (toString n).toList = some (int n)) :
    Literal N (toString n).toList (int n) :=
  ⟨h, toString_ne_nil n, isNumeral_of_mem_toString n⟩

mutual

/-- The numbers of the value are read as they are written, and no object of it has a key twice. -/
def Legible : Json → Prop
  | null => True
  | bool _ => True
  | int n => Literal N (toString n).toList (int n)
  | float bits => Literal N (N.float bits) (float bits)
  | str _ => True
  | arr items => LegibleItems items
  | obj members => (members.map Prod.fst).Nodup ∧ LegibleMembers members

def LegibleItems : List Json → Prop
  | [] => True
  | item :: items => Legible item ∧ LegibleItems items

def LegibleMembers : List (String × Json) → Prop
  | [] => True
  | (_, value) :: members => Legible value ∧ LegibleMembers members

end

theorem next?_cons {c : Char} (hblank : isBlank c = false) (rest : List Char) :
    next? (c :: rest) = some (c, rest) := by
  unfold next? skipBlank
  rw [List.dropWhile_cons_of_neg (by rw [hblank]; exact Bool.false_ne_true)]

/-- What follows a value is no part of a number. -/
def Ends (rest : List Char) : Prop := ∀ c ∈ rest.head?, isNumeral c = false

theorem numeral_plain {c : Char} (h : isNumeral c = true) :
    isBlank c = false ∧ c ≠ 'n' ∧ c ≠ 't' ∧ c ≠ 'f' ∧ c ≠ '"' ∧ c ≠ '[' ∧ c ≠ Char.ofNat 123 := by
  refine ⟨?_, ?_, ?_, ?_, ?_, ?_, ?_⟩
  · cases hblank : isBlank c with
    | false => rfl
    | true =>
      simp only [isBlank, Bool.or_eq_true, decide_eq_true_eq] at hblank
      rcases hblank with ((rfl | rfl) | rfl) | rfl <;> exact absurd h (by decide)
  all_goals
    rintro rfl
    exact absurd h (by decide)

theorem readValue_literal {text : List Char} {value : Json} (h : Literal N text value)
    {rest : List Char} (hends : Ends rest) (fuel : ℕ) :
    readValue N (fuel + 1) (text ++ rest) = some (value, rest) := by
  obtain ⟨hvalue, hne, hall⟩ := h
  have htake : (text ++ rest).takeWhile isNumeral = text := by
    rw [List.takeWhile_append_of_pos hall]
    cases rest with
    | nil => simp
    | cons c rest =>
      rw [List.takeWhile_cons_of_neg (by rw [hends c rfl]; exact Bool.false_ne_true),
        List.append_nil]
  have hdrop : (text ++ rest).dropWhile isNumeral = rest := by
    rw [List.dropWhile_append_of_pos hall]
    cases rest with
    | nil => rfl
    | cons c rest =>
      rw [List.dropWhile_cons_of_neg (by rw [hends c rfl]; exact Bool.false_ne_true)]
  cases text with
  | nil => exact absurd rfl hne
  | cons c text =>
    obtain ⟨hblank, hn, ht, hf, hq, hb, hbrace⟩ := numeral_plain (hall c List.mem_cons_self)
    rw [List.cons_append] at htake hdrop ⊢
    rw [readValue, next?_cons hblank, Option.bind_some]
    dsimp only
    rw [if_neg hn, if_neg ht, if_neg hf, if_neg hq, if_neg hb, if_neg hbrace, htake, hdrop,
      hvalue]
    rfl

theorem write_eq_cons {value : Json} (h : Legible N value) :
    ∃ c cs, write N value = c :: cs ∧ isBlank c = false ∧ c ≠ ']' := by
  have hliteral : ∀ {text : List Char} {v : Json}, Literal N text v →
      ∃ c cs, text = c :: cs ∧ isBlank c = false ∧ c ≠ ']' := by
    intro text v hl
    cases text with
    | nil => exact absurd rfl hl.2.1
    | cons c cs =>
      have hnum := hl.2.2 c List.mem_cons_self
      refine ⟨c, cs, rfl, (numeral_plain hnum).1, ?_⟩
      rintro rfl
      exact absurd hnum (by decide)
  cases value with
  | null => exact ⟨_, _, by rw [write], by decide, by decide⟩
  | bool b => cases b <;> exact ⟨_, _, by rw [write], by decide, by decide⟩
  | int n =>
    rw [write]
    exact hliteral (by rwa [Legible] at h)
  | float bits =>
    rw [write]
    exact hliteral (by rwa [Legible] at h)
  | str s => exact ⟨_, _, by rw [write, quote], by decide, by decide⟩
  | arr items => cases items <;> exact ⟨_, _, by rw [write], by decide, by decide⟩
  | obj members => cases members <;> exact ⟨_, _, by rw [write], by decide, by decide⟩

theorem one_le_length_writeItems (items : List Json) : 1 ≤ (writeItems N items).length := by
  cases items <;> simp [writeItems]

theorem one_le_length_writeMembers (members : List (String × Json)) :
    1 ≤ (writeMembers N members).length := by
  cases members <;> simp [writeMembers]

theorem ends_writeItems (items : List Json) (rest : List Char) :
    Ends (writeItems N items ++ rest) := by
  intro c hc
  cases items <;> simp only [writeItems, List.cons_append, List.head?_cons, Option.mem_def,
    Option.some.injEq] at hc <;> subst hc <;> decide

theorem ends_writeMembers (members : List (String × Json)) (rest : List Char) :
    Ends (writeMembers N members ++ rest) := by
  intro c hc
  cases members <;> simp only [writeMembers, List.cons_append, List.head?_cons, Option.mem_def,
    Option.some.injEq] at hc <;> subst hc <;> decide

/-- Without equal keys there is nothing to settle. -/
theorem settle_of_nodup {members : List (String × Json)}
    (h : (members.map Prod.fst).Nodup) : settle members = members := by
  have hfold : ∀ (more kept : List (String × Json)),
      ((kept ++ more).map Prod.fst).Nodup →
      more.foldl (fun kept m => Dict.insertEntries kept m.1 m.2) kept = kept ++ more := by
    intro more
    induction more with
    | nil => intro kept _; rw [List.append_nil]; rfl
    | cons m more ih =>
      intro kept hkept
      have hall := hkept
      rw [List.map_append, List.map_cons] at hall
      have hnot : m.1 ∉ kept.map Prod.fst := fun hmem =>
        (List.nodup_append.mp hall).2.2 _ hmem _ List.mem_cons_self rfl
      have hnew : Dict.insertEntries kept m.1 m.2 = kept ++ [m] :=
        Dict.entries_insert_of_new (d := ⟨kept, (List.nodup_append.mp hall).1⟩)
          (Dict.get?_eq_none_iff_notMem_keys.mpr hnot)
      rw [List.foldl_cons, hnew, ih _ (by rwa [List.append_assoc]), List.append_assoc]
      rfl
  exact hfold members [] h

theorem readWord_append (letters : List Char) (value : Json) (rest : List Char) :
    readWord letters value (letters ++ rest) = some (value, rest) := by
  rw [readWord, List.take_left, if_pos rfl, List.drop_left]

theorem length_le_quote (s : String) : s.toList.length + 2 ≤ (quote s).length := by
  have hflat : ∀ chars : List Char, chars.length ≤ (chars.flatMap escape).length := by
    intro chars
    induction chars with
    | nil => exact Nat.le_refl _
    | cons c chars ih =>
      have := length_escape c
      rw [List.flatMap_cons, List.length_append, List.length_cons]
      omega
  have := hflat s.toList
  rw [quote, List.length_cons, List.length_append, List.length_singleton]
  omega

/-- The string of a quoted text, and what follows it. -/
theorem readString_tail_quote (s : String) {fuel : ℕ} (hfuel : s.toList.length < fuel)
    (rest : List Char) :
    readString fuel (s.toList.flatMap escape ++ ['"'] ++ rest) = some (s.toList, rest) := by
  rw [List.append_assoc]
  exact readString_quote hfuel rest

mutual

theorem readValue_write : ∀ (value : Json), Legible N value → ∀ (fuel : ℕ) (rest : List Char),
    (write N value).length ≤ fuel → Ends rest →
      readValue N (fuel + 1) (write N value ++ rest) = some (value, rest)
  | null, _, fuel, rest, _, _ => by
    rw [write, readValue]
    exact readWord_append ['u', 'l', 'l'] null rest
  | bool true, _, fuel, rest, _, _ => by
    rw [write, readValue]
    exact readWord_append ['r', 'u', 'e'] (bool true) rest
  | bool false, _, fuel, rest, _, _ => by
    rw [write, readValue]
    exact readWord_append ['a', 'l', 's', 'e'] (bool false) rest
  | int n, h, fuel, rest, _, hends => by
    rw [Legible] at h
    rw [write]
    exact readValue_literal N h hends fuel
  | float bits, h, fuel, rest, _, hends => by
    rw [Legible] at h
    rw [write]
    exact readValue_literal N h hends fuel
  | str s, _, fuel, rest, hfuel, _ => by
    rw [write] at hfuel
    have hlen := length_le_quote s
    rw [write, quote, List.cons_append, readValue, next?_cons (by decide), Option.bind_some]
    dsimp only
    rw [if_neg (by decide), if_neg (by decide), if_neg (by decide), if_pos rfl,
      readString_tail_quote s (by omega), Option.map_some]
    rw [String.ofList_toList]
  | arr [], _, fuel, rest, _, _ => by
    rw [write, readValue]
    rfl
  | arr (item :: items), h, fuel, rest, hfuel, _ => by
    rw [Legible] at h
    have hwrite : write N (arr (item :: items)) = '[' :: (writeItems N (item :: items)).tail := by
      rw [write, writeItems, List.tail_cons]
    obtain ⟨c, cs, hc, hblank, hclose⟩ := write_eq_cons N (by rw [LegibleItems] at h; exact h.1)
    have htail : (writeItems N (item :: items)).tail = c :: (cs ++ writeItems N items) := by
      rw [writeItems, List.tail_cons, hc, List.cons_append]
    rw [hwrite, List.length_cons] at hfuel
    obtain ⟨fuel, rfl⟩ : ∃ n, fuel = n + 1 := ⟨fuel - 1, by omega⟩
    rw [hwrite, List.cons_append, readValue, next?_cons (by decide), Option.bind_some]
    dsimp only
    have hitems := readItems_write (item :: items) h (List.cons_ne_nil _ _) fuel rest (by omega)
    rw [if_neg (by decide), if_neg (by decide), if_neg (by decide), if_neg (by decide),
      if_pos rfl, hitems, htail, List.cons_append, next?_cons hblank, Option.bind_some]
    dsimp only
    rw [if_neg hclose]
    rfl
  | obj [], _, fuel, rest, _, _ => by
    rw [write, readValue]
    rfl
  | obj ((key, value) :: members), h, fuel, rest, hfuel, _ => by
    rw [Legible] at h
    have hwrite : write N (obj ((key, value) :: members)) =
        Char.ofNat 123 :: (writeMembers N ((key, value) :: members)).tail := by
      rw [write, writeMembers, List.tail_cons]
    have htail : (writeMembers N ((key, value) :: members)).tail =
        '"' :: (key.toList.flatMap escape ++ ['"'] ++ ':' ::
          (write N value ++ writeMembers N members)) := by
      rw [writeMembers, List.tail_cons, quote, List.cons_append]
    rw [hwrite, List.length_cons] at hfuel
    obtain ⟨fuel, rfl⟩ : ∃ n, fuel = n + 1 := ⟨fuel - 1, by omega⟩
    rw [hwrite, List.cons_append, readValue, next?_cons (by decide), Option.bind_some]
    dsimp only
    have hmembers := readMembers_write ((key, value) :: members) h.2 (List.cons_ne_nil _ _) fuel
      rest (by omega)
    rw [if_neg (by decide), if_neg (by decide), if_neg (by decide), if_neg (by decide),
      if_neg (by decide), if_pos rfl, hmembers, htail, List.cons_append, next?_cons (by decide),
      Option.bind_some]
    dsimp only
    rw [if_neg (by decide), Option.map_some, settle_of_nodup h.1]

theorem readItems_write : ∀ (items : List Json), LegibleItems N items → items ≠ [] →
    ∀ (fuel : ℕ) (rest : List Char), (writeItems N items).tail.length ≤ fuel →
      readItems N (fuel + 1) ((writeItems N items).tail ++ rest) = some (items, rest)
  | [], _, hne, _, _, _ => absurd rfl hne
  | item :: items, h, _, fuel, rest, hfuel => by
    rw [LegibleItems] at h
    have hlen := one_le_length_writeItems N items
    rw [writeItems, List.tail_cons, List.length_append] at hfuel
    obtain ⟨fuel, rfl⟩ : ∃ n, fuel = n + 1 := ⟨fuel - 1, by omega⟩
    have hvalue := readValue_write item h.1 fuel (writeItems N items ++ rest) (by omega)
      (ends_writeItems N items rest)
    rw [writeItems, List.tail_cons, List.append_assoc, readItems, hvalue, Option.bind_some]
    dsimp only
    cases items with
    | nil =>
      rw [writeItems]
      rfl
    | cons item' items =>
      have hrest := readItems_write (item' :: items) h.2 (List.cons_ne_nil _ _) fuel rest (by
        rw [List.length_tail]
        omega)
      have hcomma : writeItems N (item' :: items) =
          ',' :: (writeItems N (item' :: items)).tail := by
        rw [writeItems, List.tail_cons]
      rw [hcomma, List.cons_append, next?_cons (by decide), Option.bind_some]
      dsimp only
      rw [if_pos rfl, hrest]
      rfl

theorem readMembers_write : ∀ (members : List (String × Json)), LegibleMembers N members →
    members ≠ [] → ∀ (fuel : ℕ) (rest : List Char), (writeMembers N members).tail.length ≤ fuel →
      readMembers N (fuel + 1) ((writeMembers N members).tail ++ rest) = some (members, rest)
  | [], _, hne, _, _, _ => absurd rfl hne
  | (key, value) :: members, h, _, fuel, rest, hfuel => by
    rw [LegibleMembers] at h
    have hlen := one_le_length_writeMembers N members
    have hkey := length_le_quote key
    rw [writeMembers, List.tail_cons, List.length_append, List.length_cons,
      List.length_append] at hfuel
    obtain ⟨fuel, rfl⟩ : ∃ n, fuel = n + 1 := ⟨fuel - 1, by omega⟩
    have hvalue := readValue_write value h.1 fuel (writeMembers N members ++ rest) (by omega)
      (ends_writeMembers N members rest)
    rw [writeMembers, List.tail_cons, quote, List.cons_append, List.cons_append, readMembers,
      next?_cons (by decide), Option.bind_some]
    dsimp only
    rw [if_pos rfl, List.append_assoc, readString_tail_quote key (by omega), Option.bind_some]
    dsimp only
    rw [List.cons_append, next?_cons (by decide), Option.bind_some]
    dsimp only
    rw [if_pos rfl, List.append_assoc, hvalue, Option.bind_some]
    dsimp only
    cases members with
    | nil =>
      rw [writeMembers, List.singleton_append, next?_cons (by decide), Option.bind_some]
      dsimp only
      rw [if_neg (by decide), if_pos rfl, String.ofList_toList]
    | cons member members =>
      have hrest := readMembers_write (member :: members) h.2 (List.cons_ne_nil _ _) fuel rest (by
        rw [List.length_tail]
        omega)
      have hcomma : writeMembers N (member :: members) =
          ',' :: (writeMembers N (member :: members)).tail := by
        rw [writeMembers, List.tail_cons]
      rw [hcomma, List.cons_append, next?_cons (by decide), Option.bind_some]
      dsimp only
      rw [if_pos rfl, hrest, Option.map_some, String.ofList_toList]

end

/-- **Round trip.** A value is read back from its text. -/
theorem parse?_write {value : Json} (h : Legible N value) :
    parse? N (write N value) = some value := by
  have hread := readValue_write N value h (write N value).length [] (Nat.le_refl _)
    (by intro c hc; cases hc)
  rw [List.append_nil] at hread
  rw [parse?, hread]
  rfl

end

end Json
