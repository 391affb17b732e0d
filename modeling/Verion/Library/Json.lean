import Verion.Library.Scan
import Mathlib.Data.List.DropRight
import Mathlib.Data.List.Forall2

/-!
# JSON

What `encoding/json` writes for strings, integers, arrays and objects, and the texts it
reads. A text is read as its characters, with the replacement character for bytes
that are none.
-/

namespace Json

inductive Value where
  | null
  | bool (b : Bool)
  | number (literal : List Char)
  | string (s : List Char)
  | array (items : List Value)
  | object (members : List (List Char × Value))

/-! ### Writing -/

/-- Characters that stand as `\u00XX`: control characters, and what HTML reads. -/
def isUnsafe (c : Char) : Bool := c.toNat < 0x20 || c == '<' || c == '>' || c == '&'

/-- The short escapes, by the letter after the backslash. -/
def escapes : List (Char × Char) :=
  [('"', '"'), ('\\', '\\'), ('b', '\x08'), ('f', '\x0c'), ('n', '\n'), ('r', '\r'), ('t', '\t')]

def letter? (c : Char) : Option Char := (escapes.find? fun p => p.2 == c).map Prod.fst

/-- One character of a string; `none` is a byte that is none. -/
def quoteRune : Option Char → List Char
  | none => ['\\', 'u', 'f', 'f', 'f', 'd']
  | some c =>
    match letter? c with
    | some l => ['\\', l]
    | none =>
      if isUnsafe c then
        ['\\', 'u', '0', '0', Nat.digitChar (c.toNat / 16), Nat.digitChar (c.toNat % 16)]
      else if c.toNat = 0x2028 ∨ c.toNat = 0x2029 then
        ['\\', 'u', '2', '0', '2', Nat.digitChar (c.toNat % 16)]
      else [c]

def quote (s : List UInt8) : List Char :=
  '"' :: ((Utf8.decode s).flatMap quoteRune ++ ['"'])

def integer (i : Int) : List Char :=
  if i < 0 then '-' :: Nat.toDigits 10 i.natAbs else Nat.toDigits 10 i.natAbs

/-- The members after the first; each is a name with what is written for its value. -/
def printMembers : List (List Char × List Char) → List Char
  | [] => ['\x7d']
  | (name, v) :: rest => ',' :: '"' :: (name ++ '"' :: ':' :: (v ++ printMembers rest))

def printObject : List (List Char × List Char) → List Char
  | [] => ['\x7b', '\x7d']
  | (name, v) :: rest => '\x7b' :: '"' :: (name ++ '"' :: ':' :: (v ++ printMembers rest))

/-- The items after the first; each is what is written for a value. -/
def printItems : List (List Char) → List Char
  | [] => [']']
  | v :: rest => ',' :: (v ++ printItems rest)

def printArray : List (List Char) → List Char
  | [] => ['[', ']']
  | v :: rest => '[' :: (v ++ printItems rest)

/-! ### Strings -/

def isSpace (c : Char) : Bool := c == ' ' || c == '\t' || c == '\n' || c == '\r'

def skip (input : List Char) : List Char := input.dropWhile isSpace

def hexValue? (c : Char) : Option Nat :=
  if c.isDigit then some (c.toNat - '0'.toNat)
  else if 'a' ≤ c ∧ c ≤ 'f' then some (c.toNat - 'a'.toNat + 10)
  else if 'A' ≤ c ∧ c ≤ 'F' then some (c.toNat - 'A'.toNat + 10)
  else none

def hex4? (a b c d : Char) : Option Nat := do
  let a ← hexValue? a
  let b ← hexValue? b
  let c ← hexValue? c
  let d ← hexValue? d
  some (((a * 16 + b) * 16 + c) * 16 + d)

/-- A part of a string: a character, or what `\u` gives, a unit of UTF-16. -/
inductive Item where
  | char (c : Char)
  | unit (n : Nat)

def escaped? (l : Char) : Option Char :=
  if l = '/' then some '/' else (escapes.find? fun p => p.1 == l).map Prod.snd

/-- A string up to its closing quote. -/
def lexString : List Char → Option (List Item × List Char)
  | [] => none
  | c :: rest =>
    if c = '"' then some ([], rest)
    else if c = '\\' then
      match rest with
      | 'u' :: a :: b :: c :: d :: rest =>
        (hex4? a b c d).bind fun n => (lexString rest).map fun p => (.unit n :: p.1, p.2)
      | l :: rest => (escaped? l).bind fun c => (lexString rest).map fun p => (.char c :: p.1, p.2)
      | [] => none
    else if c.toNat < 0x20 then none
    else (lexString rest).map fun p => (.char c :: p.1, p.2)

def isHigh (n : Nat) : Bool := 0xD800 ≤ n && n < 0xDC00

def isLow (n : Nat) : Bool := 0xDC00 ≤ n && n < 0xE000

def unitRune (n : Nat) : Char :=
  if n.isValidChar then Char.ofNat n else Utf8.replacement

/-- The characters of a string; two units may be one character. -/
def join : List Item → List Char
  | [] => []
  | .char c :: rest => c :: join rest
  | .unit n :: .unit m :: rest =>
    if isHigh n ∧ isLow m then
      Char.ofNat (0x10000 + (n - 0xD800) * 0x400 + (m - 0xDC00)) :: join rest
    else unitRune n :: join (.unit m :: rest)
  | .unit n :: rest => unitRune n :: join rest

/-! ### Numbers -/

def digits1? (input : List Char) : Option (List Char × List Char) :=
  if input.takeWhile Char.isDigit = [] then none
  else some (input.takeWhile Char.isDigit, input.dropWhile Char.isDigit)

/-- No zero leads. -/
def lexInt : List Char → Option (List Char × List Char)
  | '0' :: rest => some (['0'], rest)
  | input => digits1? input

def lexFraction : List Char → Option (List Char × List Char)
  | '.' :: rest => (digits1? rest).map fun p => ('.' :: p.1, p.2)
  | input => some ([], input)

def lexExponent : List Char → Option (List Char × List Char)
  | e :: rest =>
    if e = 'e' ∨ e = 'E' then
      match rest with
      | '+' :: rest => (digits1? rest).map fun p => (e :: '+' :: p.1, p.2)
      | '-' :: rest => (digits1? rest).map fun p => (e :: '-' :: p.1, p.2)
      | rest => (digits1? rest).map fun p => (e :: p.1, p.2)
    else some ([], e :: rest)
  | [] => some ([], [])

def lexMinus : List Char → List Char × List Char
  | '-' :: rest => (['-'], rest)
  | input => ([], input)

def lexNumber (input : List Char) : Option (List Char × List Char) := do
  let (minus, rest) := lexMinus input
  let (int, rest) ← lexInt rest
  let (fraction, rest) ← lexFraction rest
  let (exponent, rest) ← lexExponent rest
  some (minus ++ int ++ fraction ++ exponent, rest)

/-! ### Values -/

mutual

/-- A value may hold so many levels of arrays and objects; a text has less of them than
characters, so that the first number is no bound if it is the length of the text. -/
def parseValue : Nat → Nat → List Char → Option (Value × List Char)
  | 0, _, _ => none
  | fuel + 1, depth, input =>
    match skip input with
    | '\x7b' :: rest =>
      match depth, skip rest with
      | 0, _ => none
      | _ + 1, '\x7d' :: rest => some (.object [], rest)
      | depth + 1, rest => (parseMembers fuel depth rest).map fun p => (.object p.1, p.2)
    | '[' :: rest =>
      match depth, skip rest with
      | 0, _ => none
      | _ + 1, ']' :: rest => some (.array [], rest)
      | depth + 1, rest => (parseItems fuel depth rest).map fun p => (.array p.1, p.2)
    | '"' :: rest => (lexString rest).map fun p => (.string (join p.1), p.2)
    | 'n' :: 'u' :: 'l' :: 'l' :: rest => some (.null, rest)
    | 't' :: 'r' :: 'u' :: 'e' :: rest => some (.bool true, rest)
    | 'f' :: 'a' :: 'l' :: 's' :: 'e' :: rest => some (.bool false, rest)
    | rest => (lexNumber rest).map fun p => (.number p.1, p.2)

def parseMembers : Nat → Nat → List Char → Option (List (List Char × Value) × List Char)
  | 0, _, _ => none
  | fuel + 1, depth, input =>
    match skip input with
    | '"' :: rest => do
      let (name, rest) ← lexString rest
      match skip rest with
      | ':' :: rest => do
        let (v, rest) ← parseValue fuel depth rest
        match skip rest with
        | ',' :: rest => (parseMembers fuel depth rest).map fun p => ((join name, v) :: p.1, p.2)
        | '\x7d' :: rest => some ([(join name, v)], rest)
        | _ => none
      | _ => none
    | _ => none

def parseItems : Nat → Nat → List Char → Option (List Value × List Char)
  | 0, _, _ => none
  | fuel + 1, depth, input => do
    let (v, rest) ← parseValue fuel depth input
    match skip rest with
    | ',' :: rest => (parseItems fuel depth rest).map fun p => (v :: p.1, p.2)
    | ']' :: rest => some ([v], rest)
    | _ => none

end

def maxDepth : Nat := 10000

def parseText (input : List Char) : Option Value :=
  match parseValue (input.length + 1) maxDepth input with
  | some (v, rest) => if skip rest = [] then some v else none
  | none => none

def parse (text : List UInt8) : Option Value := parseText (Utf8.runes text)

/-! ### What is written is read -/

/-- An item that stands for a character by itself. -/
inductive Plain : Item → Char → Prop where
  | char (c : Char) : Plain (.char c) c
  | unit (n : Nat) (h : n < 0xD800 ∨ (0xE000 ≤ n ∧ n < 0x10000)) : Plain (.unit n) (Char.ofNat n)

theorem join_plain {i : Item} {c : Char} (h : Plain i c) (items : List Item) :
    join (i :: items) = c :: join items := by
  cases h with
  | char c => rfl
  | unit n hn =>
    have hhigh : isHigh n = false := by simp [isHigh]; omega
    have hrune : unitRune n = Char.ofNat n := if_pos (by simp only [Nat.isValidChar]; omega)
    cases items with
    | nil => simp only [join, hrune]
    | cons i items =>
      cases i with
      | char d => simp only [join, hrune]
      | unit m => simp only [join, hhigh, Bool.false_eq_true, false_and, if_false, hrune]

/-- The characters with a short escape. -/
theorem letter?_cases {c l : Char} (h : letter? c = some l) : l ≠ 'u' ∧ escaped? l = some c := by
  unfold letter? at h
  obtain ⟨p, hp, rfl⟩ := Option.map_eq_some_iff.mp h
  have hc : p.2 = c := by simpa using List.find?_some hp
  have hmem := List.mem_of_find?_eq_some hp
  subst hc
  revert p
  decide

theorem hex4?_digits {a b c d : Nat} (ha : a < 16) (hb : b < 16) (hc : c < 16) (hd : d < 16) :
    hex4? (Nat.digitChar a) (Nat.digitChar b) (Nat.digitChar c) (Nat.digitChar d) =
      some (((a * 16 + b) * 16 + c) * 16 + d) := by
  have hdigit : ∀ k, k < 16 → hexValue? (Nat.digitChar k) = some k := by decide
  simp only [hex4?, hdigit _ ha, hdigit _ hb, hdigit _ hc, hdigit _ hd, Option.bind_eq_bind,
    Option.bind_some]

theorem lexString_end (rest : List Char) : lexString ('"' :: rest) = some ([], rest) := by
  rw [lexString.eq_def]
  exact if_pos rfl

theorem lexString_unit {a b c d : Char} {n : Nat} (h : hex4? a b c d = some n) (rest : List Char) :
    lexString ('\\' :: 'u' :: a :: b :: c :: d :: rest) =
      (lexString rest).map fun p => (.unit n :: p.1, p.2) := by
  rw [lexString, if_neg (by decide), if_pos rfl]
  simp only [h, Option.bind_some]

theorem lexString_escape {l c : Char} (hu : l ≠ 'u') (h : escaped? l = some c) (rest : List Char) :
    lexString ('\\' :: l :: rest) = (lexString rest).map fun p => (.char c :: p.1, p.2) := by
  rw [lexString, if_neg (by decide), if_pos rfl]
  · rw [h, Option.bind_some]
  · rintro a b c d rest hl -
    exact hu hl

theorem lexString_char {c : Char} (hletter : letter? c = none) (hc : 0x20 ≤ c.toNat)
    (rest : List Char) :
    lexString (c :: rest) = (lexString rest).map fun p => (.char c :: p.1, p.2) := by
  have hquote : c ≠ '"' := by rintro rfl; exact absurd hletter (by decide)
  have hslash : c ≠ '\\' := by rintro rfl; exact absurd hletter (by decide)
  rw [lexString.eq_def]
  dsimp only
  rw [if_neg hquote, if_neg hslash, if_neg (by omega)]

/-- What is written for a character is read as that character. -/
theorem lexString_quoteRune (r : Option Char) : ∃ i, Plain i (r.getD Utf8.replacement) ∧
    ∀ rest, lexString (quoteRune r ++ rest) =
      (lexString rest).map fun p => (i :: p.1, p.2) := by
  cases r with
  | none => exact ⟨.unit 0xFFFD, .unit _ (by decide), lexString_unit (by decide)⟩
  | some c =>
    rw [Option.getD_some]
    have hunit : ∀ n, c.toNat = n → n < 0x10000 → Plain (.unit n) c := by
      rintro n rfl hn
      have hplain := Plain.unit c.toNat (c.valid.imp_right fun h => ⟨h.1, hn⟩)
      rwa [Char.ofNat_toNat] at hplain
    cases hl : letter? c with
    | some l =>
      obtain ⟨hu, hesc⟩ := letter?_cases hl
      simp only [quoteRune, hl]
      exact ⟨.char c, .char c, lexString_escape hu hesc⟩
    | none =>
      simp only [quoteRune, hl]
      by_cases hunsafe : isUnsafe c = true
      · have hlt : c.toNat < 0x40 := by
          simp only [isUnsafe, Bool.or_eq_true, decide_eq_true_eq, beq_iff_eq] at hunsafe
          rcases hunsafe with ((h | rfl) | rfl) | rfl
          · omega
          all_goals decide
        have hhex := hex4?_digits (a := 0) (b := 0) (c := c.toNat / 16) (d := c.toNat % 16)
          (by omega) (by omega) (by omega) (by omega)
        rw [if_pos hunsafe]
        exact ⟨.unit _, hunit _ (by omega) (by omega), lexString_unit hhex⟩
      · rw [if_neg hunsafe]
        by_cases hsep : c.toNat = 0x2028 ∨ c.toNat = 0x2029
        · have hhex := hex4?_digits (a := 2) (b := 0) (c := 2) (d := c.toNat % 16)
            (by omega) (by omega) (by omega) (by omega)
          rw [if_pos hsep]
          exact ⟨.unit _, hunit _ (by omega) (by omega), lexString_unit hhex⟩
        · have hc : 0x20 ≤ c.toNat := by
            simp only [isUnsafe, Bool.or_eq_true, decide_eq_true_eq, not_or] at hunsafe
            omega
          rw [if_neg hsep]
          exact ⟨.char c, .char c, lexString_char hl hc⟩

theorem lexString_quote (rs : List (Option Char)) (rest : List Char) :
    ∃ items, lexString (rs.flatMap quoteRune ++ '"' :: rest) = some (items, rest) ∧
      join items = rs.map fun r => r.getD Utf8.replacement := by
  induction rs with
  | nil => exact ⟨[], lexString_end rest, rfl⟩
  | cons r rs ih =>
    obtain ⟨items, hlex, hjoin⟩ := ih
    obtain ⟨i, hplain, hrune⟩ := lexString_quoteRune r
    refine ⟨i :: items, ?_, ?_⟩
    · rw [List.flatMap_cons, List.append_assoc, hrune, hlex, Option.map_some]
    · rw [join_plain hplain, hjoin, List.map_cons]

/-- A name that stands between quotes as it is. -/
def Bare (name : List Char) : Prop := ∀ c ∈ name, letter? c = none ∧ 0x20 ≤ c.toNat

instance (name : List Char) : Decidable (Bare name) :=
  List.decidableBAll _ name

theorem lexString_bare {name : List Char} (h : Bare name) (rest : List Char) :
    lexString (name ++ '"' :: rest) = some (name.map .char, rest) := by
  induction name with
  | nil => exact lexString_end rest
  | cons c name ih =>
    obtain ⟨hletter, hc⟩ := h c List.mem_cons_self
    rw [List.cons_append, lexString_char hletter hc, ih fun d hd => h d (List.mem_cons_of_mem _ hd)]
    rfl

theorem join_char (name : List Char) : join (name.map .char) = name := by
  induction name with
  | nil => rfl
  | cons c name ih => rw [List.map_cons, join_plain (.char c), ih]

/-- What is written between the quotes of a name. -/
def Spells (text name : List Char) : Prop :=
  ∀ rest, ∃ items, lexString (text ++ '"' :: rest) = some (items, rest) ∧ join items = name

theorem spells_bare {name : List Char} (h : Bare name) : Spells name name :=
  fun rest => ⟨_, lexString_bare h rest, join_char name⟩

theorem spells_quote (s : List UInt8) : Spells ((Utf8.decode s).flatMap quoteRune) (Utf8.runes s) :=
  lexString_quote (Utf8.decode s)

/-! ### Numbers that were written -/

/-- What stands after a value. -/
inductive Closes : List Char → Prop where
  | comma (rest : List Char) : Closes (',' :: rest)
  | brace (rest : List Char) : Closes ('\x7d' :: rest)
  | bracket (rest : List Char) : Closes (']' :: rest)
  | done : Closes []

theorem digits1?_numeral {ds rest : List Char} (hds : Scan.Numeral ds) (hrest : Closes rest) :
    digits1? (ds ++ rest) = some (ds, rest) := by
  have hstop : rest.takeWhile Char.isDigit = [] ∧ rest.dropWhile Char.isDigit = rest := by
    cases hrest <;> exact ⟨rfl, rfl⟩
  have htake : (ds ++ rest).takeWhile Char.isDigit = ds := by
    rw [List.takeWhile_append_of_pos hds.2, hstop.1, List.append_nil]
  have hdrop : (ds ++ rest).dropWhile Char.isDigit = rest := by
    rw [List.dropWhile_append_of_pos hds.2, hstop.2]
  rw [digits1?, htake, hdrop, if_neg hds.1]

/-- No zero leads a positive number. -/
theorem toDigits_head (n : Nat) : 0 < n → ∃ d ds, Nat.toDigits 10 n = d :: ds ∧ d ≠ '0' := by
  induction n using Nat.strongRecOn with
  | _ n ih =>
    intro hpos
    by_cases hn : n < 10
    · rw [Nat.toDigits_of_lt_base hn]
      refine ⟨_, _, rfl, ?_⟩
      have hdigit : ∀ n < 10, 0 < n → Nat.digitChar n ≠ '0' := by decide
      exact hdigit n hn hpos
    · obtain ⟨d, ds, hd, hne⟩ := ih (n / 10) (by omega) (by omega)
      rw [Nat.toDigits_of_base_le (by omega) (by omega), hd]
      exact ⟨d, _, rfl, hne⟩

theorem lexInt_toDigits (n : Nat) {rest : List Char} (h : Closes rest) :
    lexInt (Nat.toDigits 10 n ++ rest) = some (Nat.toDigits 10 n, rest) := by
  rcases Nat.eq_zero_or_pos n with rfl | hpos
  · rfl
  · have hdigits := digits1?_numeral (Scan.numeral_toDigits n).1 h
    obtain ⟨d, ds, hd, hne⟩ := toDigits_head n hpos
    rw [hd] at hdigits ⊢
    rw [List.cons_append, lexInt]
    · exact hdigits
    · rintro rest hzero
      exact hne (List.cons.inj hzero).1

/-- The first character of a number. -/
def Opens (c : Char) : Prop := c = '-' ∨ c.isDigit = true

instance (c : Char) : Decidable (Opens c) := inferInstanceAs (Decidable (_ ∨ _))

theorem integer_head (i : Int) : ∃ c cs, integer i = c :: cs ∧ Opens c := by
  unfold integer
  split
  · exact ⟨_, _, rfl, .inl rfl⟩
  · obtain ⟨hne, hdigit⟩ := (Scan.numeral_toDigits i.natAbs).1
    obtain ⟨c, cs, hcs⟩ := List.exists_cons_of_ne_nil hne
    exact ⟨c, cs, hcs, .inr (hdigit c (hcs ▸ List.mem_cons_self))⟩

theorem lexMinus_integer (i : Int) (rest : List Char) :
    lexMinus (integer i ++ rest) =
      (if i < 0 then ['-'] else [], Nat.toDigits 10 i.natAbs ++ rest) := by
  unfold integer
  split
  · rfl
  · obtain ⟨hne, hdigit⟩ := (Scan.numeral_toDigits i.natAbs).1
    obtain ⟨c, cs, hcs⟩ := List.exists_cons_of_ne_nil hne
    have hc := hdigit c (hcs ▸ List.mem_cons_self)
    rw [hcs, List.cons_append, lexMinus]
    rintro rest hminus
    rw [(List.cons.inj hminus).1] at hc
    exact absurd hc (by decide)

theorem lexNumber_integer (i : Int) {rest : List Char} (h : Closes rest) :
    lexNumber (integer i ++ rest) = some (integer i, rest) := by
  have hfraction : lexFraction rest = some ([], rest) := by cases h <;> rfl
  have hexponent : lexExponent rest = some ([], rest) := by cases h <;> rfl
  simp only [lexNumber, lexMinus_integer, lexInt_toDigits _ h, hfraction, hexponent,
    Option.bind_eq_bind, Option.bind_some, List.append_nil]
  rw [integer]
  split <;> rfl

/-- `strconv.ParseInt` of a number into 64 bits. -/
def int64? (literal : List Char) : Option Int :=
  match lexMinus literal with
  | (minus, ds) =>
    if ds = [] ∨ ds.all Char.isDigit = false then none
    else if minus = [] then
      if Scan.value ds < 2 ^ 63 then some (Scan.value ds) else none
    else if Scan.value ds ≤ 2 ^ 63 then some (-Scan.value ds) else none

def Int64 (i : Int) : Prop := -2 ^ 63 ≤ i ∧ i < 2 ^ 63

instance (i : Int) : Decidable (Int64 i) := inferInstanceAs (Decidable (_ ∧ _))

theorem int64?_integer (i : Int) : int64? (integer i) = if Int64 i then some i else none := by
  obtain ⟨⟨hne, hdigit⟩, hvalue⟩ := Scan.numeral_toDigits i.natAbs
  have hminus := lexMinus_integer i []
  rw [List.append_nil, List.append_nil] at hminus
  have hds : ¬(Nat.toDigits 10 i.natAbs = [] ∨
      (Nat.toDigits 10 i.natAbs).all Char.isDigit = false) := by
    rw [List.all_eq_true.mpr hdigit]
    simp [hne]
  simp only [int64?, hminus, if_neg hds, hvalue]
  by_cases hi : i < 0
  · have hrange : i.natAbs ≤ 2 ^ 63 ↔ Int64 i := by unfold Int64; omega
    rw [if_pos hi, if_neg (List.cons_ne_nil _ _)]
    exact if_congr hrange (congrArg some (by omega)) rfl
  · have hrange : i.natAbs < 2 ^ 63 ↔ Int64 i := by unfold Int64; omega
    rw [if_neg hi, if_pos rfl]
    exact if_congr hrange (congrArg some (by omega)) rfl

/-! ### Values that were written -/

/-- What is written for a value is read as that value, wherever the text goes on, if
there is room for its levels. -/
def Reads (levels : Nat) (text : List Char) (v : Value) : Prop :=
  ∀ fuel depth rest, text.length ≤ fuel → levels ≤ depth → Closes rest →
    parseValue (fuel + 1) depth (text ++ rest) = some (v, rest)

theorem skip_cons {c : Char} (h : isSpace c = false) (rest : List Char) :
    skip (c :: rest) = c :: rest := by
  rw [skip, List.dropWhile_cons_of_neg (by rw [h]; decide)]

theorem skip_closes {rest : List Char} (h : Closes rest) : skip rest = rest := by
  cases h <;> rfl

theorem reads_null (levels : Nat) : Reads levels "null".toList .null := by
  intro fuel depth rest _ _ _
  rw [parseValue.eq_def]
  rfl

theorem reads_bool (levels : Nat) (b : Bool) : Reads levels (toString b).toList (.bool b) := by
  intro fuel depth rest _ _ _
  rw [parseValue.eq_def]
  cases b <;> rfl

theorem reads_quote (levels : Nat) (s : List UInt8) :
    Reads levels (quote s) (.string (Utf8.runes s)) := by
  intro fuel depth rest _ _ _
  obtain ⟨items, hlex, hjoin⟩ := spells_quote s rest
  have hquote : quote s ++ rest = '"' :: ((Utf8.decode s).flatMap quoteRune ++ '"' :: rest) := by
    simp only [quote, List.cons_append, List.append_assoc, List.nil_append]
  rw [hquote, parseValue.eq_def]
  simp only [skip_cons (c := '"') rfl, hlex, Option.map_some, hjoin]

/-- A text that is one number. -/
def IsNumber (literal : List Char) : Prop :=
  (∃ c cs, literal = c :: cs ∧ Opens c) ∧
    ∀ rest, Closes rest → lexNumber (literal ++ rest) = some (literal, rest)

theorem isNumber_integer (i : Int) : IsNumber (integer i) :=
  ⟨integer_head i, fun _ => lexNumber_integer i⟩

theorem reads_number (levels : Nat) {literal : List Char} (h : IsNumber literal) :
    Reads levels literal (.number literal) := by
  intro fuel depth rest _ _ hrest
  obtain ⟨⟨c, cs, hcs, hc⟩, hlex⟩ := h
  have hnumber := hlex rest hrest
  -- no value of another kind starts like a number
  have hne : ∀ d, ¬Opens d → c ≠ d := fun d hd heq => hd (heq ▸ hc)
  have hspace : isSpace c = false := by
    simp [isSpace, hne ' ' (by decide), hne '\t' (by decide), hne '\n' (by decide),
      hne '\r' (by decide)]
  rw [hcs] at hnumber
  rw [hcs, List.cons_append, parseValue.eq_def]
  simp only [skip_cons hspace]
  split
  case h_7 => exact congrArg (Option.map _) hnumber
  all_goals
    next heq => exact absurd (List.cons.inj heq).1 (hne _ (by decide))

/-! ### Fields of a struct -/

/-- A field of a struct `σ`: its tag, what is written for it, if anything can be, the value
that is read from what was written, and how a value that is read is stored. -/
structure Member (σ : Type) where
  name : List Char
  write : σ → Option (List Char)
  value : σ → Value
  store : σ → Value → Option σ
  bare : Bare name
  reads : ∀ s text, write s = some text → Reads 0 text (value s)

namespace Member

variable {σ α : Type}

/-- A string; `null` leaves it as it is. -/
def string (name : List Char) (bare : Bare name) (get : σ → List UInt8)
    (set : σ → List UInt8 → σ) : Member σ where
  name := name
  write s := some (quote (get s))
  value s := .string (Utf8.runes (get s))
  store s
    | .string cs => some (set s (Utf8.encode cs))
    | .null => some s
    | _ => none
  bare := bare
  reads s text h := by
    rw [← Option.some.inj h]
    exact reads_quote 0 (get s)

/-- A value whose type writes it as a string of its own. -/
def text (name : List Char) (bare : Bare name) (write : α → Option (List Char))
    (read : List Char → Option α) (get : σ → α) (set : σ → α → σ) : Member σ where
  name := name
  write s := (write (get s)).map fun cs => quote (Utf8.encode cs)
  value s := .string ((write (get s)).getD [])
  store s
    | .string cs => (read cs).map (set s)
    | .null => some s
    | _ => none
  bare := bare
  reads s text h := by
    obtain ⟨cs, hcs, rfl⟩ := Option.map_eq_some_iff.mp h
    have hreads := reads_quote 0 (Utf8.encode cs)
    rw [Utf8.runes_encode] at hreads
    rw [hcs]
    exact hreads

end Member

/-! ### Objects that were written -/

/-- Names with what is written for their values, and what is read. -/
def Written (levels : Nat) (fields : List (List Char × List Char))
    (members : List (List Char × Value)) : Prop :=
  List.Forall₂ (fun f m => Spells f.1 m.1 ∧ Reads levels f.2 m.2) fields members

section

variable {levels : Nat} {name text spelled : List Char} {v : Value}
  (hname : Spells name spelled) (htext : Reads levels text v) {fuel depth : Nat}
  (hfuel : text.length ≤ fuel) (hdepth : levels ≤ depth) (rest : List Char)
include hname htext hfuel hdepth

theorem parseMembers_next :
    parseMembers (fuel + 2) depth ('"' :: (name ++ '"' :: ':' :: (text ++ ',' :: rest))) =
      (parseMembers (fuel + 1) depth rest).map fun p => ((spelled, v) :: p.1, p.2) := by
  obtain ⟨items, hlex, hjoin⟩ := hname (':' :: (text ++ ',' :: rest))
  rw [parseMembers.eq_def]
  simp only [skip_cons (c := '"') rfl, skip_cons (c := ':') rfl, hlex, hjoin,
    Option.bind_eq_bind, Option.bind_some, htext fuel depth _ hfuel hdepth (.comma rest),
    skip_closes (.comma rest)]

theorem parseMembers_last :
    parseMembers (fuel + 2) depth ('"' :: (name ++ '"' :: ':' :: (text ++ '\x7d' :: rest))) =
      some ([(spelled, v)], rest) := by
  obtain ⟨items, hlex, hjoin⟩ := hname (':' :: (text ++ '\x7d' :: rest))
  rw [parseMembers.eq_def]
  simp only [skip_cons (c := '"') rfl, skip_cons (c := ':') rfl, hlex, hjoin,
    Option.bind_eq_bind, Option.bind_some, htext fuel depth _ hfuel hdepth (.brace rest),
    skip_closes (.brace rest)]

end

/-- The members are read one by one; a text has more characters than members. -/
theorem parseMembers_printed {levels : Nat} {fields : List (List Char × List Char)}
    {members : List (List Char × Value)} (h : Written levels fields members) :
    ∀ {name text spelled : List Char} {v : Value} {fuel depth : Nat}, Spells name spelled →
      Reads levels text v → text.length + (printMembers fields).length ≤ fuel + 1 →
      levels ≤ depth → ∀ rest,
      parseMembers (fuel + 2) depth
        ('"' :: (name ++ '"' :: ':' :: (text ++ (printMembers fields ++ rest)))) =
          some ((spelled, v) :: members, rest) := by
  induction h with
  | nil =>
    intro name text spelled v fuel depth hname htext hfuel hdepth rest
    have hshort : text.length ≤ fuel := by
      simp only [printMembers, List.length_cons, List.length_nil] at hfuel
      omega
    exact parseMembers_last hname htext hshort hdepth rest
  | @cons f m fields members hf hrest ih =>
    obtain ⟨hspells, hreads⟩ := hf
    intro name text spelled v fuel depth hname htext hfuel hdepth rest
    simp only [printMembers, List.length_cons, List.length_append] at hfuel
    obtain ⟨fuel, rfl⟩ : ∃ k, fuel = k + 1 := ⟨fuel - 1, by omega⟩
    have htail := @ih _ _ _ _ fuel _ hspells hreads (by omega) hdepth rest
    have hnext := parseMembers_next hname htext (by omega : text.length ≤ fuel + 1) hdepth
      ('"' :: (f.1 ++ '"' :: ':' :: (f.2 ++ (printMembers fields ++ rest))))
    simp only [printMembers, List.cons_append, List.append_assoc]
    rw [hnext, htail, Option.map_some]

theorem parseValue_members {fuel depth : Nat} {input rest : List Char}
    {members : List (List Char × Value)}
    (h : parseMembers fuel depth ('"' :: input) = some (members, rest)) :
    parseValue (fuel + 1) (depth + 1) ('\x7b' :: '"' :: input) = some (.object members, rest) := by
  rw [parseValue.eq_def]
  simp only [skip_cons (c := '\x7b') rfl, skip_cons (c := '"') rfl]
  exact congrArg (Option.map _) h

theorem reads_object {levels : Nat} {fields : List (List Char × List Char)}
    {members : List (List Char × Value)} (h : Written levels fields members) :
    Reads (levels + 1) (printObject fields) (.object members) := by
  intro fuel depth rest hfuel hdepth hrest
  obtain ⟨depth, rfl⟩ : ∃ k, depth = k + 1 := ⟨depth - 1, by omega⟩
  cases h with
  | nil =>
    rw [parseValue.eq_def]
    rfl
  | @cons f m fields members hf hrest =>
    obtain ⟨hspells, hreads⟩ := hf
    simp only [printObject, List.length_cons, List.length_append] at hfuel
    obtain ⟨fuel, rfl⟩ : ∃ k, fuel = k + 2 := ⟨fuel - 2, by omega⟩
    have hmembers := @parseMembers_printed _ _ _ hrest _ _ _ _ fuel _ hspells hreads (by omega)
      (Nat.le_of_succ_le_succ hdepth) rest
    simp only [printObject, List.cons_append, List.append_assoc]
    exact parseValue_members hmembers

/-! ### Arrays that were written -/

theorem closes_printItems (texts : List (List Char)) (rest : List Char) :
    Closes (printItems texts ++ rest) := by
  cases texts with
  | nil => exact .bracket rest
  | cons t texts => exact .comma _

theorem length_printItems (texts : List (List Char)) : 0 < (printItems texts).length := by
  cases texts with
  | nil => decide
  | cons t texts => exact Nat.succ_pos _

theorem skip_skip (input : List Char) : skip (skip input) = skip input :=
  List.dropWhile_idempotent isSpace input

theorem parseValue_skip (fuel depth : Nat) (input : List Char) :
    parseValue fuel depth (skip input) = parseValue fuel depth input := by
  cases fuel with
  | zero => rw [parseValue.eq_def, parseValue.eq_def]
  | succ fuel =>
    rw [parseValue.eq_def, parseValue.eq_def (fuel + 1) depth input]
    simp only [skip_skip]

theorem parseItems_skip (fuel depth : Nat) (input : List Char) :
    parseItems fuel depth (skip input) = parseItems fuel depth input := by
  cases fuel with
  | zero => rw [parseItems.eq_def, parseItems.eq_def]
  | succ fuel =>
    rw [parseItems.eq_def, parseItems.eq_def (fuel + 1) depth input]
    simp only [parseValue_skip]

/-- No value starts with a closing bracket. -/
theorem not_bracket {fuel depth : Nat} {input rest : List Char} {p : Value × List Char}
    (h : parseValue fuel depth input = some p) : skip input ≠ ']' :: rest := by
  intro hskip
  cases fuel with
  | zero => rw [parseValue.eq_def] at h; cases h
  | succ fuel =>
    rw [parseValue.eq_def] at h
    simp only [hskip] at h
    cases h

section

variable {levels : Nat} {text : List Char} {v : Value} (htext : Reads levels text v)
  {fuel depth : Nat} (hfuel : text.length ≤ fuel) (hdepth : levels ≤ depth) (rest : List Char)
include htext hfuel hdepth

theorem parseItems_next :
    parseItems (fuel + 2) depth (text ++ ',' :: rest) =
      (parseItems (fuel + 1) depth rest).map fun p => (v :: p.1, p.2) := by
  rw [parseItems.eq_def]
  simp only [htext fuel depth _ hfuel hdepth (.comma rest), skip_closes (.comma rest),
    Option.bind_eq_bind, Option.bind_some]

theorem parseItems_last :
    parseItems (fuel + 2) depth (text ++ ']' :: rest) = some ([v], rest) := by
  rw [parseItems.eq_def]
  simp only [htext fuel depth _ hfuel hdepth (.bracket rest), skip_closes (.bracket rest),
    Option.bind_eq_bind, Option.bind_some]

end

theorem parseItems_printed {levels : Nat} {texts : List (List Char)} {items : List Value}
    (h : List.Forall₂ (Reads levels) texts items) :
    ∀ {text : List Char} {v : Value} {fuel depth : Nat}, Reads levels text v →
      text.length + (printItems texts).length ≤ fuel + 1 → levels ≤ depth → ∀ rest,
      parseItems (fuel + 2) depth (text ++ (printItems texts ++ rest)) =
        some (v :: items, rest) := by
  induction h with
  | nil =>
    intro text v fuel depth htext hfuel hdepth rest
    have hshort : text.length ≤ fuel := by
      simp only [printItems, List.length_cons, List.length_nil] at hfuel
      omega
    exact parseItems_last htext hshort hdepth rest
  | @cons t i texts items hi hrest ih =>
    intro text v fuel depth htext hfuel hdepth rest
    simp only [printItems, List.length_cons, List.length_append] at hfuel
    have hlong := length_printItems texts
    obtain ⟨fuel, rfl⟩ : ∃ k, fuel = k + 1 := ⟨fuel - 1, by omega⟩
    have htail := @ih _ _ fuel _ hi (by omega) hdepth rest
    have hnext := parseItems_next htext (by omega : text.length ≤ fuel + 1) hdepth
      (t ++ (printItems texts ++ rest))
    simp only [printItems, List.cons_append, List.append_assoc]
    rw [hnext, htail, Option.map_some]

theorem parseValue_items {fuel depth : Nat} {input rest : List Char} {items : List Value}
    (h : parseItems fuel depth input = some (items, rest))
    (hopen : ∀ rest, skip input ≠ ']' :: rest) :
    parseValue (fuel + 1) (depth + 1) ('[' :: input) = some (.array items, rest) := by
  rw [← parseItems_skip] at h
  rw [parseValue.eq_def]
  simp only [skip_cons (c := '[') rfl]
  exact congrArg (Option.map _) h

theorem reads_array {levels : Nat} {texts : List (List Char)} {items : List Value}
    (h : List.Forall₂ (Reads levels) texts items) :
    Reads (levels + 1) (printArray texts) (.array items) := by
  intro fuel depth rest hfuel hdepth hrest
  obtain ⟨depth, rfl⟩ : ∃ k, depth = k + 1 := ⟨depth - 1, by omega⟩
  cases h with
  | nil =>
    rw [parseValue.eq_def]
    rfl
  | @cons t i texts items hi hrest =>
    simp only [printArray, List.length_cons, List.length_append] at hfuel
    have hlong := length_printItems texts
    obtain ⟨fuel, rfl⟩ : ∃ k, fuel = k + 2 := ⟨fuel - 2, by omega⟩
    have hitems := @parseItems_printed _ _ _ hrest _ _ fuel _ hi (by omega)
      (Nat.le_of_succ_le_succ hdepth) rest
    have hvalue := hi (fuel + 1) depth (printItems texts ++ rest) (by omega)
      (Nat.le_of_succ_le_succ hdepth) (closes_printItems texts rest)
    simp only [printArray, List.cons_append, List.append_assoc]
    exact parseValue_items hitems fun _ => not_bracket hvalue

theorem parse_of_reads {text : List Char} {v : Value} (h : Reads maxDepth text v) :
    parse (Utf8.encode text) = some v := by
  have hvalue := h text.length maxDepth [] (Nat.le_refl _) (Nat.le_refl _) .done
  rw [List.append_nil] at hvalue
  rw [parse, Utf8.runes_encode, parseText, hvalue]
  rfl

theorem parse_printObject {levels : Nat} {fields : List (List Char × List Char)}
    {members : List (List Char × Value)} (h : Written levels fields members)
    (hlevels : levels < maxDepth) :
    parse (Utf8.encode (printObject fields)) = some (.object members) :=
  parse_of_reads fun fuel depth rest hfuel hdepth hrest =>
    reads_object h fuel depth rest hfuel (Nat.le_trans hlevels hdepth) hrest

/-! ### Structs -/

section Structs

variable {σ : Type} {fields : List (Member σ)} {s : σ}

/-- The fields with what is written for them; one that cannot be written fails the struct. -/
def writeFields (fields : List (Member σ)) (s : σ) : Option (List (List Char × List Char)) :=
  fields.mapM fun f => (f.write s).map fun v => (f.name, v)

/-- The text of a struct with the given fields. -/
def marshal (fields : List (Member σ)) (s : σ) : Option (List UInt8) :=
  (writeFields fields s).map fun written => Utf8.encode (printObject written)

/-- The least character that is the same but for its case, as far as a tag could be
meant: the two letters outside of ASCII are the long s and the Kelvin sign. -/
def foldRune (c : Char) : Char :=
  if c.isLower then c.toUpper
  else if c.toNat = 0x17F then 'S'
  else if c.toNat = 0x212A then 'K'
  else c

def foldName (name : List Char) : List Char := name.map foldRune

def member? (fields : List (Member σ)) (name : List Char) : Option (Member σ) :=
  fields.find? fun f => foldName f.name == foldName name

/-- Members that name no field are passed over. -/
def storeMember (fields : List (Member σ)) (s : σ) (m : List Char × Value) : Option σ :=
  match member? fields m.1 with
  | some f => f.store s m.2
  | none => some s

/-- `zero` is the struct that is filled. -/
def unmarshal (fields : List (Member σ)) (zero : σ) (text : List UInt8) : Option σ :=
  match parse text with
  | some .null => some zero
  | some (.object members) => members.foldlM (storeMember fields) zero
  | _ => none

theorem written_writeFields {written : List (List Char × List Char)}
    (h : writeFields fields s = some written) :
    Written 0 written (fields.map fun f => (f.name, f.value s)) := by
  induction fields generalizing written with
  | nil =>
    cases h
    exact .nil
  | cons f fields ih =>
    simp only [writeFields, List.mapM_cons, Option.bind_eq_bind, Option.bind_eq_some_iff,
      Option.map_eq_some_iff, Option.pure_def, Option.some.injEq] at h
    obtain ⟨_, ⟨v, hv, rfl⟩, rest, hrest, rfl⟩ := h
    exact .cons ⟨spells_bare f.bare, f.reads s v hv⟩ (ih hrest)

theorem parse_marshal {text : List UInt8} (h : marshal fields s = some text) :
    parse text = some (.object (fields.map fun f => (f.name, f.value s))) := by
  obtain ⟨written, hwritten, rfl⟩ := Option.map_eq_some_iff.mp h
  exact parse_printObject (written_writeFields hwritten) (by decide)

/-- A tag finds its field if no other tag is the same but for case. -/
theorem member?_name (hnames : fields.Pairwise fun f g => foldName f.name ≠ foldName g.name)
    {f : Member σ} (hf : f ∈ fields) : member? fields f.name = some f := by
  induction fields with
  | nil => cases hf
  | cons g fields ih =>
    obtain ⟨hother, hrest⟩ := List.pairwise_cons.mp hnames
    rcases List.mem_cons.mp hf with rfl | hmem
    · simp [member?]
    · have hne : (foldName g.name == foldName f.name) = false := by
        simpa using hother f hmem
      rw [member?, List.find?_cons, hne]
      exact ih hrest hmem

theorem foldlM_storeMember (hnames : fields.Pairwise fun f g => foldName f.name ≠ foldName g.name)
    {fs : List (Member σ)} (hfs : ∀ f ∈ fs, f ∈ fields) (zero : σ) :
    (fs.map fun f => (f.name, f.value s)).foldlM (storeMember fields) zero =
      fs.foldlM (fun z f => f.store z (f.value s)) zero := by
  induction fs generalizing zero with
  | nil => rfl
  | cons f fs ih =>
    have hfound := member?_name hnames (hfs f List.mem_cons_self)
    have hstore : storeMember fields zero (f.name, f.value s) = f.store zero (f.value s) := by
      simp only [storeMember, hfound]
    simp only [List.map_cons, List.foldlM_cons, hstore,
      ih fun g hg => hfs g (List.mem_cons_of_mem _ hg)]

/-- What is read from the text of a struct is what each field makes of its own value. -/
theorem unmarshal_marshal
    (hnames : fields.Pairwise fun f g => foldName f.name ≠ foldName g.name) (zero : σ)
    {text : List UInt8} (h : marshal fields s = some text) :
    unmarshal fields zero text = fields.foldlM (fun z f => f.store z (f.value s)) zero := by
  simp only [unmarshal, parse_marshal h]
  exact foldlM_storeMember hnames (fun _ hf => hf) zero

end Structs

end Json
