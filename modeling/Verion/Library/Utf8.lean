import Mathlib.Data.List.Basic
import Mathlib.Tactic.Basic

/-!
# UTF-8

A text is decoded character by character; a byte that starts no character is read
alone, and most readers take the replacement character for it.
-/

namespace Utf8

/-! ### Characters -/

/-- A byte after the first of a character, of which it has six bits. -/
def tail (n : Nat) : UInt8 := UInt8.ofNat (0x80 + n % 64)

def encodeRune (c : Char) : List UInt8 :=
  if c.toNat < 0x80 then [UInt8.ofNat c.toNat]
  else if c.toNat < 0x800 then [UInt8.ofNat (0xC0 + c.toNat / 64), tail c.toNat]
  else if c.toNat < 0x10000 then
    [UInt8.ofNat (0xE0 + c.toNat / 4096), tail (c.toNat / 64), tail c.toNat]
  else
    [UInt8.ofNat (0xF0 + c.toNat / 262144), tail (c.toNat / 4096), tail (c.toNat / 64),
      tail c.toNat]

def tail? (b : UInt8) : Option Nat :=
  if 0x80 ≤ b.toNat ∧ b.toNat < 0xC0 then some (b.toNat - 0x80) else none

/-- A character that is not written longer than it needs, and no surrogate. -/
def rune? (least n : Nat) : Option Char :=
  if least ≤ n ∧ n.isValidChar then some (Char.ofNat n) else none

/-- The first character, and of how many bytes it is. -/
def decodeRune? : List UInt8 → Option (Char × Nat)
  | [] => none
  | a :: rest =>
    if a.toNat < 0x80 then some (Char.ofNat a.toNat, 1)
    else if a.toNat < 0xC0 then none
    else if a.toNat < 0xE0 then
      match rest with
      | b :: _ => do
        let y ← tail? b
        let c ← rune? 0x80 ((a.toNat - 0xC0) * 64 + y)
        some (c, 2)
      | _ => none
    else if a.toNat < 0xF0 then
      match rest with
      | b :: c :: _ => do
        let y ← tail? b
        let z ← tail? c
        let c ← rune? 0x800 ((a.toNat - 0xE0) * 4096 + y * 64 + z)
        some (c, 3)
      | _ => none
    else if a.toNat < 0xF8 then
      match rest with
      | b :: c :: d :: _ => do
        let y ← tail? b
        let z ← tail? c
        let u ← tail? d
        let c ← rune? 0x10000 ((a.toNat - 0xF0) * 262144 + y * 4096 + z * 64 + u)
        some (c, 4)
      | _ => none
    else none

theorem tail?_tail (n : Nat) : tail? (tail n) = some (n % 64) := by
  have hbyte : (tail n).toNat = 0x80 + n % 64 := by
    rw [tail, UInt8.toNat_ofNat']
    omega
  rw [tail?, hbyte, if_pos (by omega), Nat.add_sub_cancel_left]

theorem rune?_toNat {c : Char} {least n : Nat} (hn : n = c.toNat) (h : least ≤ n) :
    rune? least n = some c := by
  subst hn
  rw [rune?, if_pos ⟨h, c.valid⟩, Char.ofNat_toNat]

theorem toNat_lt (c : Char) : c.toNat < 0x110000 := by
  rcases c.valid with h | h
  · exact Nat.lt_trans h (by decide)
  · exact h.2

theorem decodeRune?_encodeRune (c : Char) (rest : List UInt8) :
    decodeRune? (encodeRune c ++ rest) = some (c, (encodeRune c).length) := by
  have hvalid := toNat_lt c
  have hfirst : ∀ n, n < 256 → (UInt8.ofNat n).toNat = n := fun n h => by
    rw [UInt8.toNat_ofNat']
    omega
  unfold encodeRune
  -- one case for each number of bytes; the bytes are bound one by one, since the kernel
  -- counts up the bounds when it has to compare the whole chain
  split
  case isTrue h1 =>
    simp only [List.cons_append, decodeRune?, hfirst _ (show c.toNat < 256 by omega), h1, if_true,
      Char.ofNat_toNat, List.length_singleton]
  case isFalse h1 =>
    split
    case isTrue h2 =>
      have ha := hfirst (0xC0 + c.toNat / 64) (by omega)
      simp only [List.cons_append, List.nil_append, decodeRune?, ha, tail?_tail,
        Option.bind_eq_bind]
      rw [if_neg (by omega), if_neg (by omega), if_pos (by omega)]
      rw [Option.bind_some, rune?_toNat (c := c) (by omega) (by omega)]
      rfl
    case isFalse h2 =>
      split
      case isTrue h3 =>
        have ha := hfirst (0xE0 + c.toNat / 4096) (by omega)
        simp only [List.cons_append, List.nil_append, decodeRune?, ha, tail?_tail,
          Option.bind_eq_bind]
        rw [if_neg (by omega), if_neg (by omega), if_neg (by omega), if_pos (by omega)]
        rw [Option.bind_some, Option.bind_some, rune?_toNat (c := c) (by omega) (by omega)]
        rfl
      case isFalse h3 =>
        have ha := hfirst (0xF0 + c.toNat / 262144) (by omega)
        simp only [List.cons_append, List.nil_append, decodeRune?, ha, tail?_tail,
          Option.bind_eq_bind]
        rw [if_neg (by omega), if_neg (by omega), if_neg (by omega), if_neg (by omega),
          if_pos (by omega)]
        rw [Option.bind_some, Option.bind_some, Option.bind_some,
          rune?_toNat (c := c) (by omega) (by omega)]
        rfl

/-! ### Texts -/

def encode (cs : List Char) : List UInt8 := cs.flatMap encodeRune

/-- The characters after so many bytes; `none` is a byte that starts none. -/
def decodeFrom : Nat → List UInt8 → List (Option Char)
  | _, [] => []
  | skip + 1, _ :: rest => decodeFrom skip rest
  | 0, a :: rest =>
    match decodeRune? (a :: rest) with
    | some (c, n) => some c :: decodeFrom (n - 1) rest
    | none => none :: decodeFrom 0 rest

def decode (bs : List UInt8) : List (Option Char) := decodeFrom 0 bs

def replacement : Char := Char.ofNat 0xFFFD

/-- The characters of a text, with the replacement character for what is none. -/
def runes (bs : List UInt8) : List Char := (decode bs).map fun c => c.getD replacement

@[simp] theorem encode_append (cs ds : List Char) : encode (cs ++ ds) = encode cs ++ encode ds :=
  List.flatMap_append

/-- An ASCII byte stands in no longer character. -/
theorem mem_encodeRune {b : UInt8} {c : Char} (hb : b.toNat < 0x80) (h : b ∈ encodeRune c) :
    c = Char.ofNat b.toNat := by
  have hvalid := toNat_lt c
  have hbyte : ∀ n, 0x80 ≤ n → n < 256 → b ≠ UInt8.ofNat n := by
    rintro n hlow hhigh rfl
    rw [UInt8.toNat_ofNat'] at hb
    omega
  have htail : ∀ n, b ≠ tail n := fun n => hbyte _ (by omega) (by omega)
  unfold encodeRune at h
  split at h
  case isTrue h1 =>
    obtain rfl := List.mem_singleton.mp h
    rw [UInt8.toNat_ofNat', Nat.mod_eq_of_lt (by omega), Char.ofNat_toNat]
  case isFalse h1 =>
    exfalso
    split at h
    case isTrue h2 =>
      simp only [List.mem_cons, List.not_mem_nil, or_false] at h
      exact h.elim (hbyte _ (by omega) (by omega)) (htail _)
    case isFalse h2 =>
      split at h
      case isTrue h3 =>
        simp only [List.mem_cons, List.not_mem_nil, or_false] at h
        exact h.elim (hbyte _ (by omega) (by omega)) (Or.rec (htail _) (htail _))
      case isFalse h3 =>
        simp only [List.mem_cons, List.not_mem_nil, or_false] at h
        exact h.elim (hbyte _ (by omega) (by omega)) (Or.rec (htail _) (Or.rec (htail _) (htail _)))

theorem mem_encode {b : UInt8} {cs : List Char} (hb : b.toNat < 0x80) (h : b ∈ encode cs) :
    Char.ofNat b.toNat ∈ cs := by
  obtain ⟨c, hc, hmem⟩ := List.mem_flatMap.mp h
  rwa [← mem_encodeRune hb hmem]

theorem decodeFrom_append (bs rest : List UInt8) :
    decodeFrom bs.length (bs ++ rest) = decode rest := by
  induction bs with
  | nil => rfl
  | cons b bs ih => exact ih

theorem encodeRune_ne_nil (c : Char) : encodeRune c ≠ [] := by
  unfold encodeRune
  split
  · exact List.cons_ne_nil _ _
  · split
    · exact List.cons_ne_nil _ _
    · split <;> exact List.cons_ne_nil _ _

theorem decode_encodeRune (c : Char) (rest : List UInt8) :
    decode (encodeRune c ++ rest) = some c :: decode rest := by
  have hrune := decodeRune?_encodeRune c rest
  cases hbytes : encodeRune c with
  | nil => exact absurd hbytes (encodeRune_ne_nil c)
  | cons a bs =>
    rw [hbytes] at hrune
    simp only [decode, List.cons_append, decodeFrom, List.cons_append ▸ hrune, List.length_cons,
      Nat.add_sub_cancel]
    rw [decodeFrom_append]
    rfl

theorem decode_encode_append (cs : List Char) (rest : List UInt8) :
    decode (encode cs ++ rest) = cs.map some ++ decode rest := by
  induction cs with
  | nil => rfl
  | cons c cs ih =>
    simp only [encode, List.flatMap_cons, List.append_assoc, decode_encodeRune, List.map_cons,
      List.cons_append]
    exact congrArg _ ih

theorem decode_encode (cs : List Char) : decode (encode cs) = cs.map some := by
  have h := decode_encode_append cs []
  rwa [List.append_nil, show decode [] = [] from rfl, List.append_nil] at h

theorem runes_encode (cs : List Char) : runes (encode cs) = cs := by
  simp [runes, decode_encode, Function.comp_def]

/-- A text of ASCII bytes is the text of its characters. -/
theorem encode_ascii {bs : List UInt8} (h : ∀ b ∈ bs, b.toNat < 0x80) :
    encode (bs.map fun b => Char.ofNat b.toNat) = bs := by
  induction bs with
  | nil => rfl
  | cons b bs ih =>
    have hb := h b List.mem_cons_self
    have hchar : (Char.ofNat b.toNat).toNat = b.toNat := by
      rw [Char.ofNat, dif_pos (by simp only [Nat.isValidChar]; omega)]
      rfl
    have hrune : encodeRune (Char.ofNat b.toNat) = [b] := by
      rw [encodeRune, hchar, if_pos hb, UInt8.ofNat_toNat]
    rw [List.map_cons, encode, List.flatMap_cons, hrune]
    exact congrArg (b :: ·) (ih fun b' hb' => h b' (List.mem_cons_of_mem _ hb'))

theorem encode_runes_ascii {bs : List UInt8} (h : ∀ b ∈ bs, b.toNat < 0x80) :
    encode (runes bs) = bs := by
  obtain ⟨cs, rfl⟩ : ∃ cs, encode cs = bs := ⟨_, encode_ascii h⟩
  rw [runes_encode]

end Utf8
