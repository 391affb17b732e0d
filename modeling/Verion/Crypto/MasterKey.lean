import Verion.Identity.Model
import Mathlib.Data.List.GetD

/-!
# The master key (cmd/verion/main.go)

The key comes as a text of hexadecimal digits and is decoded by hand, two digits at
a time, with `-1` for a byte that is no digit. A Go string is any sequence of bytes,
`int` has 64 bits, and `none` is an index out of range.
-/

namespace Verion.Crypto

inductive HexKeyError where
  | length (got : Nat)        -- must be 64 hex characters (32 bytes), got %d
  | character (position : Nat) -- invalid hex character at position %d
deriving DecidableEq

def hexNibble (c : UInt8) : Int64 :=
  if 0x30 ≤ c ∧ c ≤ 0x39 then Int64.ofNat (c - 0x30).toNat
  else if 0x61 ≤ c ∧ c ≤ 0x66 then Int64.ofNat (c - 0x61).toNat + 10
  else if 0x41 ≤ c ∧ c ≤ 0x46 then Int64.ofNat (c - 0x41).toNat + 10
  else -1

/-- `byte(hi<<4 | lo)`. -/
def joinNibbles (hi lo : Int64) : UInt8 := (hi <<< 4 ||| lo).toUInt64.toUInt8

/-- `b[i] = v`. -/
def assign? (b : Bytes) (i : Nat) (v : UInt8) : Option Bytes :=
  if i < b.length then some (b.set i v) else none

/-- The rounds of the loop from `i` on, as many as the first number says. -/
def decodeLoop (hex : Bytes) : Nat → Nat → Bytes → Option (Except HexKeyError Bytes)
  | 0, _, b => some (.ok b)
  | n + 1, i, b => do
    let hi := hexNibble (← hex[i * 2]?)
    let lo := hexNibble (← hex[i * 2 + 1]?)
    if hi < 0 ∨ lo < 0 then some (.error (.character (i * 2)))
    else decodeLoop hex n (i + 1) (← assign? b i (joinNibbles hi lo))

def decodeHexKey (hex : Bytes) : Option (Except HexKeyError Bytes) :=
  if hex.length ≠ 64 then some (.error (.length hex.length))
  else decodeLoop hex 32 0 (List.replicate 32 0)

/-! ### Digits -/

def lower (c : UInt8) : UInt8 := if 0x41 ≤ c ∧ c ≤ 0x5A then c + 0x20 else c

/-- A digit, in either case. -/
def IsHexDigit (c : UInt8) : Prop :=
  (0x30 ≤ c ∧ c ≤ 0x39) ∨ (0x61 ≤ c ∧ c ≤ 0x66) ∨ (0x41 ≤ c ∧ c ≤ 0x46)

instance (c : UInt8) : Decidable (IsHexDigit c) := inferInstanceAs (Decidable (_ ∨ _))

def digit (n : Nat) : UInt8 := if n < 10 then UInt8.ofNat (0x30 + n) else UInt8.ofNat (0x57 + n)

/-- The hexadecimal encoding, in lower case. -/
def hexEncode (b : Bytes) : Bytes := b.flatMap fun v => [digit (v.toNat / 16), digit (v.toNat % 16)]

theorem forall_byte {p : UInt8 → Prop} (h : ∀ n < 256, p (UInt8.ofNat n)) (c : UInt8) : p c := by
  have hc := h c.toNat c.toNat_lt
  rwa [UInt8.ofNat_toNat] at hc

/-- What the sentinel says of a byte. -/
theorem hexNibble_spec (c : UInt8) :
    (IsHexDigit c → ∃ n < 16, hexNibble c = Int64.ofNat n ∧ lower c = digit n) ∧
      (¬IsHexDigit c → hexNibble c < 0 ∧ ∀ n < 16, lower c ≠ digit n) := by
  revert c
  refine forall_byte ?_
  decide +kernel

theorem joinNibbles_spec {h l : Nat} (hh : h < 16) (hl : l < 16) :
    ¬Int64.ofNat h < 0 ∧ (joinNibbles (Int64.ofNat h) (Int64.ofNat l)).toNat = 16 * h + l := by
  revert l
  revert h
  decide +kernel

theorem digit_inj {m n : Nat} (hm : m < 16) (hn : n < 16) (h : digit m = digit n) : m = n := by
  revert n
  revert m
  decide +kernel

theorem hexEncode_cons (v : UInt8) (b : Bytes) :
    hexEncode (v :: b) = digit (v.toNat / 16) :: digit (v.toNat % 16) :: hexEncode b := rfl

theorem length_hexEncode (b : Bytes) : (hexEncode b).length = 2 * b.length := by
  induction b with
  | nil => rfl
  | cons v b ih =>
    simp only [hexEncode_cons, List.length_cons, ih]
    omega

theorem hexEncode_inj : ∀ {a b : Bytes}, hexEncode a = hexEncode b → a = b := by
  intro a
  induction a with
  | nil =>
    intro b h
    cases b with
    | nil => rfl
    | cons v b => cases h
  | cons u a ih =>
    intro b h
    cases b with
    | nil => cases h
    | cons v b =>
      rw [hexEncode_cons, hexEncode_cons] at h
      obtain ⟨hhigh, h⟩ := List.cons.inj h
      obtain ⟨hlow, hrest⟩ := List.cons.inj h
      have hu := u.toNat_lt
      have hv := v.toNat_lt
      have hdiv := digit_inj (by omega) (by omega) hhigh
      have hmod := digit_inj (by omega) (by omega) hlow
      have huv : u = v := UInt8.toNat_inj.mp (by omega)
      rw [huv, ih hrest]

/-- Only digits are digits in lower case. -/
theorem isHexDigit_of_mem {s b : Bytes} (h : hexEncode b = s.map lower) :
    ∀ c ∈ s, IsHexDigit c := by
  intro c hc
  have hmem : lower c ∈ hexEncode b := h ▸ List.mem_map_of_mem hc
  obtain ⟨v, -, hv⟩ := List.mem_flatMap.mp hmem
  have hlt := v.toNat_lt
  refine Decidable.byContradiction fun hdigit => ?_
  have hne := ((hexNibble_spec c).2 hdigit).2
  simp only [List.mem_cons, List.not_mem_nil, or_false] at hv
  rcases hv with hv | hv
  · exact hne _ (by omega) hv
  · exact hne _ (by omega) hv

/-! ### The loop -/

/-- Two digits are one byte. -/
theorem hexEncode_pair {a c : UInt8} (ha : IsHexDigit a) (hc : IsHexDigit c) :
    ¬(hexNibble a < 0 ∨ hexNibble c < 0) ∧ ∀ b,
      hexEncode (joinNibbles (hexNibble a) (hexNibble c) :: b) = lower a :: lower c ::
        hexEncode b := by
  obtain ⟨h, hh, heq, hlow⟩ := (hexNibble_spec a).1 ha
  obtain ⟨l, hl, heq', hlow'⟩ := (hexNibble_spec c).1 hc
  obtain ⟨hpos, hjoin⟩ := joinNibbles_spec hh hl
  obtain ⟨hpos', -⟩ := joinNibbles_spec hl hl
  rw [heq, heq', hlow, hlow']
  refine ⟨fun hneg => hneg.elim hpos hpos', fun b => ?_⟩
  rw [hexEncode_cons, hjoin, show (16 * h + l) / 16 = h by omega,
    show (16 * h + l) % 16 = l by omega]

/-- A round writes the byte of its two digits behind those that are done, or stops. -/
theorem decodeLoop_round {hex done : Bytes} {i n : Nat} {a c : UInt8} (ha : hex[i * 2]? = some a)
    (hc : hex[i * 2 + 1]? = some c) (hdone : done.length = i) :
    decodeLoop hex (n + 1) i (done ++ List.replicate (n + 1) 0) =
      if hexNibble a < 0 ∨ hexNibble c < 0 then some (.error (.character (i * 2)))
      else decodeLoop hex n (i + 1)
        (done ++ [joinNibbles (hexNibble a) (hexNibble c)] ++ List.replicate n 0) := by
  have hset : ∀ v, assign? (done ++ List.replicate (n + 1) 0) i v =
      some (done ++ [v] ++ List.replicate n 0) := by
    intro v
    rw [assign?, if_pos (by simp [hdone]), List.set_append_right _ _ (by omega)]
    simp [hdone, List.replicate_succ]
  rw [decodeLoop, ha, hc]
  simp only [hset, Option.bind_eq_bind, Option.bind_some]

theorem decodeLoop_spec (hex : Bytes) (n : Nat) : ∀ (i : Nat) (done : Bytes),
    hex.length = 2 * (i + n) → done.length = i →
    let left := hex.drop (2 * i)
    let result := decodeLoop hex n i (done ++ List.replicate n 0)
    ((∀ c ∈ left, IsHexDigit c) →
      ∃ bs, result = some (.ok (done ++ bs)) ∧ hexEncode bs = left.map lower) ∧
    (¬(∀ c ∈ left, IsHexDigit c) → ∃ position, result = some (.error (.character position))) := by
  induction n with
  | zero =>
    intro i done hlen hdone left result
    have hleft : left = [] := List.drop_eq_nil_of_le (by omega)
    rw [hleft]
    exact ⟨fun _ => ⟨[], rfl, rfl⟩, fun h => absurd (fun c hc => absurd hc List.not_mem_nil) h⟩
  | succ n ih =>
    intro i done hlen hdone left result
    obtain ⟨a, c, ha, hc, hleft⟩ : ∃ a c, hex[i * 2]? = some a ∧ hex[i * 2 + 1]? = some c ∧
        left = a :: c :: hex.drop (2 * (i + 1)) := by
      have hi : i * 2 < hex.length := by omega
      have hi' : i * 2 + 1 < hex.length := by omega
      refine ⟨_, _, List.getElem?_eq_getElem hi, List.getElem?_eq_getElem hi', ?_⟩
      rw [show left = hex.drop (i * 2) by rw [Nat.mul_comm], List.drop_eq_getElem_cons hi,
        List.drop_eq_getElem_cons hi', show i * 2 + 1 + 1 = 2 * (i + 1) by omega]
    have hround : result = _ := decodeLoop_round ha hc hdone
    rw [hleft, hround]
    by_cases hdigits : IsHexDigit a ∧ IsHexDigit c
    · obtain ⟨hpos, hpair⟩ := hexEncode_pair hdigits.1 hdigits.2
      obtain ⟨hok, herr⟩ := ih (i + 1) (done ++ [joinNibbles (hexNibble a) (hexNibble c)])
          (by omega)
        (by simp [hdone])
      simp only [List.forall_mem_cons, hdigits.1, hdigits.2, true_and, if_neg hpos]
      refine ⟨fun hall => ?_, herr⟩
      obtain ⟨bs, hbs, henc⟩ := hok hall
      refine ⟨joinNibbles (hexNibble a) (hexNibble c) :: bs, ?_, ?_⟩
      · rw [hbs, List.append_assoc]
        rfl
      · rw [hpair, henc]
        rfl
    · -- a byte that is no digit ends the loop in this round
      have hneg : hexNibble a < 0 ∨ hexNibble c < 0 := by
        rcases Decidable.not_and_iff_or_not.mp hdigits with h | h
        · exact .inl ((hexNibble_spec _).2 h).1
        · exact .inr ((hexNibble_spec _).2 h).1
      rw [if_pos hneg]
      refine ⟨fun hall => absurd ?_ hdigits, fun _ => ⟨i * 2, rfl⟩⟩
      exact ⟨hall _ List.mem_cons_self, hall _ (List.mem_cons_of_mem _ List.mem_cons_self)⟩

/-! ### The key -/

theorem decodeHexKey_spec {s : Bytes} (hlen : s.length = 64) :
    ((∀ c ∈ s, IsHexDigit c) →
      ∃ b, decodeHexKey s = some (.ok b) ∧ hexEncode b = s.map lower) ∧
    (¬(∀ c ∈ s, IsHexDigit c) →
      ∃ position, decodeHexKey s = some (.error (.character position))) := by
  have hloop := decodeLoop_spec s 32 0 [] hlen rfl
  rw [decodeHexKey, if_neg (not_not_intro hlen)]
  exact hloop

/-- The key of a text is decoded exactly if the text is 64 digits of either case; it is then
the 32 bytes that the text encodes. Every other text is refused. -/
theorem decodeHexKey_exact (s : Bytes) :
    ((∃ b, decodeHexKey s = some (.ok b)) ↔ s.length = 64 ∧ ∀ c ∈ s, IsHexDigit c) ∧
    (∀ b, decodeHexKey s = some (.ok b) ↔ b.length = 32 ∧ hexEncode b = s.map lower) ∧
    (¬(s.length = 64 ∧ ∀ c ∈ s, IsHexDigit c) → ∃ e, decodeHexKey s = some (.error e)) := by
  have hrefused : ¬(s.length = 64 ∧ ∀ c ∈ s, IsHexDigit c) →
      ∃ e, decodeHexKey s = some (.error e) := by
    intro h
    by_cases hlen : s.length = 64
    · obtain ⟨position, herr⟩ := (decodeHexKey_spec hlen).2 fun hall => h ⟨hlen, hall⟩
      exact ⟨_, herr⟩
    · exact ⟨_, if_pos hlen⟩
  have hdigits : ∀ b, decodeHexKey s = some (.ok b) → s.length = 64 ∧ ∀ c ∈ s, IsHexDigit c := by
    intro b hb
    refine Decidable.byContradiction fun h => ?_
    obtain ⟨e, he⟩ := hrefused h
    rw [hb] at he
    cases he
  refine ⟨⟨fun ⟨b, hb⟩ => hdigits b hb, fun ⟨hlen, hall⟩ => ?_⟩,
    fun b => ⟨fun hb => ?_, ?_⟩, hrefused⟩
  · obtain ⟨b, hb, -⟩ := (decodeHexKey_spec hlen).1 hall
    exact ⟨b, hb⟩
  · obtain ⟨hlen, hall⟩ := hdigits b hb
    obtain ⟨b', hb', henc⟩ := (decodeHexKey_spec hlen).1 hall
    obtain rfl : b = b' := by
      rw [hb] at hb'
      cases hb'
      rfl
    have hlength := congrArg List.length henc
    rw [length_hexEncode, List.length_map, hlen] at hlength
    exact ⟨by omega, henc⟩
  · rintro ⟨hb, henc⟩
    have hlen : s.length = 64 := by
      rw [← List.length_map (f := lower), ← henc, length_hexEncode, hb]
    obtain ⟨b', hb', henc'⟩ := (decodeHexKey_spec hlen).1 (isHexDigit_of_mem henc)
    rw [hb', hexEncode_inj (henc.trans henc'.symm)]

end Verion.Crypto
