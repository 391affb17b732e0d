import Mathlib.Algebra.Group.Int.Defs
import Mathlib.Algebra.Group.Nat.Defs
import Mathlib.Tactic.Basic

/-!
# Identifiers

All identifiers of the service are UUID columns of PostgreSQL that travel
through the Go code as text (`model.go`: "All IDs are string"). Columns hold a
`UUID`; `UUID.ofText?` is the server's input function, which takes either
case, optional braces and an optional hyphen after every fourth digit, and
`UUID.toText` is its output function, which always prints the canonical form.
-/

namespace Verion

def hexChar (d : Fin 16) : Char :=
  ['0', '1', '2', '3', '4', '5', '6', '7', '8', '9', 'a', 'b', 'c', 'd', 'e', 'f'].get d

def hexValue? (c : Char) : Option (Fin 16) :=
  match c with
  | '0' => some 0 | '1' => some 1 | '2' => some 2 | '3' => some 3
  | '4' => some 4 | '5' => some 5 | '6' => some 6 | '7' => some 7
  | '8' => some 8 | '9' => some 9
  | 'a' => some 10 | 'A' => some 10
  | 'b' => some 11 | 'B' => some 11
  | 'c' => some 12 | 'C' => some 12
  | 'd' => some 13 | 'D' => some 13
  | 'e' => some 14 | 'E' => some 14
  | 'f' => some 15 | 'F' => some 15
  | _ => none

@[simp] theorem hexValue?_hexChar (d : Fin 16) : hexValue? (hexChar d) = some d := by
  revert d
  decide

/-- Hexadecimal digits are none of the punctuation of identifiers and key names. -/
theorem hexChar_ne (d : Fin 16) : hexChar d ≠ '/' ∧ hexChar d ≠ '-' ∧ hexChar d ≠ '\x7b' := by
  revert d
  decide

instance neZeroHex : @NeZero Nat Zero.ofOfNat0 16 := ⟨Nat.succ_ne_zero 15⟩

/-- Four hexadecimal digits. -/
structure Group where
  a : Fin 16
  b : Fin 16
  c : Fin 16
  d : Fin 16
deriving DecidableEq, Repr

namespace Group

def ofNat (n : Nat) : Group :=
  ⟨Fin.ofNat 16 (n / 4096), Fin.ofNat 16 (n / 256), Fin.ofNat 16 (n / 16), Fin.ofNat 16 n⟩

def chars (g : Group) : List Char :=
  [hexChar g.a, hexChar g.b, hexChar g.c, hexChar g.d]

end Group

structure UUID where
  groups : List Group
  length_eq : groups.length = 8
deriving DecidableEq, Repr

namespace UUID

/-- The UUID whose value is `n`, used to name concrete identifiers. -/
def ofNat (n : Nat) : UUID where
  groups := (List.range 8).map fun i => Group.ofNat (n / 65536 ^ (7 - i))
  length_eq := by simp

instance : Inhabited UUID := ⟨ofNat 0⟩

/-! ### Output -/

def chars (gs : List Group) : List Char :=
  gs.flatMap Group.chars

/-- `8-4-4-4-12` lower-case digits. -/
def toText (u : UUID) : String :=
  String.ofList (chars (u.groups.take 2) ++ '-' :: chars ((u.groups.drop 2).take 1) ++
    '-' :: chars ((u.groups.drop 3).take 1) ++ '-' :: chars ((u.groups.drop 4).take 1) ++
    '-' :: chars (u.groups.drop 5))

/-! ### Input -/

/-- `n` groups of four digits, each but the last with an optional hyphen behind it. -/
def parseGroups : Nat → List Char → Option (List Group × List Char)
  | 0, cs => some ([], cs)
  | n + 1, a :: b :: c :: d :: cs => do
    let g : Group := ⟨← hexValue? a, ← hexValue? b, ← hexValue? c, ← hexValue? d⟩
    let (gs, out) ← parseGroups n (if n ≠ 0 ∧ cs.head? = some '-' then cs.tail else cs)
    pure (g :: gs, out)
  | _ + 1, _ => none

def ofGroups? (r : Option (List Group × List Char)) (close : List Char) : Option UUID :=
  match r with
  | some (gs, rest) => if h : gs.length = 8 ∧ rest = close then some ⟨gs, h.1⟩ else none
  | none => none

def ofText? (s : String) : Option UUID :=
  match s.toList with
  | '\x7b' :: cs => ofGroups? (parseGroups 8 cs) ['\x7d']
  | cs => ofGroups? (parseGroups 8 cs) []

theorem toText_toList (u : UUID) : ∃ g0 g1 g2 g3 g4 g5 g6 g7 : Group,
    u.groups = [g0, g1, g2, g3, g4, g5, g6, g7] ∧
    u.toText.toList = g0.chars ++ g1.chars ++ '-' :: g2.chars ++ '-' :: g3.chars ++
      '-' :: g4.chars ++ '-' :: (g5.chars ++ g6.chars ++ g7.chars) := by
  obtain ⟨gs, hlen⟩ := u
  match gs, hlen with
  | [g0, g1, g2, g3, g4, g5, g6, g7], hlen =>
    exact ⟨g0, g1, g2, g3, g4, g5, g6, g7, rfl, by simp [toText, chars]⟩

theorem ofText?_toText (u : UUID) : ofText? u.toText = some u := by
  obtain ⟨g0, g1, g2, g3, g4, g5, g6, g7, hgs, htext⟩ := toText_toList u
  have hyphen : ∀ g : Group, ¬ hexChar g.a = '-' := fun g => (hexChar_ne g.a).2.1
  have hparse : parseGroups 8 u.toText.toList = some (u.groups, []) := by
    rw [htext, hgs]
    simp [Group.chars, parseGroups, hyphen]
  have hbrace : ∀ cs, u.toText.toList ≠ '\x7b' :: cs := by
    intro cs h
    rw [htext] at h
    exact (hexChar_ne g0.a).2.2 (List.cons.inj h).1
  unfold ofText?
  split
  · rename_i cs h
    exact absurd h (hbrace cs)
  · rw [hparse]
    simp [ofGroups?, u.length_eq]

/-- The characters the input function takes. -/
def isUuidChar (c : Char) : Bool :=
  (hexValue? c).isSome || c == '-' || c == '\x7b' || c == '\x7d'

theorem isUuidChar_of_parseGroups (n : Nat) :
    ∀ (cs : List Char) (gs : List Group) (out : List Char),
      parseGroups n cs = some (gs, out) → ∀ c ∈ cs, isUuidChar c = true ∨ c ∈ out := by
  induction n with
  | zero =>
    intro cs gs out h c hc
    simp only [parseGroups, Option.some.injEq, Prod.mk.injEq] at h
    exact .inr (h.2 ▸ hc)
  | succ n ih =>
    intro cs gs out h c hc
    match cs, h with
    | w :: x :: y :: z :: cs, h =>
      simp only [parseGroups, Option.bind_eq_bind, Option.bind_eq_some_iff] at h
      obtain ⟨w', hw, x', hx, y', hy, z', hz, ⟨gs', out'⟩, hrest, heq⟩ := h
      cases heq
      simp only [List.mem_cons] at hc
      rcases hc with rfl | rfl | rfl | rfl | hc
      · simp [isUuidChar, hw]
      · simp [isUuidChar, hx]
      · simp [isUuidChar, hy]
      · simp [isUuidChar, hz]
      · split at hrest
        · rename_i hskip
          obtain ⟨t, ht⟩ := List.head?_eq_some_iff.mp hskip.2
          rw [ht] at hc hrest
          rcases List.mem_cons.mp hc with rfl | hc
          · left; decide
          · exact ih _ _ _ hrest c hc
        · exact ih _ _ _ hrest c hc

theorem ofGroups?_eq_some {r : Option (List Group × List Char)} {close : List Char} {u : UUID}
    (h : ofGroups? r close = some u) : r = some (u.groups, close) := by
  cases r with
  | none => cases h
  | some r =>
    obtain ⟨gs, rest⟩ := r
    simp only [ofGroups?] at h
    split at h
    · rename_i hlen
      cases h
      exact congrArg (fun cs => some (gs, cs)) hlen.2
    · cases h

/-- A text that is a UUID has no other characters. -/
theorem isUuidChar_of_ofText? {s : String} {u : UUID} (h : ofText? s = some u) :
    ∀ c ∈ s.toList, isUuidChar c = true := by
  unfold ofText? at h
  split at h
  · rename_i cs hs
    have hparse := isUuidChar_of_parseGroups 8 cs _ _ (ofGroups?_eq_some h)
    intro c hc
    rw [hs] at hc
    rcases List.mem_cons.mp hc with rfl | hc
    · decide
    · rcases hparse c hc with hc | hc
      · exact hc
      · rw [List.mem_singleton.mp hc]
        decide
  · have hparse := isUuidChar_of_parseGroups 8 s.toList _ _ (ofGroups?_eq_some h)
    intro c hc
    rcases hparse c hc with hc | hc
    · exact hc
    · cases hc

theorem ofText?_empty : ofText? "" = none := by decide

theorem ne_empty_of_ofText? {s : String} {u : UUID} (h : ofText? s = some u) : s ≠ "" := by
  rintro rfl
  rw [ofText?_empty] at h
  cases h

theorem toText_injective {u v : UUID} (h : u.toText = v.toText) : u = v := by
  have hu := ofText?_toText u
  rw [h, ofText?_toText v] at hu
  exact (Option.some.inj hu).symm

end UUID

end Verion
