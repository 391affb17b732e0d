import Verion.Library.Utf8
import Mathlib.Algebra.Group.Int.Defs
import Mathlib.Algebra.Group.Nat.Defs
import Mathlib.Data.Int.Basic

/-!
# Scanning by a format

What `fmt.Sscanf` does with literal texts and the verb `%d`: a literal has to be
there, spaces before a number are skipped, a number ends with its last digit, and
nobody looks at what is left of the input.
-/

namespace Scan

inductive Failure where
  | eof
  | newline
  | mismatch
  | expectedInteger
  | range
deriving DecidableEq, Repr

/-! ### Steps -/

def literal : List Char → List Char → Except Failure (List Char)
  | [], input => .ok input
  | _ :: _, [] => .error .eof
  | c :: cs, d :: ds => if c = d then literal cs ds else .error .mismatch

/-- `White_Space` of Unicode. -/
def spaces : List (Nat × Nat) :=
  [(0x9, 0xd), (0x20, 0x20), (0x85, 0x85), (0xa0, 0xa0), (0x1680, 0x1680), (0x2000, 0x200a),
    (0x2028, 0x2029), (0x202f, 0x202f), (0x205f, 0x205f), (0x3000, 0x3000)]

def isSpace (c : Char) : Bool := spaces.any fun r => r.1 ≤ c.toNat && c.toNat ≤ r.2

/-- A newline is no space in a format that has none. -/
def skipSpace : List Char → Except Failure (List Char)
  | [] => .ok []
  | c :: rest =>
    if c = '\n' then .error .newline
    else if isSpace c then skipSpace rest
    else .ok (c :: rest)

def digits (input : List Char) : Except Failure (List Char × List Char) :=
  match input with
  | [] => .error .eof
  | _ =>
    if input.takeWhile Char.isDigit = [] then .error .expectedInteger
    else .ok (input.takeWhile Char.isDigit, input.dropWhile Char.isDigit)

def value (ds : List Char) : Nat := Nat.ofDigitChars 10 ds 0

/-- `%d` into an unsigned variable. -/
def scanUint (bits : Nat) (input : List Char) : Except Failure (Nat × List Char) := do
  let input ← skipSpace input
  let (ds, rest) ← digits input
  if value ds < 2 ^ bits then .ok (value ds, rest) else .error .range

def sign : List Char → Int × List Char
  | '+' :: rest => (1, rest)
  | '-' :: rest => (-1, rest)
  | input => (1, input)

/-- `%d` into a signed variable. -/
def scanInt (bits : Nat) (input : List Char) : Except Failure (Int × List Char) := do
  let input ← skipSpace input
  let (σ, input) := sign input
  let (ds, rest) ← digits input
  let v := σ * value ds
  if -2 ^ (bits - 1) ≤ v ∧ v < 2 ^ (bits - 1) then .ok (v, rest) else .error .range

inductive Directive where
  | literal (text : String)
  | int (bits : Nat)
  | uint (bits : Nat)

def scanf : List Directive → List Char → Except Failure (List Int)
  | [], _ => .ok []
  | .literal text :: format, input => do
    let rest ← literal text.toList input
    scanf format rest
  | .int bits :: format, input => do
    let (v, rest) ← scanInt bits input
    let vs ← scanf format rest
    .ok (v :: vs)
  | .uint bits :: format, input => do
    let (v, rest) ← scanUint bits input
    let vs ← scanf format rest
    .ok (v :: vs)

/-- The reader stops after so many characters. -/
def limit : Nat := 2 ^ 30

def sscanf (s : List UInt8) (format : List Directive) : Except Failure (List Int) :=
  scanf format ((Utf8.runes s).take limit)

/-! ### What is accepted -/

def Blank (cs : List Char) : Prop := ∀ c ∈ cs, isSpace c = true ∧ c ≠ '\n'

def Numeral (ds : List Char) : Prop := ds ≠ [] ∧ ∀ c ∈ ds, c.isDigit = true

def NoDigit (rest : List Char) : Prop := ∀ c ∈ rest.head?, c.isDigit = false

theorem ok_bind {α β ε : Type} {x : Except ε α} {f : α → Except ε β} {b : β} :
    (x >>= f) = .ok b ↔ ∃ a, x = .ok a ∧ f a = .ok b := by
  cases x with
  | error e => exact iff_of_false (fun h => nomatch h) fun ⟨_, h, _⟩ => nomatch h
  | ok a => exact ⟨fun h => ⟨a, rfl, h⟩, fun ⟨_, h, h'⟩ => by cases h; exact h'⟩

theorem literal_ok (text : List Char) : ∀ {input rest : List Char},
    literal text input = .ok rest ↔ input = text ++ rest := by
  induction text with
  | nil =>
    intro input rest
    exact ⟨fun h => Except.ok.inj h, fun h => congrArg _ h⟩
  | cons c text ih =>
    intro input rest
    cases input with
    | nil => exact iff_of_false (fun h => nomatch h) fun h => nomatch h
    | cons d input =>
      unfold literal
      by_cases hc : c = d
      · subst hc
        rw [if_pos rfl, ih, List.cons_append, List.cons.injEq, and_iff_right rfl]
      · rw [if_neg hc]
        exact iff_of_false (fun h => nomatch h) fun h => hc (List.cons.inj h).1.symm

theorem isSpace_digit {c : Char} (h : c.isDigit = true) : isSpace c = false := by
  have hlow : 48 ≤ c.toNat ∧ c.toNat ≤ 57 := by
    simp only [Char.isDigit, Bool.and_eq_true, decide_eq_true_eq, ge_iff_le, UInt32.le_iff_toNat_le]
      at h
    exact h
  simp only [isSpace, spaces, List.any_cons, List.any_nil, Bool.or_false, Bool.or_eq_false_iff,
    Bool.and_eq_false_iff, decide_eq_false_iff_not]
  omega

theorem skipSpace_ok {input rest : List Char} : skipSpace input = .ok rest ↔
    ∃ sp, input = sp ++ rest ∧ Blank sp ∧ ∀ c ∈ rest.head?, isSpace c = false := by
  induction input with
  | nil =>
    constructor
    · intro h
      cases h
      exact ⟨[], rfl, fun _ h => absurd h List.not_mem_nil, fun _ h => nomatch h⟩
    · rintro ⟨sp, h, -⟩
      rw [(List.append_eq_nil_iff.mp h.symm).2]
      rfl
  | cons c input ih =>
    unfold skipSpace
    by_cases hnl : c = '\n'
    · rw [if_pos hnl]
      refine iff_of_false (fun h => nomatch h) ?_
      rintro ⟨sp, h, hblank, hhead⟩
      cases sp with
      | nil =>
        rw [List.nil_append] at h
        subst h
        rw [hnl] at hhead
        exact absurd (hhead '\n' rfl) (by decide)
      | cons d sp =>
        cases (List.cons.inj h).1
        exact absurd hnl (hblank c List.mem_cons_self).2
    · rw [if_neg hnl]
      by_cases hsp : isSpace c = true
      · rw [if_pos hsp, ih]
        constructor
        · rintro ⟨sp, rfl, hblank, hhead⟩
          exact ⟨c :: sp, rfl, List.forall_mem_cons.mpr ⟨⟨hsp, hnl⟩, hblank⟩, hhead⟩
        · rintro ⟨sp, h, hblank, hhead⟩
          cases sp with
          | nil =>
            rw [List.nil_append] at h
            subst h
            exact absurd hsp (by rw [hhead c rfl]; exact Bool.false_ne_true)
          | cons d sp =>
            exact ⟨sp, (List.cons.inj h).2, fun x hx => hblank x (List.mem_cons_of_mem _ hx), hhead⟩
      · rw [if_neg hsp]
        constructor
        · intro h
          cases h
          refine ⟨[], rfl, fun _ h => absurd h List.not_mem_nil, fun d hd => ?_⟩
          cases hd
          exact Bool.eq_false_iff.mpr hsp
        · rintro ⟨sp, h, hblank, -⟩
          cases sp with
          | nil => exact congrArg _ h
          | cons d sp =>
            cases (List.cons.inj h).1
            exact absurd (hblank c List.mem_cons_self).1 hsp

theorem digits_ok {input ds rest : List Char} : digits input = .ok (ds, rest) ↔
    input = ds ++ rest ∧ Numeral ds ∧ NoDigit rest := by
  have hspan : input = ds ++ rest ∧ Numeral ds ∧ NoDigit rest ↔
      input.takeWhile Char.isDigit ≠ [] ∧
        (input.takeWhile Char.isDigit, input.dropWhile Char.isDigit) = (ds, rest) := by
    constructor
    · rintro ⟨rfl, ⟨hne, hall⟩, hrest⟩
      have htake : (ds ++ rest).takeWhile Char.isDigit = ds := by
        rw [List.takeWhile_append_of_pos hall]
        cases rest with
        | nil => simp
        | cons c rest => simp [hrest c rfl]
      have hdrop : (ds ++ rest).dropWhile Char.isDigit = rest := by
        have h := List.takeWhile_append_dropWhile (p := Char.isDigit) (l := ds ++ rest)
        rw [htake] at h
        exact List.append_cancel_left h
      rw [htake, hdrop]
      exact ⟨hne, rfl⟩
    · rintro ⟨hne, h⟩
      cases h
      refine ⟨List.takeWhile_append_dropWhile.symm,
        ⟨hne, fun c hc => List.all_eq_true.mp (List.all_takeWhile ..) c hc⟩,
        fun c hc => ?_⟩
      have hhead := List.head?_dropWhile_not Char.isDigit input
      rw [Option.mem_def.mp hc] at hhead
      simpa using hhead
  rw [hspan]
  cases input with
  | nil => simp [digits]
  | cons c input =>
    unfold digits
    dsimp only
    by_cases hne : (c :: input).takeWhile Char.isDigit = []
    · rw [if_pos hne]
      exact iff_of_false (fun h => nomatch h) fun h => h.1 hne
    · rw [if_neg hne]
      exact ⟨fun h => ⟨hne, Except.ok.inj h⟩, fun h => congrArg _ h.2⟩

theorem scanUint_ok {bits : Nat} {input rest : List Char} {v : Nat} :
    scanUint bits input = .ok (v, rest) ↔ ∃ sp ds, input = sp ++ ds ++ rest ∧ Blank sp ∧
      Numeral ds ∧ NoDigit rest ∧ v = value ds ∧ v < 2 ^ bits := by
  unfold scanUint
  rw [ok_bind]
  constructor
  · rintro ⟨input', hskip, h⟩
    obtain ⟨⟨ds, rest'⟩, hdigits, hrange⟩ := ok_bind.mp h
    obtain ⟨sp, rfl, hblank, -⟩ := skipSpace_ok.mp hskip
    obtain ⟨rfl, hnum, hrest⟩ := digits_ok.mp hdigits
    dsimp only at hrange
    by_cases hv : value ds < 2 ^ bits
    · rw [if_pos hv] at hrange
      cases hrange
      exact ⟨sp, ds, (List.append_assoc ..).symm, hblank, hnum, hrest, rfl, hv⟩
    · rw [if_neg hv] at hrange
      cases hrange
  · rintro ⟨sp, ds, rfl, hblank, hnum, hrest, rfl, hv⟩
    refine ⟨ds ++ rest, skipSpace_ok.mpr ⟨sp, List.append_assoc .., hblank, fun c hc => ?_⟩, ?_⟩
    · obtain ⟨hne, hall⟩ := hnum
      cases ds with
      | nil => exact absurd rfl hne
      | cons d ds =>
        cases hc
        exact isSpace_digit (hall _ List.mem_cons_self)
    · exact ok_bind.mpr ⟨(ds, rest), digits_ok.mpr ⟨rfl, hnum, hrest⟩, if_pos hv⟩

/-- The numeral that is written is the one that is read. -/
theorem numeral_toDigits (n : Nat) : Numeral (Nat.toDigits 10 n) ∧ value (Nat.toDigits 10 n) = n :=
  ⟨⟨Nat.toDigits_ne_nil, fun _ h => Nat.isDigit_of_mem_toDigits (by decide) (by decide) h⟩,
    Nat.ofDigitChars_ten_toDigits⟩

/-- What a sign makes of a number. -/
inductive Sign : List Char → Int → Prop where
  | none : Sign [] 1
  | plus : Sign ['+'] 1
  | minus : Sign ['-'] (-1)

theorem sign_numeral {sg ds rest : List Char} {σ : Int} (hs : Sign sg σ) (hnum : Numeral ds) :
    sign (sg ++ (ds ++ rest)) = (σ, ds ++ rest) := by
  cases hs with
  | none =>
    obtain ⟨hne, hall⟩ := hnum
    cases ds with
    | nil => exact absurd rfl hne
    | cons d ds =>
      have hd := hall d List.mem_cons_self
      have hplus : d ≠ '+' := by rintro rfl; exact absurd hd (by decide)
      have hminus : d ≠ '-' := by rintro rfl; exact absurd hd (by decide)
      simp [sign, hplus, hminus]
  | plus => rfl
  | minus => rfl

theorem sign_eq {input rest : List Char} {σ : Int} (h : sign input = (σ, rest)) :
    ∃ sg, Sign sg σ ∧ input = sg ++ rest := by
  unfold sign at h
  split at h
  · cases h
    exact ⟨_, .plus, rfl⟩
  · cases h
    exact ⟨_, .minus, rfl⟩
  · cases h
    exact ⟨_, .none, rfl⟩

/-- A sign or a digit is no space. -/
theorem isSpace_sign_numeral {sg ds rest : List Char} {σ : Int} (hs : Sign sg σ)
    (hnum : Numeral ds) :
    ∀ c ∈ (sg ++ (ds ++ rest)).head?, isSpace c = false := by
  obtain ⟨hne, hall⟩ := hnum
  cases ds with
  | nil => exact absurd rfl hne
  | cons d ds =>
    intro c hc
    cases hs with
    | none =>
      cases hc
      exact isSpace_digit (hall d List.mem_cons_self)
    | plus =>
      cases hc
      decide
    | minus =>
      cases hc
      decide

theorem scanInt_ok {bits : Nat} {input rest : List Char} {v : Int} :
    scanInt bits input = .ok (v, rest) ↔ ∃ sp sg σ ds, input = sp ++ (sg ++ (ds ++ rest)) ∧
      Blank sp ∧ Sign sg σ ∧ Numeral ds ∧ NoDigit rest ∧ v = σ * value ds ∧
      -2 ^ (bits - 1) ≤ v ∧ v < 2 ^ (bits - 1) := by
  unfold scanInt
  rw [ok_bind]
  constructor
  · rintro ⟨input', hskip, h⟩
    obtain ⟨sp, rfl, hblank, -⟩ := skipSpace_ok.mp hskip
    generalize hsign : sign input' = x at h
    obtain ⟨σ, input''⟩ := x
    obtain ⟨sg, hs, rfl⟩ := sign_eq hsign
    obtain ⟨⟨ds, rest'⟩, hdigits, hrange⟩ := ok_bind.mp h
    obtain ⟨rfl, hnum, hrest⟩ := digits_ok.mp hdigits
    dsimp only at hrange
    split at hrange
    case isTrue hv =>
      cases hrange
      exact ⟨sp, sg, σ, ds, rfl, hblank, hs, hnum, hrest, rfl, hv⟩
    case isFalse => cases hrange
  · rintro ⟨sp, sg, σ, ds, rfl, hblank, hs, hnum, hrest, rfl, hrange⟩
    refine ⟨_, skipSpace_ok.mpr ⟨sp, rfl, hblank, isSpace_sign_numeral hs hnum⟩, ?_⟩
    rw [sign_numeral hs hnum]
    exact ok_bind.mpr ⟨(ds, rest), digits_ok.mpr ⟨rfl, hnum, hrest⟩, if_pos hrange⟩

/-- The inputs of a format, with the numbers that are read. -/
inductive Matches : List Directive → List Char → List Int → Prop where
  | nil (input : List Char) : Matches [] input []
  | literal (text : String) {format : List Directive} {rest : List Char} {vs : List Int}
      (h : Matches format rest vs) : Matches (.literal text :: format) (text.toList ++ rest) vs
  | int {bits : Nat} {sp sg ds : List Char} {σ : Int} {format : List Directive} {rest : List Char}
      {vs : List Int} (hblank : Blank sp) (hs : Sign sg σ) (hnum : Numeral ds)
        (hrest : NoDigit rest)
      (hrange : -2 ^ (bits - 1) ≤ σ * value ds ∧ σ * value ds < 2 ^ (bits - 1))
      (h : Matches format rest vs) :
      Matches (.int bits :: format) (sp ++ (sg ++ (ds ++ rest))) (σ * value ds :: vs)
  | uint {bits : Nat} {sp ds : List Char} {format : List Directive} {rest : List Char}
      {vs : List Int} (hblank : Blank sp) (hnum : Numeral ds) (hrest : NoDigit rest)
      (hrange : value ds < 2 ^ bits) (h : Matches format rest vs) :
      Matches (.uint bits :: format) (sp ++ ds ++ rest) (value ds :: vs)

theorem scanf_ok (format : List Directive) : ∀ {input : List Char} {vs : List Int},
    scanf format input = .ok vs ↔ Matches format input vs := by
  induction format with
  | nil =>
    intro input vs
    constructor
    · intro h
      cases h
      exact .nil input
    · rintro ⟨⟩
      rfl
  | cons d format ih =>
    intro input vs
    cases d with
    | literal text =>
      unfold scanf
      rw [ok_bind]
      constructor
      · rintro ⟨rest, hlit, h⟩
        rw [literal_ok] at hlit
        subst hlit
        exact .literal text (ih.mp h)
      · rintro ⟨⟩
        exact ⟨_, (literal_ok _).mpr rfl, ih.mpr ‹_›⟩
    | int bits =>
      unfold scanf
      rw [ok_bind]
      constructor
      · rintro ⟨⟨v, rest⟩, hint, h⟩
        obtain ⟨vs', hvs, h⟩ := ok_bind.mp h
        obtain ⟨sp, sg, σ, ds, rfl, hblank, hs, hnum, hrest, rfl, hrange⟩ := scanInt_ok.mp hint
        cases h
        exact .int hblank hs hnum hrest hrange (ih.mp hvs)
      · rintro h
        cases h with
        | int hblank hs hnum hrest hrange h =>
          exact ⟨_, scanInt_ok.mpr ⟨_, _, _, _, rfl, hblank, hs, hnum, hrest, rfl, hrange⟩,
            ok_bind.mpr ⟨_, ih.mpr h, rfl⟩⟩
    | uint bits =>
      unfold scanf
      rw [ok_bind]
      constructor
      · rintro ⟨⟨v, rest⟩, huint, h⟩
        obtain ⟨vs', hvs, h⟩ := ok_bind.mp h
        obtain ⟨sp, ds, rfl, hblank, hnum, hrest, rfl, hrange⟩ := scanUint_ok.mp huint
        cases h
        exact .uint hblank hnum hrest hrange (ih.mp hvs)
      · intro h
        cases h with
        | uint hblank hnum hrest hrange h =>
          exact ⟨_, scanUint_ok.mpr ⟨_, _, rfl, hblank, hnum, hrest, rfl, hrange⟩,
            ok_bind.mpr ⟨_, ih.mpr h, rfl⟩⟩

theorem Matches.of_literal {text : String} {format : List Directive} {input : List Char}
    {vs : List Int} (h : Matches (.literal text :: format) input vs) :
    ∃ rest, input = text.toList ++ rest ∧ Matches format rest vs := by
  cases h with
  | literal _ h => exact ⟨_, rfl, h⟩

theorem Matches.of_int {bits : Nat} {format : List Directive} {input : List Char} {vs : List Int}
    (h : Matches (.int bits :: format) input vs) :
    ∃ v rest vs', vs = v :: vs' ∧ Matches format rest vs' := by
  cases h with
  | int _ _ _ _ _ h => exact ⟨_, _, _, rfl, h⟩

theorem Matches.of_uint {bits : Nat} {format : List Directive} {input : List Char} {vs : List Int}
    (h : Matches (.uint bits :: format) input vs) :
    ∃ (n : Nat) (rest : List Char) (vs' : List Int), vs = (n : Int) :: vs' ∧ n < 2 ^ bits ∧
      Matches format rest vs' := by
  cases h with
  | uint _ _ _ hrange h => exact ⟨_, _, _, rfl, hrange, h⟩

theorem Matches.of_nil {input : List Char} {vs : List Int} (h : Matches [] input vs) : vs = [] := by
  cases h
  rfl

/-- The decimal numeral of a number is read as that number. -/
theorem Matches.toDigits {bits n : Nat} {format : List Directive} {rest : List Char} {vs : List Int}
    (h : n < 2 ^ bits) (hrest : NoDigit rest) (hm : Matches format rest vs) :
    Matches (.uint bits :: format) (Nat.toDigits 10 n ++ rest) (n :: vs) := by
  obtain ⟨hnum, hvalue⟩ := numeral_toDigits n
  have hblank : Blank [] := fun _ h => absurd h List.not_mem_nil
  have hm := Matches.uint hblank hnum hrest (hvalue.symm ▸ h) hm
  rwa [hvalue] at hm

end Scan
