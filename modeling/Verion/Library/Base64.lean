import Mathlib.Data.List.GetD
import Mathlib.Data.List.Nodup

/-!
# Base64 without padding

Three bytes are four letters of an alphabet of 64; one or two bytes at the end are
two or three letters, whose last bits are unused. The decoder reads past line breaks
and does not look at the unused bits.
-/

namespace Base64

/-- An alphabet, with no line break in it. -/
structure Alphabet where
  letters : List UInt8
  length_eq : letters.length = 64
  nodup : letters.Nodup
  breaks : ∀ b ∈ letters, b ≠ 10 ∧ b ≠ 13

/-! ### Groups of six bits -/

def sextets : List UInt8 → List Nat
  | [] => []
  | [a] => [a.toNat / 4, a.toNat % 4 * 16]
  | [a, b] => [a.toNat / 4, a.toNat % 4 * 16 + b.toNat / 16, b.toNat % 16 * 4]
  | a :: b :: c :: rest =>
    a.toNat / 4 :: (a.toNat % 4 * 16 + b.toNat / 16) :: (b.toNat % 16 * 4 + c.toNat / 64) ::
      c.toNat % 64 :: sextets rest

def bytes? : List Nat → Option (List UInt8)
  | [] => some []
  | [_] => none
  | [a, b] => some [UInt8.ofNat (a * 4 + b / 16)]
  | [a, b, c] => some [UInt8.ofNat (a * 4 + b / 16), UInt8.ofNat (b % 16 * 16 + c / 4)]
  | a :: b :: c :: d :: rest =>
    (bytes? rest).map fun bs => UInt8.ofNat (a * 4 + b / 16) ::
      UInt8.ofNat (b % 16 * 16 + c / 4) :: UInt8.ofNat (c % 4 * 64 + d) :: bs

/-- The bits of the last group that no byte has. -/
def unused : List Nat → Nat
  | [_, b] => b % 16
  | [_, _, c] => c % 4
  | _ :: _ :: _ :: _ :: rest => unused rest
  | _ => 0

theorem sextets_lt (bs : List UInt8) : ∀ n ∈ sextets bs, n < 64 := by
  induction bs using sextets.induct with
  | case1 => exact fun _ h => absurd h List.not_mem_nil
  | case2 a =>
    have := a.toNat_lt
    simp only [sextets, List.forall_mem_cons, List.not_mem_nil, false_imp_iff,
      implies_true, and_true]
    omega
  | case3 a b =>
    have := a.toNat_lt
    have := b.toNat_lt
    simp only [sextets, List.forall_mem_cons, List.not_mem_nil, false_imp_iff,
      implies_true, and_true]
    omega
  | case4 a b c rest ih =>
    have := a.toNat_lt
    have := b.toNat_lt
    have := c.toNat_lt
    simp only [sextets, List.forall_mem_cons]
    exact ⟨by omega, by omega, by omega, by omega, ih⟩

theorem bytes?_sextets (bs : List UInt8) : bytes? (sextets bs) = some bs := by
  have hbyte : ∀ (a : UInt8) (n : Nat), n = a.toNat → UInt8.ofNat n = a := by
    rintro a _ rfl
    exact UInt8.ofNat_toNat
  induction bs using sextets.induct with
  | case1 => rfl
  | case2 a =>
    have := a.toNat_lt
    simp only [sextets, bytes?]
    rw [hbyte a _ (by omega)]
  | case3 a b =>
    have := a.toNat_lt
    have := b.toNat_lt
    simp only [sextets, bytes?]
    rw [hbyte a _ (by omega), hbyte b _ (by omega)]
  | case4 a b c rest ih =>
    have := a.toNat_lt
    have := b.toNat_lt
    have := c.toNat_lt
    simp only [sextets, bytes?, ih, Option.map_some]
    rw [hbyte a _ (by omega), hbyte b _ (by omega), hbyte c _ (by omega)]

theorem unused_sextets (bs : List UInt8) : unused (sextets bs) = 0 := by
  induction bs using sextets.induct with
  | case1 => rfl
  | case2 a => simp only [sextets, unused]; omega
  | case3 a b => simp only [sextets, unused]; omega
  | case4 a b c rest ih => simpa only [sextets, unused] using ih

/-- Groups without unused bits are those of the bytes they stand for. -/
theorem sextets_bytes? (ns : List Nat) : ∀ {bs : List UInt8}, (∀ n ∈ ns, n < 64) →
    bytes? ns = some bs → unused ns = 0 → sextets bs = ns := by
  have htoNat : ∀ n, n < 256 → (UInt8.ofNat n).toNat = n := fun n h => by
    rw [UInt8.toNat_ofNat']
    omega
  induction ns using bytes?.induct with
  | case1 =>
    rintro bs - h -
    cases h
    rfl
  | case2 => exact fun _ h => nomatch h
  | case3 a b =>
    rintro bs hlt h hunused
    simp only [List.forall_mem_cons] at hlt
    simp only [unused] at hunused
    cases h
    simp only [sextets]
    rw [htoNat _ (by omega)]
    simp only [List.cons.injEq, and_true]
    omega
  | case4 a b c =>
    rintro bs hlt h hunused
    simp only [List.forall_mem_cons] at hlt
    simp only [unused] at hunused
    cases h
    simp only [sextets]
    rw [htoNat _ (by omega), htoNat _ (by omega)]
    simp only [List.cons.injEq, and_true]
    omega
  | case5 a b c d rest ih =>
    rintro bs hlt h hunused
    simp only [List.forall_mem_cons] at hlt
    obtain ⟨rest', hrest, rfl⟩ := Option.map_eq_some_iff.mp h
    simp only [sextets]
    rw [ih hlt.2.2.2.2 hrest hunused, htoNat (a * 4 + b / 16) (by omega),
      htoNat (b % 16 * 16 + c / 4) (by omega), htoNat (c % 4 * 64 + d) (by omega)]
    simp only [List.cons.injEq, and_true]
    omega

/-! ### Letters -/

namespace Alphabet

variable (A : Alphabet)

def letter (n : Nat) : UInt8 := A.letters.getD n 0

def value? (b : UInt8) : Option Nat := A.letters.idxOf? b

def encode (bs : List UInt8) : List UInt8 := (sextets bs).map A.letter

def isBreak (b : UInt8) : Bool := b == 10 || b == 13

def values? (text : List UInt8) : Option (List Nat) :=
  (text.filter fun b => !isBreak b).mapM A.value?

def decode (text : List UInt8) : Option (List UInt8) := (A.values? text).bind bytes?

/-- The text has no line break and no unused bit. -/
def Strict (text : List UInt8) : Prop :=
  (∀ b ∈ text, isBreak b = false) ∧ ∀ ns, A.values? text = some ns → unused ns = 0

variable {A}

theorem letter_mem {n : Nat} (h : n < 64) : A.letter n ∈ A.letters := by
  rw [← A.length_eq] at h
  rw [letter, List.getD_eq_getElem _ _ h]
  exact List.getElem_mem h

theorem value?_letter {n : Nat} (h : n < 64) : A.value? (A.letter n) = some n := by
  rw [← A.length_eq] at h
  refine List.idxOf?_eq_some_iff.mpr ⟨h, (List.getD_eq_getElem _ _ h).symm, fun j hj heq => ?_⟩
  rw [letter, List.getD_eq_getElem _ _ h] at heq
  exact absurd ((A.nodup.getElem_inj_iff).mp heq) (by omega)

theorem letter_value? {b : UInt8} {n : Nat} (h : A.value? b = some n) :
    n < 64 ∧ A.letter n = b := by
  obtain ⟨hlt, hget, -⟩ := List.idxOf?_eq_some_iff.mp h
  refine ⟨A.length_eq ▸ hlt, ?_⟩
  rw [letter, List.getD_eq_getElem _ _ hlt]
  exact hget

theorem mapM_letter {ns : List Nat} (h : ∀ n ∈ ns, n < 64) :
    (ns.map A.letter).mapM A.value? = some ns := by
  induction ns with
  | nil => rfl
  | cons n ns ih =>
    rw [List.forall_mem_cons] at h
    simp [value?_letter h.1, ih h.2]

theorem letters_mapM (text : List UInt8) : ∀ {ns : List Nat}, text.mapM A.value? = some ns →
    (∀ n ∈ ns, n < 64) ∧ ns.map A.letter = text := by
  induction text with
  | nil =>
    intro ns h
    cases h
    exact ⟨fun _ hn => absurd hn List.not_mem_nil, rfl⟩
  | cons b text ih =>
    intro ns h
    rw [List.mapM_cons] at h
    obtain ⟨n, hn, h⟩ := Option.bind_eq_some_iff.mp h
    obtain ⟨rest, hrest, h⟩ := Option.bind_eq_some_iff.mp h
    cases h
    obtain ⟨hlt, hletter⟩ := letter_value? hn
    obtain ⟨hlts, hletters⟩ := ih hrest
    exact ⟨List.forall_mem_cons.mpr ⟨hlt, hlts⟩, by rw [List.map_cons, hletter, hletters]⟩

theorem mem_encode {bs : List UInt8} {b : UInt8} (h : b ∈ A.encode bs) : b ∈ A.letters := by
  obtain ⟨n, hn, rfl⟩ := List.mem_map.mp h
  exact letter_mem (sextets_lt bs n hn)

theorem isBreak_encode {bs : List UInt8} {b : UInt8} (h : b ∈ A.encode bs) : isBreak b = false := by
  obtain ⟨h10, h13⟩ := A.breaks b (mem_encode h)
  simp [isBreak, h10, h13]

theorem filter_of_no_break {text : List UInt8} (h : ∀ b ∈ text, isBreak b = false) :
    (text.filter fun b => !isBreak b) = text :=
  List.filter_eq_self.mpr fun b hb => by rw [h b hb]; rfl

theorem values?_encode (bs : List UInt8) : A.values? (A.encode bs) = some (sextets bs) := by
  unfold values?
  rw [filter_of_no_break fun _ => isBreak_encode]
  exact mapM_letter (sextets_lt bs)

theorem decode_encode (bs : List UInt8) : A.decode (A.encode bs) = some bs := by
  rw [decode, values?_encode]
  exact bytes?_sextets bs

theorem strict_encode (bs : List UInt8) : A.Strict (A.encode bs) := by
  refine ⟨fun _ => isBreak_encode, fun ns hns => ?_⟩
  rw [values?_encode] at hns
  cases hns
  exact unused_sextets bs

/-- What decodes is the text of its bytes just if it is strict. -/
theorem encode_decode {text bs : List UInt8} (h : A.decode text = some bs) :
    A.encode bs = text ↔ A.Strict text := by
  constructor
  · rintro rfl
    exact strict_encode bs
  · rintro ⟨hbreak, hunused⟩
    obtain ⟨ns, hns, hbytes⟩ := Option.bind_eq_some_iff.mp h
    have hzero := hunused ns hns
    unfold values? at hns
    rw [filter_of_no_break hbreak] at hns
    obtain ⟨hlt, hletters⟩ := letters_mapM text hns
    rw [encode, sextets_bytes? ns hlt hbytes hzero, hletters]

end Alphabet

/-! ### The two alphabets -/

/-- The bytes of an ASCII text. -/
def ascii (s : String) : List UInt8 := s.toList.map fun c => UInt8.ofNat c.toNat

theorem ascii_std : ascii "ABCDEFGHIJKLMNOPQRSTUVWXYZabcdefghijklmnopqrstuvwxyz0123456789+/" =
    (List.range' 65 26 ++ List.range' 97 26 ++ List.range' 48 10 ++ [43, 47]).map UInt8.ofNat := by
  decide +kernel

theorem ascii_url : ascii "ABCDEFGHIJKLMNOPQRSTUVWXYZabcdefghijklmnopqrstuvwxyz0123456789-_" =
    (List.range' 65 26 ++ List.range' 97 26 ++ List.range' 48 10 ++ [45, 95]).map UInt8.ofNat := by
  decide +kernel

theorem nodup_map_ofNat {ns : List Nat} (h : ns.Nodup) (hlt : ∀ n ∈ ns, n < 256) :
    (ns.map UInt8.ofNat).Nodup := by
  refine h.map_on fun m hm n hn heq => ?_
  have htoNat := congrArg UInt8.toNat heq
  rwa [UInt8.toNat_ofNat', UInt8.toNat_ofNat', Nat.mod_eq_of_lt (hlt m hm),
    Nat.mod_eq_of_lt (hlt n hn)] at htoNat

def std : Alphabet where
  letters := ascii "ABCDEFGHIJKLMNOPQRSTUVWXYZabcdefghijklmnopqrstuvwxyz0123456789+/"
  length_eq := ascii_std ▸ rfl
  nodup := ascii_std ▸ nodup_map_ofNat (by decide) (by decide)
  breaks := ascii_std ▸ List.forall_mem_map.mpr (by decide)

def url : Alphabet where
  letters := ascii "ABCDEFGHIJKLMNOPQRSTUVWXYZabcdefghijklmnopqrstuvwxyz0123456789-_"
  length_eq := ascii_url ▸ rfl
  nodup := ascii_url ▸ nodup_map_ofNat (by decide) (by decide)
  breaks := ascii_url ▸ List.forall_mem_map.mpr (by decide)

theorem url_ascii : ∀ b ∈ url.letters, b.toNat < 0x80 := by
  have hletters : url.letters = _ := ascii_url
  rw [hletters]
  exact List.forall_mem_map.mpr (by decide)

end Base64
