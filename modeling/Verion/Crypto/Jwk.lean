import Verion.Library.Base64
import Verion.Library.Json
import Verion.Identity.Model
import Mathlib.Data.Nat.Digits.Lemmas

/-!
# Public keys as JWK (internal/crypto/keys.go)

The generators describe a public key by a JSON object, with the keys of a Go map in
their order. The coordinates of a P-256 point are written big-endian in base64url,
padded in front to the length of the field.
-/

namespace Verion.Crypto

/-! ### Integers as bytes -/

/-- `big.Int.Bytes`: big-endian, no zero in front, nothing for zero. -/
def bigBytes (n : Nat) : Bytes := ((Nat.digits 256 n).map UInt8.ofNat).reverse

/-- The value of big-endian bytes. -/
def bigEndian (b : Bytes) : Nat := Nat.ofDigits 256 (b.reverse.map UInt8.toNat)

def zeroPad (b : Bytes) (n : Nat) : Bytes :=
  if n ≤ b.length then b else List.replicate (n - b.length) 0 ++ b

theorem bigEndian_bigBytes (n : Nat) : bigEndian (bigBytes n) = n := by
  have hdigit : ∀ d ∈ Nat.digits 256 n, (UInt8.ofNat d).toNat = d := by
    intro d hd
    have hlt : d < 256 := Nat.digits_lt_base (by decide) hd
    exact UInt8.toNat_ofNat_of_lt hlt
  have hdigits : ((Nat.digits 256 n).map UInt8.ofNat).map UInt8.toNat = Nat.digits 256 n := by
    rw [List.map_map]
    exact (List.map_congr_left hdigit).trans (List.map_id _)
  rw [bigEndian, bigBytes, List.reverse_reverse, hdigits, Nat.ofDigits_digits]

theorem length_bigBytes_le {n k : Nat} (h : n < 256 ^ k) : (bigBytes n).length ≤ k := by
  have hdigits : (Nat.digits 256 n).length ≤ k := (Nat.digits_length_le_iff (by decide) n).mpr h
  simpa [bigBytes] using hdigits

/-- Zeros in front leave the value as it is. -/
theorem bigEndian_zeroPad (b : Bytes) (n : Nat) : bigEndian (zeroPad b n) = bigEndian b := by
  unfold zeroPad
  split
  case isTrue => rfl
  case isFalse =>
    have hzero : UInt8.toNat 0 = 0 := rfl
    simp only [bigEndian, List.reverse_append, List.reverse_replicate, List.map_append,
      List.map_replicate, hzero]
    exact Nat.ofDigits_append_replicate_zero _

theorem length_zeroPad {b : Bytes} {n : Nat} (h : b.length ≤ n) : (zeroPad b n).length = n := by
  unfold zeroPad
  split
  case isTrue hle => omega
  case isFalse hlt =>
    rw [List.length_append, List.length_replicate]
    omega

/-! ### The documents -/

/-- `json.Marshal` of a map of strings; the names are given in their order. -/
def marshalMap (members : List (List Char × Bytes)) : Bytes :=
  Utf8.encode (Json.printObject (members.map fun m => (m.1, Json.quote m.2)))

def rawURL (b : Bytes) : Bytes := Base64.url.encode b

/-- `pub.Curve.Params().BitSize` of P-256. -/
def bitSize : Nat := 256

def byteLen : Nat := (bitSize + 7) / 8

def coordinate (n : Nat) : Bytes := rawURL (zeroPad (bigBytes n) byteLen)

structure Point where
  x : Nat
  y : Nat
deriving DecidableEq

def ecdsaP256JWK (pub : Point) (keyID : Bytes) : Bytes :=
  marshalMap [("crv".toList, Base64.ascii "P-256"), ("kid".toList, keyID),
    ("kty".toList, Base64.ascii "EC"), ("x".toList, coordinate pub.x),
    ("y".toList, coordinate pub.y)]

/-! ### Reading them -/

def Value.member? (name : String) : Json.Value → Option Bytes
  | .object members =>
    match members.find? fun m => m.1 == name.toList with
    | some (_, .string s) => some (Utf8.encode s)
    | _ => none
  | _ => none

/-- A string member of a document. -/
def member? (jwk : Bytes) (name : String) : Option Bytes :=
    (Json.parse jwk).bind (Value.member? name)

theorem parse_marshalMap {members : List (List Char × Bytes)}
    (h : ∀ m ∈ members, Json.Bare m.1) :
    Json.parse (marshalMap members) =
      some (.object (members.map fun m => (m.1, .string (Utf8.runes m.2)))) := by
  refine @Json.parse_printObject 0 _ _ ?_ (by decide)
  rw [Json.Written, List.forall₂_map_left_iff, List.forall₂_map_right_iff, List.forall₂_same]
  intro m hm
  exact ⟨Json.spells_bare (h m hm), Json.reads_quote 0 m.2⟩

theorem ascii_rawURL {b : UInt8} {bs : Bytes} (h : b ∈ rawURL bs) : b.toNat < 0x80 :=
  Base64.url_ascii b (Base64.url.mem_encode h)

theorem encode_runes_rawURL (bs : Bytes) : Utf8.encode (Utf8.runes (rawURL bs)) = rawURL bs :=
  Utf8.encode_runes_ascii fun _ => ascii_rawURL

theorem member?_ecdsaP256JWK (pub : Point) (keyID : Bytes) :
    member? (ecdsaP256JWK pub keyID) "x" = some (coordinate pub.x) ∧
      member? (ecdsaP256JWK pub keyID) "y" = some (coordinate pub.y) := by
  have hparse := @parse_marshalMap
    [("crv".toList, Base64.ascii "P-256"), ("kid".toList, keyID),
      ("kty".toList, Base64.ascii "EC"), ("x".toList, coordinate pub.x),
      ("y".toList, coordinate pub.y)] (by simp; decide)
  have hread : ∀ n, Utf8.encode (Utf8.runes (coordinate n)) = coordinate n :=
    fun n => encode_runes_rawURL _
  constructor
  · rw [member?, ecdsaP256JWK, hparse]
    exact congrArg some (hread pub.x)
  · rw [member?, ecdsaP256JWK, hparse]
    exact congrArg some (hread pub.y)

theorem coordinate_spec {n : Nat} (h : n < 2 ^ 256) :
    ∃ b, Base64.url.decode (coordinate n) = some b ∧ b.length = 32 ∧ bigEndian b = n := by
  refine ⟨zeroPad (bigBytes n) byteLen, Base64.url.decode_encode _, ?_, ?_⟩
  · have hshort : (bigBytes n).length ≤ byteLen :=
      length_bigBytes_le (h.trans_eq (by norm_num [byteLen, bitSize]))
    exact length_zeroPad hshort
  · rw [bigEndian_zeroPad, bigEndian_bigBytes]

theorem coordinate_inj {m n : Nat} (h : coordinate m = coordinate n) : m = n := by
  have hpadded : zeroPad (bigBytes m) byteLen = zeroPad (bigBytes n) byteLen := by
    have hdecoded := congrArg Base64.url.decode h
    simpa only [coordinate, rawURL, Base64.Alphabet.decode_encode, Option.some.injEq] using hdecoded
  have hvalue := congrArg bigEndian hpadded
  simpa only [bigEndian_zeroPad, bigEndian_bigBytes] using hvalue

/-- The coordinates of a point come back from its document, 32 bytes each, and no other
point has the same two members. -/
theorem ecdsaP256JWK_coordinates {pub : Point} (hx : pub.x < 2 ^ 256) (hy : pub.y < 2 ^ 256)
    (keyID : Bytes) :
    ∃ x y, member? (ecdsaP256JWK pub keyID) "x" = some x ∧
      member? (ecdsaP256JWK pub keyID) "y" = some y ∧
      (∃ b, Base64.url.decode x = some b ∧ b.length = 32 ∧ bigEndian b = pub.x) ∧
      (∃ b, Base64.url.decode y = some b ∧ b.length = 32 ∧ bigEndian b = pub.y) ∧
      ∀ other keyID', member? (ecdsaP256JWK other keyID') "x" = some x →
        member? (ecdsaP256JWK other keyID') "y" = some y → other = pub := by
  have hpub := member?_ecdsaP256JWK pub keyID
  refine ⟨_, _, hpub.1, hpub.2, coordinate_spec hx, coordinate_spec hy, ?_⟩
  intro other keyID' hx' hy'
  have hother := member?_ecdsaP256JWK other keyID'
  have hsameX : other.x = pub.x := coordinate_inj (Option.some.inj (hother.1.symm.trans hx'))
  have hsameY : other.y = pub.y := coordinate_inj (Option.some.inj (hother.2.symm.trans hy'))
  cases other
  cases pub
  simp_all only

/-- A point whose first coordinate is a single byte. -/
theorem ecdsaP256JWK_coordinates_short :
    ∃ x y, member? (ecdsaP256JWK ⟨5, 2 ^ 255⟩ (Base64.ascii "k")) "x" = some x ∧
      member? (ecdsaP256JWK ⟨5, 2 ^ 255⟩ (Base64.ascii "k")) "y" = some y ∧
      (∃ b, Base64.url.decode x = some b ∧ b.length = 32 ∧ bigEndian b = 5) ∧
      (∃ b, Base64.url.decode y = some b ∧ b.length = 32 ∧ bigEndian b = 2 ^ 255) ∧
      ∀ other keyID', member? (ecdsaP256JWK other keyID') "x" = some x →
        member? (ecdsaP256JWK other keyID') "y" = some y → other = ⟨5, 2 ^ 255⟩ :=
  @ecdsaP256JWK_coordinates ⟨5, 2 ^ 255⟩ (by decide) (by decide) _

end Verion.Crypto
