import Verion.Library.Base64
import Verion.Library.Dynamic
import Verion.Service.Requests

/-!
# What the decryption of attributes accepts

The stored bytes are the nonce with the ciphertext after it, without a length. Under an
ideal cipher the only pairs that open are those that the encryption of a map produced, so
that every other string is refused, whatever its length.
-/

namespace Verion.Service

open Calls

variable {Attrs : Type}

/-! ### The method with its slices -/

/-- `b[lo:hi]`; no value stands for a slice out of range. -/
def slice? (b : Bytes) (lo hi : Nat) : Option Bytes :=
  if lo ≤ hi ∧ hi ≤ b.length then some ((b.take hi).drop lo) else none

/-- `decryptAttributes` with the error it returns and the identity it leaves; no value
stands for a panic. -/
def decryptAttributesInPlace (P : Primitives Attrs) (ident : Identity Attrs) :
    Option (Option Error × Identity Attrs) :=
  if (ident.attributes.getD []).length = 0 then some (none, ident)
  else if (ident.attributes.getD []).length < 12 then
    some (some (.text "encrypted attributes too short"), ident)
  else do
    let iv ← slice? (ident.attributes.getD []) 0 12
    let ciphertext ← slice? (ident.attributes.getD []) 12 (ident.attributes.getD []).length
    match decrypt P ciphertext iv with
    | .error e => some (some (.wrap "decrypt" e), ident)
    | .ok plaintext => match P.unmarshal plaintext with
      | none => some (some (.wrap "unmarshal attributes" (.text "json: invalid")), ident)
      | some attrs => some (none, { ident with decryptedAttributes := some attrs })

/-- The error and the identity after a method that changes it only when it succeeds. -/
def outcome (ident : Identity Attrs) : Except Error (Identity Attrs) → Option Error × Identity Attrs
  | .ok changed => (none, changed)
  | .error e => (some e, ident)

/-- No slice is out of range, and the method is the one of the services. -/
theorem decryptAttributesInPlace_eq (P : Primitives Attrs) (ident : Identity Attrs) :
    decryptAttributesInPlace P ident = some (outcome ident (decryptAttributes P ident)) := by
  unfold decryptAttributesInPlace decryptAttributes
  generalize ident.attributes.getD [] = stored
  dsimp only
  split
  · rfl
  · split
    · rfl
    case isFalse hlong =>
      have hiv : slice? stored 0 12 = some (stored.take 12) :=
        if_pos ⟨by decide, Nat.le_of_not_lt hlong⟩
      have hciphertext : slice? stored 12 stored.length = some (stored.drop 12) := by
        rw [slice?, if_pos ⟨Nat.le_of_not_lt hlong, Nat.le_refl _⟩, List.take_length]
      rw [hiv, hciphertext]
      simp only [Option.bind_eq_bind, Option.bind_some]
      cases decrypt P (stored.drop 12) (stored.take 12) with
      | error e => rfl
      | ok plaintext =>
        dsimp only
        cases P.unmarshal plaintext <;> rfl

/-! ### What is encrypted -/

theorem only_encryptAttributes_marshalled {P : Primitives Attrs} {p : Op Attrs → Prop} {m : Attrs}
    (hc : ∀ plaintext, P.isEmpty m = false → P.marshal m = some plaintext →
      p (.encrypt plaintext)) :
    (encryptAttributes P m).Only p := by
  unfold encryptAttributes
  split
  · trivial
  · rename_i hfull
    split
    · trivial
    · rename_i plaintext hmarshal
      refine ⟨hc plaintext (by simpa using hfull) hmarshal, fun r => ?_⟩
      cases r <;> trivial

/-- The call seals the text of a map, if it seals anything. -/
def SealsMap (P : Primitives Attrs) (c : Op Attrs) : Prop :=
  ∀ plaintext, c = .encrypt plaintext → ∃ m, P.isEmpty m = false ∧ P.marshal m = some plaintext

theorem sealsMap_of_mayCall {P : Primitives Attrs} {req : Request Attrs} {c : Op Attrs}
    (h : MayCall req c) (hcreate : ∀ input, req ≠ .createIdentity input)
    (hupdate : ∀ input, req ≠ .updateIdentity input) : SealsMap P c := by
  rintro plaintext rfl
  cases h with
  | createIdentityEncrypt => exact absurd rfl (hcreate _)
  | updateIdentityEncrypt => exact absurd rfl (hupdate _)

/-- No request has anything else encrypted than the text of a map. -/
theorem program_sealsMap (P : Primitives Attrs) (req : Request Attrs) :
    (req.program P).Only (SealsMap P) := by
  have hencrypt : ∀ m : Attrs, (encryptAttributes P m).Only (SealsMap P) := fun m =>
    only_encryptAttributes_marshalled fun plaintext hfull hmarshal _ heq => by
      cases heq
      exact ⟨m, hfull, hmarshal⟩
  have hrepo : ∀ c, SealsMap P (.repo c) := fun c _ heq => by cases heq
  cases req with
  | createIdentity input =>
    refine only_respond ((only_orFail _ _).bind fun _ => ?_)
    refine (only_repo (hrepo _) _).bind fun tenant => ?_
    refine (only_refuseIf _ _).bind fun _ => ?_
    refine (hencrypt _).bind fun enc => ?_
    refine (only_orFail _ _).bind fun encryptedAttrs => ?_
    refine (only_repo (hrepo _) _).bind fun created => ?_
    refine Program.Only.bind ⟨fun _ heq => (nomatch heq), only_orFail _⟩ fun generated => ?_
    refine (only_repo (hrepo _) _).bind fun createdKey => ?_
    refine (only_repo (hrepo _) _).bind fun _ => ?_
    refine (only_repo (hrepo _) _).bind fun _ => ?_
    exact (only_writeAudit (hrepo _)).bind fun _ => trivial
  | updateIdentity input =>
    refine only_respond ((only_refuseIf _ _).bind fun _ => ?_)
    refine (only_repo (hrepo _) _).bind fun existing => ?_
    refine (hencrypt _).bind fun enc => ?_
    refine (only_orFail _ _).bind fun encryptedAttrs => ?_
    exact (only_repo (hrepo _) _).bind fun _ => only_orFail _ _
  | _ =>
    refine (program_only P _).mono fun c hc => ?_
    exact sealsMap_of_mayCall hc (fun _ heq => by cases heq) fun _ heq => by cases heq

/-! ### An ideal cipher -/

/-- A call of `encryptAttributes`. -/
structure EncryptCall (Attrs : Type) where
  attrs : Attrs
  env : Env
  world : World

/-- The call returned `stored`. -/
def EncryptCall.Returned (P : Primitives Attrs) (c : EncryptCall Attrs) (stored : Bytes) : Prop :=
  ((encryptAttributes P c.attrs).run (exec P) (fun _ => c.env) c.world).1 = .ok (.ok (some stored))

/-- The pair that the call had `Seal` produce, and from what. -/
def EncryptCall.Sealed (P : Primitives Attrs) (c : EncryptCall Attrs)
    (iv ciphertext plaintext : Bytes) : Prop :=
  P.isEmpty c.attrs = false ∧ P.marshal c.attrs = some plaintext ∧ P.masterKey.length = 32 ∧
    c.env.iv.map IV.bytes = some iv ∧ ciphertext = P.gcmSeal P.masterKey iv plaintext

/-- `Open` undoes `Seal`, and succeeds only on pairs that one of the calls produced. -/
structure IdealCipher (P : Primitives Attrs) (calls : List (EncryptCall Attrs)) : Prop where
  opens : ∀ c ∈ calls, ∀ {iv ciphertext plaintext}, c.Sealed P iv ciphertext plaintext →
    P.gcmOpen P.masterKey iv ciphertext = some plaintext
  only : ∀ {iv ciphertext plaintext}, P.gcmOpen P.masterKey iv ciphertext = some plaintext →
    ∃ c ∈ calls, ∃ plaintext, c.Sealed P iv ciphertext plaintext

theorem EncryptCall.returned_iff {P : Primitives Attrs} {c : EncryptCall Attrs} {stored : Bytes} :
    c.Returned P stored ↔
      ∃ iv ciphertext plaintext, c.Sealed P iv ciphertext plaintext ∧
        stored = iv ++ ciphertext := by
  unfold EncryptCall.Returned EncryptCall.Sealed encryptAttributes
  cases hempty : P.isEmpty c.attrs with
  | true => simp [Program.run_ret]
  | false =>
    cases hmarshal : P.marshal c.attrs with
    | none => simp [Program.run_ret]
    | some text =>
      simp only [Bool.false_eq_true, if_false, Program.run_call, exec, encrypt]
      by_cases hkey : P.masterKey.length = 32
      · cases hiv : c.env.iv with
        | none => simp [hkey, Program.run_ret]
        | some iv => simp [hkey, Program.run_ret, eq_comm]
      · simp [hkey, Program.run_ret]

/-! ### Which strings are accepted -/

section

variable {P : Primitives Attrs} {calls : List (EncryptCall Attrs)} (hideal : IdealCipher P calls)
  (hkey : P.masterKey.length = 32)
include hideal hkey

theorem decrypt_sealed {c : EncryptCall Attrs} (hc : c ∈ calls) {iv ciphertext plaintext : Bytes}
    (h : c.Sealed P iv ciphertext plaintext) : decrypt P ciphertext iv = .ok plaintext := by
  have hopen := hideal.opens c hc h
  obtain ⟨v, -, rfl⟩ := Option.map_eq_some_iff.mp h.2.2.2.1
  rw [decrypt, if_neg (not_not.mpr hkey), if_neg (not_not.mpr v.length_eq), hopen]

/-- What a call returned is opened as the text of its map. -/
theorem decryptAttributes_returned {c : EncryptCall Attrs} (hc : c ∈ calls)
    {ident : Identity Attrs} (h : c.Returned P (ident.attributes.getD [])) :
    ∃ text, P.marshal c.attrs = some text ∧
      decryptAttributes P ident =
        match P.unmarshal text with
        | none => .error (.wrap "unmarshal attributes" (.text "json: invalid"))
        | some attrs => .ok { ident with decryptedAttributes := some attrs } := by
  obtain ⟨iv, ciphertext, plaintext, hsealed, hstored⟩ := EncryptCall.returned_iff.mp h
  have hdecrypt := decrypt_sealed hideal hkey hc hsealed
  obtain ⟨v, -, rfl⟩ := Option.map_eq_some_iff.mp hsealed.2.2.2.1
  have hlength : 12 ≤ (v.bytes ++ ciphertext).length := by
    rw [List.length_append, v.length_eq]
    omega
  have htake : (v.bytes ++ ciphertext).take 12 = v.bytes := List.take_left' v.length_eq
  have hdrop : (v.bytes ++ ciphertext).drop 12 = ciphertext := List.drop_left' v.length_eq
  refine ⟨plaintext, hsealed.2.1, ?_⟩
  have hempty : ¬(v.bytes ++ ciphertext).length = 0 := by omega
  have hshort : ¬(v.bytes ++ ciphertext).length < 12 := by omega
  cases hplain : P.unmarshal plaintext with
  | none => simp only [decryptAttributes, hstored, hempty, hshort, if_false, htake, hdrop, hdecrypt,
      hplain]
  | some attrs => simp only [decryptAttributes, hstored, hempty, hshort, if_false, htake, hdrop,
      hdecrypt, hplain]

/-- Bytes that no call returned are refused. -/
theorem decryptAttributes_refused {ident : Identity Attrs} (hstored : ident.attributes.getD [] ≠ [])
    (h : ∀ c ∈ calls, ¬c.Returned P (ident.attributes.getD [])) :
    ∃ e, decryptAttributes P ident = .error e := by
  unfold decryptAttributes
  generalize ident.attributes.getD [] = stored at h hstored
  dsimp only
  rw [if_neg (fun hnil => hstored (List.length_eq_zero_iff.mp hnil))]
  split
  · exact ⟨_, rfl⟩
  case isFalse hlong =>
    have hlength : (stored.take 12).length = 12 := by
      rw [List.length_take]
      omega
    cases hopen : P.gcmOpen P.masterKey (stored.take 12) (stored.drop 12) with
    | none =>
      have hdecrypt : decrypt P (stored.drop 12) (stored.take 12) =
          .error (.text "aes decrypt: authentication failed") := by
        rw [decrypt, if_neg (not_not.mpr hkey), if_neg (not_not.mpr hlength), hopen]
      rw [hdecrypt]
      exact ⟨_, rfl⟩
    | some plaintext =>
      obtain ⟨c, hc, text, hsealed⟩ := hideal.only hopen
      have hreturned : c.Returned P stored := EncryptCall.returned_iff.mpr
        ⟨_, _, text, hsealed, (List.take_append_drop 12 stored).symm⟩
      exact absurd hreturned (h c hc)

end

/-! ### Maps in JSON -/

/-- The primitives with the maps of Go and their JSON. -/
def Primitives.withMaps (P : Primitives Attrs) (N : Json.Floats) : Primitives (Json.Map N) :=
  { P with
    isEmpty := Json.Map.isEmpty, marshal := Json.Map.marshal, unmarshal := Json.Map.unmarshal }

theorem unmarshal_withMaps (P : Primitives Attrs) (N : Json.Floats) :
    (P.withMaps N).unmarshal = Json.Map.unmarshal := rfl

/-- The decryption gives back a map of the kinds that JSON stores; another map comes back as
what is read of its text. It leaves an identity without bytes alone, and answers everything
else with an error that changes nothing. -/
theorem decryptAttributesInPlace_exact (P : Primitives Attrs) (N : Json.Floats)
    {calls : List (EncryptCall (Json.Map N))} (hideal : IdealCipher (P.withMaps N) calls)
    (hkey : P.masterKey.length = 32) (ident : Identity (Json.Map N)) :
    (∀ c ∈ calls, c.Returned (P.withMaps N) (ident.attributes.getD []) →
      (c.attrs.IsStored → decryptAttributesInPlace (P.withMaps N) ident =
        some (none, { ident with decryptedAttributes := some c.attrs })) ∧
      ∃ text, c.attrs.marshal = some text ∧
        match Json.Map.unmarshal text with
        | some m => decryptAttributesInPlace (P.withMaps N) ident =
            some (none, { ident with decryptedAttributes := some m })
        | none => ∃ e, decryptAttributesInPlace (P.withMaps N) ident = some (some e, ident)) ∧
    (ident.attributes.getD [] = [] →
      decryptAttributesInPlace (P.withMaps N) ident = some (none, ident)) ∧
    (ident.attributes.getD [] ≠ [] →
      (∀ c ∈ calls, ¬c.Returned (P.withMaps N) (ident.attributes.getD [])) →
      ∃ e, decryptAttributesInPlace (P.withMaps N) ident = some (some e, ident)) := by
  rw [decryptAttributesInPlace_eq]
  refine ⟨fun c hc hreturned => ?_, fun hempty => ?_, fun hstored hnone => ?_⟩
  · obtain ⟨text, htext, hdecrypted⟩ := decryptAttributes_returned hideal hkey hc hreturned
    rw [hdecrypted]
    refine ⟨fun hkinds => ?_, text, htext, ?_⟩
    · obtain ⟨written, hwritten, hread⟩ := Json.Map.unmarshal_marshal hkinds
      obtain rfl : written = text := Option.some.inj (hwritten.symm.trans htext)
      rw [unmarshal_withMaps, hread]
      rfl
    · rw [unmarshal_withMaps]
      cases Json.Map.unmarshal text with
      | none => exact ⟨_, rfl⟩
      | some m => rfl
  · have hdecrypted : decryptAttributes (P.withMaps N) ident = .ok ident := by
      rw [decryptAttributes, hempty]
      rfl
    rw [hdecrypted]
    rfl
  · obtain ⟨e, he⟩ := decryptAttributes_refused hideal hkey hstored hnone
    rw [he]
    exact ⟨e, rfl⟩

/-! ### A cipher that sealed one text -/

/-- The numbers that are integers. -/
def wholeNumbers : Json.Floats where
  F := { i : Int // Json.Int64 i }
  format i := some (Json.integer i.1)
  parse l := (Json.int64? l).bind fun i => if h : Json.Int64 i then some ⟨i, h⟩ else none
  isNumber_format := by
    intro f l h
    cases h
    exact Json.isNumber_integer f.1
  parse_format := by
    intro f l h
    cases h
    rw [Json.int64?_integer, if_pos f.2]
    exact dif_pos f.2

/-- Copies, and opens nothing but `text` under the nonce of zeros. -/
def sealedOnly (text : Bytes) : Primitives Bytes :=
  { plainPrimitives with
    gcmOpen := fun _ iv c => if iv = List.replicate 12 0 ∧ c = text then some c else none }

/-- The bytes under which `text` is stored. -/
def stored (text : Bytes) : Bytes := List.replicate 12 0 ++ text

section

variable {N : Json.Floats} {m : Json.Map N} {text : Bytes} (hm : m.isEmpty = false)
  (htext : m.marshal = some text)
include hm htext

theorem sealed_sealedOnly : EncryptCall.Sealed ((sealedOnly text).withMaps N)
    ⟨m, calm 0, smallWorld⟩ (List.replicate 12 0) text text :=
  ⟨hm, htext, rfl, rfl, rfl⟩

theorem returned_sealedOnly : EncryptCall.Returned ((sealedOnly text).withMaps N)
    ⟨m, calm 0, smallWorld⟩ (stored text) :=
  EncryptCall.returned_iff.mpr ⟨_, _, _, sealed_sealedOnly hm htext, rfl⟩

theorem ideal_sealedOnly :
    IdealCipher ((sealedOnly text).withMaps N) [⟨m, calm 0, smallWorld⟩] where
  opens := by
    intro c hc iv ciphertext plaintext hsealed
    obtain rfl := List.mem_singleton.mp hc
    obtain ⟨-, hmarshal, -, hiv, rfl⟩ := hsealed
    cases htext.symm.trans hmarshal
    cases hiv
    exact if_pos ⟨rfl, rfl⟩
  only := by
    intro iv ciphertext plaintext hopen
    have hpair : iv = List.replicate 12 0 ∧ ciphertext = text := by
      refine Decidable.byContradiction fun hne => ?_
      have hnone : ((sealedOnly text).withMaps N).gcmOpen
          ((sealedOnly text).withMaps N).masterKey iv ciphertext = none := if_neg hne
      cases hnone.symm.trans hopen
    obtain ⟨rfl, rfl⟩ := hpair
    exact ⟨_, List.mem_singleton_self _, ciphertext, sealed_sealedOnly hm htext⟩

end

/-- The map with the one key `n`. -/
def oneKey {N : Json.Floats} (v : Json.Any N.F) (hv : v.Proper) : Json.Map N where
  entries := [(Base64.ascii "n", v)]
  proper := .map (List.pairwise_singleton _ _) fun e he => by
    obtain rfl := List.mem_singleton.mp he
    exact hv

def oneInt : Json.Map wholeNumbers := oneKey (.int 1) (.int 1)

def oneFloat : Json.Map wholeNumbers := oneKey (.float64 ⟨1, by decide⟩) (.float64 _)

def oneText : Bytes := Base64.ascii "\x7b\"n\":1\x7d"

def storedOne : Identity (Json.Map wholeNumbers) := { attributes := some (stored oneText) }

theorem marshal_oneInt : oneInt.marshal = some oneText := by
  decide +kernel

theorem isStored_oneFloat : oneFloat.IsStored := by
  refine .map (fun e he => ?_) fun e he => ?_
  · obtain rfl := List.mem_singleton.mp he
    show Json.Any.IsText (Base64.ascii "n")
    decide
  · obtain rfl := List.mem_singleton.mp he
    exact .float64 _ rfl

theorem marshal_oneFloat : oneFloat.marshal = some oneText := by
  decide +kernel

theorem unmarshal_oneText : Json.Map.unmarshal oneText = some oneFloat := by
  obtain ⟨text, hmarshal, hunmarshal⟩ := Json.Map.unmarshal_marshal isStored_oneFloat
  rw [marshal_oneFloat] at hmarshal
  cases hmarshal
  exact hunmarshal

theorem float_comes_back :
    decryptAttributesInPlace ((sealedOnly oneText).withMaps wholeNumbers) storedOne =
      some (none, { storedOne with decryptedAttributes := some oneFloat }) := by
  have hexact := decryptAttributesInPlace_exact (sealedOnly oneText) wholeNumbers
    (ideal_sealedOnly (m := oneFloat) rfl marshal_oneFloat) rfl storedOne
  have hreturned : EncryptCall.Returned ((sealedOnly oneText).withMaps wholeNumbers)
      ⟨oneFloat, calm 0, smallWorld⟩ (storedOne.attributes.getD []) :=
    returned_sealedOnly rfl marshal_oneFloat
  exact (hexact.1 _ (List.mem_singleton_self _) hreturned).1 isStored_oneFloat

theorem oneFloat_ne_oneInt : oneFloat ≠ oneInt := by
  intro h
  have hentries := congrArg Json.Map.entries h
  cases hentries

/-- An integer comes back as a floating-point number. -/
theorem int_comes_back_as_float :
    ∃ c : EncryptCall (Json.Map wholeNumbers),
      IdealCipher ((sealedOnly oneText).withMaps wholeNumbers) [c] ∧
      (sealedOnly oneText).masterKey.length = 32 ∧ c.attrs.isEmpty = false ∧
      c.Returned ((sealedOnly oneText).withMaps wholeNumbers) (storedOne.attributes.getD []) ∧
      ∃ m, decryptAttributesInPlace ((sealedOnly oneText).withMaps wholeNumbers) storedOne =
        some (none, { storedOne with decryptedAttributes := some m }) ∧ m ≠ c.attrs := by
  have hideal := ideal_sealedOnly (m := oneInt) rfl marshal_oneInt
  have hreturned : EncryptCall.Returned ((sealedOnly oneText).withMaps wholeNumbers)
      ⟨oneInt, calm 0, smallWorld⟩ (storedOne.attributes.getD []) :=
    returned_sealedOnly rfl marshal_oneInt
  obtain ⟨text, htext, hdecrypt⟩ :=
    decryptAttributes_returned hideal rfl (List.mem_singleton_self _) hreturned
  have hsame : oneText = text := Option.some.inj (marshal_oneInt.symm.trans htext)
  have hread : ((sealedOnly oneText).withMaps wholeNumbers).unmarshal text = some oneFloat := by
    rw [unmarshal_withMaps, ← hsame, unmarshal_oneText]
  refine ⟨_, hideal, rfl, rfl, hreturned, oneFloat, ?_, oneFloat_ne_oneInt⟩
  rw [decryptAttributesInPlace_eq, hdecrypt, hread]
  rfl

end Verion.Service
