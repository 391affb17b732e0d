import Verion.Service.Signing

/-!
# Signatures that verify

`CryptoService.Sign` hands its data to the key store as it is. The key store signs
it with an Ed25519 key, and takes it for a SHA-256 digest with an ECDSA key, so
nobody hashes what is signed with ECDSA.
-/

namespace Verion.Service

open Calls Postgres

variable {Attrs : Type}

/-- What the standard library does with a private key and with the DER of a public one. The
message of an ECDSA key is a digest. -/
structure Signatures where
  signature : PrivateKey → Bytes → Except Error Bytes
  verify : KeyAlgorithm → Bytes → Bytes → Bytes → Bool

/-- What a key signs: any message with Ed25519, a digest of 32 bytes with ECDSA P-256.
`crypto/ecdsa` cuts a longer one to the size of the curve. -/
def Signable : KeyAlgorithm → Bytes → Prop
  | .ed25519, _ => True
  | .ecdsaP256, message => message.length = 32

/-- Signing succeeds, and of what can be signed verification accepts the message that was and no
other. -/
structure Signatures.Inverse (S : Signatures) (P : Primitives Attrs) : Prop where
  digest : ∀ data, (P.sha256 data).length = 32
  signs : ∀ key message, Signable key.algorithm message →
    ∃ sig, S.signature key message = .ok sig ∧ ∀ message', Signable key.algorithm message' →
      (S.verify key.algorithm (P.publicKeyDER key) message' sig = true ↔ message' = message)

/-- What a signature of the data is verified against. -/
def signedForm (P : Primitives Attrs) : KeyAlgorithm → Bytes → Bytes
  | .ed25519, data => data
  | .ecdsaP256, data => P.sha256 data

/-- Calls one after another. -/
def history (P : Primitives Attrs) : List (Op Attrs × Env) → World → World
  | [], w => w
  | (c, e) :: rest, w => history P rest (exec P c e w).2

/-- The call stores no key under the name and does not delete it. -/
def Spares (keyRef : String) : Op Attrs → Prop
  | .generateKey _ keyID => keyRef ≠ keyRefOf keyID
  | .deleteKey ref => keyRef ≠ ref
  | _ => True

theorem exec_spares {P : Primitives Attrs} {keyRef : String} {c : Op Attrs} (h : Spares keyRef c)
    (e : Env) (w : World) : (exec P c e w).2.keys keyRef = w.keys keyRef := by
  refine ((exec_storeStep P c e w).other fun algorithm keyID g hev => ?_).resolve_right ?_
  · obtain rfl : c = _ := congrArg Event.op hev
    exact h
  · rintro ⟨-, r, hev⟩
    obtain rfl : c = _ := congrArg Event.op hev
    exact h rfl

theorem history_spares {P : Primitives Attrs} {keyRef : String} (calls : List (Op Attrs × Env)) :
    (∀ x ∈ calls, Spares keyRef x.1) → ∀ w, (history P calls w).keys keyRef = w.keys keyRef := by
  induction calls with
  | nil => exact fun _ _ => rfl
  | cons x rest ih =>
    intro h w
    rw [List.forall_mem_cons] at h
    exact (ih h.2 _).trans (exec_spares h.1 x.2 w)

/-- A key that was generated is held under its name. -/
theorem generateKey_holds {P : Primitives Attrs} {algorithm : KeyAlgorithm}
    {keyID : String} {e : Env}
    {w : World} {generated : GeneratedKey}
    (h : (exec P (.generateKey algorithm keyID) e w).1 = .ok generated) :
    ∃ key : PrivateKey, key.algorithm = algorithm ∧ P.publicKeyDER key = generated.publicKeyDER ∧
      hasKeyRefPrefix generated.keyRef = true ∧
      (exec P (.generateKey algorithm keyID) e w).2.keys generated.keyRef = some key := by
  have hexec : exec P (.generateKey algorithm keyID) e w =
      generateAndStore P algorithm keyID e.secret w := by cases algorithm <;> rfl
  rw [hexec] at h ⊢
  unfold generateAndStore store at h ⊢
  cases hsecret : e.secret with
  | none => simp [hsecret] at h
  | some secret =>
    by_cases hname : keyID = ""
    · simp [hsecret, hname] at h
    · simp only [hsecret, hname, if_false, Except.ok.injEq] at h ⊢
      subst h
      exact ⟨⟨algorithm, secret⟩, rfl, rfl, hasKeyRefPrefix_keyRefOf keyID, if_pos rfl⟩

/-- With a generated key that was neither overwritten nor deleted, `Sign` yields a signature of
the data just if the key is an Ed25519 one or the data is its own digest. -/
theorem sign_verifies_iff (P : Primitives Attrs) (S : Signatures) (hS : S.Inverse P)
    (algorithm : KeyAlgorithm) (keyID : String) (e : Env) (w : World) (generated : GeneratedKey)
    (hgenerated : (exec P (.generateKey algorithm keyID) e w).1 = .ok generated)
    (calls : List (Op Attrs × Env)) (hcalls : ∀ x ∈ calls, Spares generated.keyRef x.1)
    (data : Bytes) :
    (∃ sig, sign S.signature generated.keyRef data
        (history P calls (exec P (.generateKey algorithm keyID) e w).2) = .ok sig ∧
      S.verify algorithm generated.publicKeyDER (signedForm P algorithm data) sig = true) ↔
    algorithm = .ed25519 ∨ (data.length = 32 ∧ P.sha256 data = data) := by
  obtain ⟨key, rfl, hpub, hprefix, hkey⟩ := generateKey_holds hgenerated
  have hsigns := hS.signs key data
  rw [hpub] at hsigns
  simp only [sign, hprefix, if_true, history_spares calls hcalls, hkey]
  cases halg : key.algorithm with
  | ed25519 =>
    rw [halg] at hsigns
    obtain ⟨sig, hsig, hverify⟩ := hsigns trivial
    simp [hsig, Except.mapError, signedForm, hverify data trivial]
  | ecdsaP256 =>
    rw [halg] at hsigns
    by_cases hlength : data.length = 32
    · obtain ⟨sig, hsig, hverify⟩ := hsigns hlength
      have hdigest := hverify (P.sha256 data) (hS.digest data)
      simp [hsig, hlength, Except.mapError, signedForm, hdigest]
    · simp [hlength]

/-! ### Three bytes -/

/-- A signature is the public half of the key with the message. -/
def plainSignatures : Signatures where
  signature key message := .ok (key.secret ++ 0 :: message)
  verify _ publicKey message sig := sig == publicKey ++ 0 :: message

/-- With 32 bytes for every digest. -/
def paddedDigests : Primitives Bytes :=
  { plainPrimitives with sha256 := fun data => (data ++ List.replicate 32 0).take 32 }

theorem plainSignatures_inverse : plainSignatures.Inverse paddedDigests where
  digest data := by simp [paddedDigests]
  signs key message _ := by
    refine ⟨_, rfl, fun message' _ => ?_⟩
    simp only [plainSignatures, paddedDigests, plainPrimitives, beq_iff_eq,
      List.append_cancel_left_eq, List.cons.injEq, true_and]
    exact eq_comm

/-- An Ed25519 key signs three bytes, with another key generated in between. -/
theorem ed25519_signs_three :
    let generated := exec paddedDigests (.generateKey .ed25519 "k") (calm 7) smallWorld
    ∃ sig, sign plainSignatures.signature "local://k" [1, 2, 3] (history paddedDigests
        [(.generateKey .ecdsaP256 "l", calm 8)] generated.2) = .ok sig ∧
      plainSignatures.verify .ed25519 [7] [1, 2, 3] sig = true := by
  intro generated
  have hok : generated.1 =
      .ok ⟨[7], [7], "local://k", hexText (paddedDigests.sha256 [7])⟩ := by decide +kernel
  refine (sign_verifies_iff paddedDigests plainSignatures plainSignatures_inverse .ed25519 "k"
    (calm 7) smallWorld _ hok [(.generateKey .ecdsaP256 "l", calm 8)] ?_ [1, 2, 3]).mpr (.inl rfl)
  simp [Spares, keyRefOf, keyRefPrefix]

/-- An ECDSA key refuses them. -/
theorem ecdsa_refuses_three :
    let generated := exec plainPrimitives (.generateKey .ecdsaP256 "k") (calm 7) smallWorld
    generated.1 = .ok ⟨[7], [7], "local://k", "07"⟩ ∧
    sign plainSignatures.signature "local://k" [1, 2, 3] generated.2 = .error (.text
      "local keystore: ecdsa sign: data must be a 32-byte SHA-256 digest, got 3 bytes") := by
  decide

end Verion.Service
