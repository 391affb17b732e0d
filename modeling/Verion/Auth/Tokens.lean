import Verion.Auth.World
import Verion.Library.Base64
import Verion.Library.Json

/-!
# Tokens (internal/auth/jwt.go)

A token is the header, the claims and the signature, each in base64url, with dots
between them. `Issue` signs the first two parts as they stand; `Verify` splits the
token again, checks the signature and then reads the claims. Ed25519 is a parameter.
A Go string is any sequence of bytes; what the JSON text of a string holds is
characters.
-/

namespace Verion.Auth.Jwt

/-! ### Issuing -/

/-- Claims as `Issue` is given them. -/
structure RawClaims where
  subject : Bytes
  issuedAt : Int
  expiresAt : Int
  issuer : Bytes
  tenantID : Bytes
  handle : Bytes
  type : Bytes
  sessionID : Bytes

structure TokenConfig where
  ttl : Time
  issuer : Bytes

/-- `ed25519.Sign` and `ed25519.Verify` with the two keys of the service. -/
structure Ed25519 where
  sign : Bytes → Bytes
  verify : Bytes → Bytes → Bool

inductive TokenError where
  | expired
  | invalid
deriving DecidableEq

/-- The fields of the payload, in the order of the struct. -/
inductive Field where
  | subject | issuedAt | expiresAt | issuer | tenantID | handle | type | sessionID
deriving DecidableEq

def Field.all : List Field :=
  [.subject, .issuedAt, .expiresAt, .issuer, .tenantID, .handle, .type, .sessionID]

/-- The `json` tags. -/
def Field.name : Field → List Char
  | .subject => "sub".toList
  | .issuedAt => "iat".toList
  | .expiresAt => "exp".toList
  | .issuer => "iss".toList
  | .tenantID => "tid".toList
  | .handle => "handle".toList
  | .type => "type".toList
  | .sessionID => "sid".toList

def Field.write (c : RawClaims) : Field → List Char
  | .subject => Json.quote c.subject
  | .issuedAt => Json.integer c.issuedAt
  | .expiresAt => Json.integer c.expiresAt
  | .issuer => Json.quote c.issuer
  | .tenantID => Json.quote c.tenantID
  | .handle => Json.quote c.handle
  | .type => Json.quote c.type
  | .sessionID => Json.quote c.sessionID

def jwtBase64 (b : Bytes) : Bytes := Base64.url.encode b

def mustJSONMarshal (fields : List (List Char × List Char)) : Bytes :=
  Utf8.encode (Json.printObject fields)

/-- The keys of a map are written in their order. -/
def header : List (List Char × List Char) :=
  [("alg".toList, Json.quote (Base64.ascii "EdDSA")),
    ("typ".toList, Json.quote (Base64.ascii "JWT"))]

def payload (c : RawClaims) : Bytes := mustJSONMarshal (Field.all.map fun f => (f.name, f.write c))

/-- The byte `.`. -/
def dot : UInt8 := 0x2E

def signingInput (c : RawClaims) : Bytes :=
  jwtBase64 (mustJSONMarshal header) ++ dot :: jwtBase64 (payload c)

/-- A token of claims that are complete. -/
def token (S : Ed25519) (c : RawClaims) : Bytes :=
  signingInput c ++ dot :: jwtBase64 (S.sign (signingInput c))

def stamped (cfg : TokenConfig) (claims : RawClaims) (sessionID : Bytes) (now : Time) : RawClaims :=
  { claims with
    issuedAt := unix now, expiresAt := unix (now + cfg.ttl), issuer := cfg.issuer, sessionID }

def issue (S : Ed25519) (cfg : TokenConfig) (claims : RawClaims) (sessionID : Bytes) (now : Time) :
    Bytes :=
  token S (stamped cfg claims sessionID now)

/-! ### Verifying -/

def field? (name : List Char) : Option Field :=
  Field.all.find? fun f => Json.foldName f.name == Json.foldName name

/-- `null` leaves a field as it is. -/
def Field.store (c : Claims) : Field → Json.Value → Option Claims
  | .subject, .string s => some { c with subject := String.ofList s }
  | .issuedAt, .number n => (Json.int64? n).map fun i => { c with issuedAt := i }
  | .expiresAt, .number n => (Json.int64? n).map fun i => { c with expiresAt := i }
  | .issuer, .string s => some { c with issuer := String.ofList s }
  | .tenantID, .string s => some { c with tenantID := String.ofList s }
  | .handle, .string s => some { c with handle := String.ofList s }
  | .type, .string s => some { c with type := String.ofList s }
  | .sessionID, .string s => some { c with sessionID := String.ofList s }
  | _, .null => some c
  | _, _ => none

/-- Members that name no field are passed over. -/
def storeMember (c : Claims) (m : List Char × Json.Value) : Option Claims :=
  match field? m.1 with
  | some f => f.store c m.2
  | none => some c

def zeroClaims : Claims where
  subject := ""
  tenantID := ""
  handle := ""
  type := ""

/-- What `json.Unmarshal` makes of the value of a payload. -/
def store : Json.Value → Option Claims
  | .null => some zeroClaims
  | .object members => members.foldlM storeMember zeroClaims
  | _ => none

def unmarshal (payloadJSON : Bytes) : Option Claims := (Json.parse payloadJSON).bind store

def valid (c : Claims) (now : Time) : Except TokenError Unit :=
  if unix now > c.expiresAt then .error .expired
  else if c.subject = "" ∨ c.tenantID = "" then .error .invalid
  else .ok ()

def orInvalid {α : Type} : Option α → Except TokenError α
  | some a => .ok a
  | none => .error .invalid

def verify (S : Ed25519) (token : Bytes) (now : Time) : Except TokenError Claims :=
  match token.splitOn dot with
  | [header, payload, signature] => do
    let sig ← orInvalid (Base64.url.decode signature)
    if S.verify (header ++ dot :: payload) sig then
      let payloadJSON ← orInvalid (Base64.url.decode payload)
      let claims ← orInvalid (unmarshal payloadJSON)
      valid claims now
      .ok claims
    else .error .invalid
  | _ => .error .invalid

/-! ### The payload -/

/-- A string as its JSON text holds it. -/
def text (s : Bytes) : String := String.ofList (Utf8.runes s)

def RawClaims.text (c : RawClaims) : Claims where
  subject := Jwt.text c.subject
  issuedAt := c.issuedAt
  expiresAt := c.expiresAt
  issuer := Jwt.text c.issuer
  tenantID := Jwt.text c.tenantID
  handle := Jwt.text c.handle
  type := Jwt.text c.type
  sessionID := Jwt.text c.sessionID

/-- What is read for a field. -/
def Field.value (c : RawClaims) : Field → Json.Value
  | .subject => .string (Utf8.runes c.subject)
  | .issuedAt => .number (Json.integer c.issuedAt)
  | .expiresAt => .number (Json.integer c.expiresAt)
  | .issuer => .string (Utf8.runes c.issuer)
  | .tenantID => .string (Utf8.runes c.tenantID)
  | .handle => .string (Utf8.runes c.handle)
  | .type => .string (Utf8.runes c.type)
  | .sessionID => .string (Utf8.runes c.sessionID)

theorem field?_name (f : Field) : field? f.name = some f := by
  cases f <;> decide +kernel

theorem bare_name (f : Field) : Json.Bare f.name := by
  cases f <;> decide +kernel

theorem reads_write (c : RawClaims) (f : Field) : Json.Reads 0 (f.write c) (f.value c) := by
  cases f
  case issuedAt => exact Json.reads_number 0 (Json.isNumber_integer _)
  case expiresAt => exact Json.reads_number 0 (Json.isNumber_integer _)
  all_goals exact Json.reads_quote 0 _

theorem parse_payload (c : RawClaims) :
    Json.parse (payload c) = some (.object (Field.all.map fun f => (f.name, f.value c))) := by
  refine @Json.parse_printObject 0 _ _ ?_ (by decide)
  rw [Json.Written, List.forall₂_map_left_iff, List.forall₂_map_right_iff, List.forall₂_same]
  exact fun f _ => ⟨Json.spells_bare (bare_name f), reads_write c f⟩

/-- The claims are read back, unless a time is no `int64`. -/
theorem unmarshal_payload (c : RawClaims) :
    unmarshal (payload c) =
      if Json.Int64 c.issuedAt ∧ Json.Int64 c.expiresAt then some c.text else none := by
  have hmembers : ∀ (fs : List Field) (z : Claims),
      (fs.map fun f => (f.name, f.value c)).foldlM storeMember z =
        fs.foldlM (fun z f => f.store z (f.value c)) z := by
    intro fs z
    rw [List.foldlM_map]
    simp only [storeMember, field?_name]
  rw [unmarshal, parse_payload, Option.bind_some, store, hmembers]
  simp only [Field.all, List.foldlM_cons, List.foldlM_nil, Field.store, Field.value,
    Json.int64?_integer, Option.bind_eq_bind, Option.bind_some, Option.pure_def]
  by_cases hiat : Json.Int64 c.issuedAt <;> by_cases hexp : Json.Int64 c.expiresAt <;>
    simp only [hiat, hexp, and_self, and_true, and_false, if_true, if_false] <;> rfl

/-! ### Splitting -/

theorem dot_notMem_base64 (b : Bytes) : dot ∉ jwtBase64 b := fun h =>
  absurd (Base64.url.mem_encode h) (by decide)

/-- The parts of what is signed are determined by it. -/
theorem parts_of_signingInput {c : RawClaims} {h p : Bytes} (heq : h ++ dot :: p = signingInput c) :
    h = jwtBase64 (mustJSONMarshal header) ∧ p = jwtBase64 (payload c) := by
  obtain ⟨hh, -, hp⟩ := (List.append_cons_inj_of_notMem (dot_notMem_base64 _)
    (dot_notMem_base64 _)).mp heq.symm
  exact ⟨hh.symm, hp.symm⟩

theorem splitOn_token (S : Ed25519) (c : RawClaims) :
    (token S c).splitOn dot = [jwtBase64 (mustJSONMarshal header), jwtBase64 (payload c),
      jwtBase64 (S.sign (signingInput c))] := by
  have hparts : ∀ part ∈ [jwtBase64 (mustJSONMarshal header), jwtBase64 (payload c),
      jwtBase64 (S.sign (signingInput c))], dot ∉ part := by
    simp only [List.forall_mem_cons, dot_notMem_base64, not_false_eq_true, true_and]
    exact fun _ h => nomatch h
  rw [← List.splitOn_intercalate dot hparts (List.cons_ne_nil _ _)]
  simp [token, signingInput, List.intercalate]

/-! ### What verifies -/

theorem valid_ok {c : Claims} {now : Time} :
    valid c now = .ok () ↔ unix now ≤ c.expiresAt ∧ c.subject ≠ "" ∧ c.tenantID ≠ "" := by
  unfold valid
  split
  case isTrue h => exact iff_of_false (fun h => nomatch h) fun h' => absurd h'.1 (by omega)
  case isFalse h =>
    split
    case isTrue hempty =>
      exact iff_of_false (fun h => nomatch h) fun h' => hempty.elim h'.2.1 h'.2.2
    case isFalse hempty =>
      exact iff_of_true rfl ⟨by omega, not_or.mp hempty⟩

/-- Claims with a subject and a tenant only expire. -/
theorem valid_eq {c : Claims} (hsubject : c.subject ≠ "") (htenant : c.tenantID ≠ "") (now : Time) :
    valid c now = if unix now ≤ c.expiresAt then .ok () else .error .expired := by
  unfold valid
  by_cases h : unix now ≤ c.expiresAt
  · rw [if_neg (by omega), if_neg (not_or.mpr ⟨hsubject, htenant⟩), if_pos h]
  · rw [if_pos (by omega), if_neg h]

theorem orInvalid_ok {α : Type} {x : Option α} {a : α} : orInvalid x = .ok a ↔ x = some a := by
  cases x with
  | none => exact iff_of_false (fun h => nomatch h) (fun h => nomatch h)
  | some b => exact ⟨fun h => congrArg some (Except.ok.inj h),
      fun h => congrArg _ (Option.some.inj h)⟩

/-- The three parts of a token that verifies. -/
theorem verify_ok {S : Ed25519} {token : Bytes} {now : Time} {c : Claims} :
    verify S token now = .ok c → ∃ header payload signature sig payloadJSON,
      token.splitOn dot = [header, payload, signature] ∧
      Base64.url.decode signature = some sig ∧ S.verify (header ++ dot :: payload) sig = true ∧
      Base64.url.decode payload = some payloadJSON ∧ unmarshal payloadJSON = some c ∧
      valid c now = .ok () := by
  intro h
  unfold verify at h
  split at h
  case h_2 => cases h
  case h_1 header payload signature hsplit =>
    obtain ⟨sig, hsig, h⟩ := Scan.ok_bind.mp h
    split at h
    case isFalse => cases h
    case isTrue hverified =>
      obtain ⟨payloadJSON, hpayload, h⟩ := Scan.ok_bind.mp h
      obtain ⟨claims, hclaims, h⟩ := Scan.ok_bind.mp h
      obtain ⟨⟨⟩, hvalid, h⟩ := Scan.ok_bind.mp h
      cases h
      exact ⟨header, payload, signature, sig, payloadJSON, hsplit, orInvalid_ok.mp hsig, hverified,
        orInvalid_ok.mp hpayload, orInvalid_ok.mp hclaims, hvalid⟩

/-- The token consists of a message and a signature for it, good or not. -/
def Carries (token m sig : Bytes) : Prop :=
  ∃ header payload signature, token.splitOn dot = [header, payload, signature] ∧
    m = header ++ dot :: payload ∧ Base64.url.decode signature = some sig

/-- A token that verifies holds the claims of a message that the signature is good for. -/
theorem verify_signed {S : Ed25519} {Signed : RawClaims → Prop} {token : Bytes} {now : Time}
    {c : Claims} (hideal : ∀ m sig, Carries token m sig → S.verify m sig = true →
      ∃ c, Signed c ∧ m = signingInput c)
    (h : verify S token now = .ok c) :
    ∃ raw, Signed raw ∧ unmarshal (payload raw) = some c ∧ valid c now = .ok () := by
  obtain ⟨hd, p, signature, sig, payloadJSON, hsplit, hsig, hverified, hdecode, hclaims, hvalid⟩ :=
      verify_ok h
  obtain ⟨raw, hsigned, hinput⟩ := hideal _ _ ⟨hd, p, signature, hsplit, rfl, hsig⟩ hverified
  obtain ⟨-, rfl⟩ := parts_of_signingInput hinput
  rw [jwtBase64, Base64.url.decode_encode] at hdecode
  cases hdecode
  exact ⟨raw, hsigned, hclaims, hvalid⟩

/-- What the token of claims is verified to. -/
theorem verify_token {S : Ed25519} (hS : ∀ m, S.verify m (S.sign m) = true) (raw : RawClaims)
    (now : Time) :
    verify S (token S raw) now = orInvalid (unmarshal (payload raw)) >>= fun claims =>
      valid claims now >>= fun _ => .ok claims := by
  have hverified : S.verify (jwtBase64 (mustJSONMarshal header) ++ dot :: jwtBase64 (payload raw))
      (S.sign (signingInput raw)) = true := hS (signingInput raw)
  have hdecode : ∀ b, Base64.url.decode (jwtBase64 b) = some b := Base64.url.decode_encode
  rw [verify, splitOn_token]
  dsimp only
  rw [hdecode, hdecode]
  exact if_pos hverified

/-! ### Texts -/

def utf8 (s : String) : Bytes := Utf8.encode s.toList

theorem text_utf8 (s : String) : text (utf8 s) = s := by
  rw [text, utf8, Utf8.runes_encode, String.ofList_toList]

/-- Claims whose strings are UTF-8. -/
def raw (c : Claims) : RawClaims where
  subject := utf8 c.subject
  issuedAt := c.issuedAt
  expiresAt := c.expiresAt
  issuer := utf8 c.issuer
  tenantID := utf8 c.tenantID
  handle := utf8 c.handle
  type := utf8 c.type
  sessionID := utf8 c.sessionID

theorem text_raw (c : Claims) : (raw c).text = c := by
  simp only [raw, RawClaims.text, text_utf8]

/-! ### Round trip -/

theorem verify_complete {S : Ed25519} (hS : ∀ m, S.verify m (S.sign m) = true) (c : Claims)
    (hsubject : c.subject ≠ "") (htenant : c.tenantID ≠ "") (hiat : Json.Int64 c.issuedAt)
    (hexp : Json.Int64 c.expiresAt) (now : Time) :
    verify S (token S (raw c)) now =
      if unix now ≤ c.expiresAt then .ok c else .error .expired := by
  rw [verify_token hS, unmarshal_payload, if_pos ⟨hiat, hexp⟩, text_raw]
  change (valid c now >>= fun _ => Except.ok c) = _
  rw [valid_eq hsubject htenant]
  split <;> rfl

/-- Whatever characters the claims have, a token that is issued verifies to them up to the
second it expires in, and is expired in every later one. The times are such as `Unix`
yields. -/
theorem verify_issue {S : Ed25519} (hS : ∀ m, S.verify m (S.sign m) = true) (ttl : Time)
    (issuer : String) (c : Claims) (sessionID : String) (now : Time)
    (hsubject : c.subject ≠ "") (htenant : c.tenantID ≠ "")
    (hiat : Json.Int64 (unix now)) (hexp : Json.Int64 (unix (now + ttl))) (later : Time) :
    verify S (issue S ⟨ttl, utf8 issuer⟩ (raw c) (utf8 sessionID) now) later =
      if unix later ≤ unix (now + ttl) then
        .ok { c with issuedAt := unix now, expiresAt := unix (now + ttl), issuer, sessionID }
      else .error .expired := by
  -- the claims are stamped before they are written
  have hstamped : stamped ⟨ttl, utf8 issuer⟩ (raw c) (utf8 sessionID) now =
      raw { c with issuedAt := unix now, expiresAt := unix (now + ttl), issuer, sessionID } := rfl
  rw [issue, hstamped]
  exact verify_complete hS { c with
    issuedAt := unix now, expiresAt := unix (now + ttl), issuer, sessionID } hsubject htenant hiat
    hexp later

/-- The strings hold quotes, line breaks, markup and dots. -/
def oddClaims : Claims where
  subject := "a.\"b\\"
  tenantID := "<t>&\n\x01"
  handle := "é\u2028"
  type := ""

/-- A signature that repeats the message. -/
def echo : Ed25519 where
  sign m := m
  verify m sig := m == sig

theorem odd_round_trip :
    verify echo (issue echo ⟨1000000000, utf8 "verion"⟩ (raw oddClaims) (utf8 "s") 5000000000)
      6999999999 = .ok { oddClaims with
        issuedAt := 5, expiresAt := 6, issuer := "verion", sessionID := "s" } ∧
    verify echo (issue echo ⟨1000000000, utf8 "verion"⟩ (raw oddClaims) (utf8 "s") 5000000000)
      7000000000 = .error .expired := by
  have hrun := verify_issue (S := echo) (fun m => beq_self_eq_true m) 1000000000 "verion" oddClaims
    "s" 5000000000 (by decide) (by decide) (by decide) (by decide)
  exact ⟨(hrun 6999999999).trans (if_pos (by decide)), (hrun 7000000000).trans (if_neg (by decide))⟩

/-! ### Authenticity -/

/-- A call of `Issue`. -/
structure Call where
  claims : RawClaims
  sessionID : Bytes
  now : Time

/-- The claims that a call signs. -/
def Call.signed (cfg : TokenConfig) (call : Call) : RawClaims :=
  stamped cfg call.claims call.sessionID call.now

/-- No signature is good for a message but one that a call has signed. -/
def Ideal (S : Ed25519) (cfg : TokenConfig) (calls : List Call) : Prop :=
  ∀ m sig, S.verify m sig = true → ∃ call ∈ calls, m = signingInput (call.signed cfg)

/-- The claims that a token encodes, as `Verify` reads them. -/
def encodedClaims (token : Bytes) : Option Claims :=
  match token.splitOn dot with
  | [_, payload, _] => (Base64.url.decode payload).bind unmarshal
  | _ => none

theorem encodedClaims_token (S : Ed25519) (c : RawClaims) :
    encodedClaims (token S c) = unmarshal (payload c) := by
  rw [encodedClaims, splitOn_token]
  exact congrArg (Option.bind · unmarshal) (Base64.url.decode_encode _)

theorem text_of_unmarshal {c : RawClaims} {claims : Claims}
    (h : unmarshal (payload c) = some claims) :
    c.text = claims := by
  rw [unmarshal_payload] at h
  split at h
  · exact Option.some.inj h
  · cases h

/-- Whatever string is presented, claims that verify are the claims of a token that was
issued, in every field. -/
theorem verify_authentic {S : Ed25519} {cfg : TokenConfig} {calls : List Call}
    (hideal : Ideal S cfg calls) {presented : Bytes} {now : Time} {c : Claims}
    (h : verify S presented now = .ok c) :
    (∃ call ∈ calls, encodedClaims (issue S cfg call.claims call.sessionID call.now) = some c ∧
      (call.signed cfg).text = c) ∧
    unix now ≤ c.expiresAt ∧ c.subject ≠ "" ∧ c.tenantID ≠ "" := by
  have hsigned : ∀ m sig, S.verify m sig = true →
      ∃ c, (∃ call ∈ calls, call.signed cfg = c) ∧ m = signingInput c := by
    intro m sig hm
    obtain ⟨call, hcall, rfl⟩ := hideal m sig hm
    exact ⟨_, ⟨call, hcall, rfl⟩, rfl⟩
  obtain ⟨_, ⟨call, hcall, rfl⟩, hclaims, hvalid⟩ := verify_signed (fun m sig _ => hsigned m sig) h
  exact ⟨⟨call, hcall, (encodedClaims_token S _).trans hclaims, text_of_unmarshal hclaims⟩,
    valid_ok.mp hvalid⟩

def adaCall : Call where
  claims := raw { subject := "ada", tenantID := "acme", handle := "a", type := "human" }
  sessionID := utf8 "s"
  now := 5000000000

def plainConfig : TokenConfig := ⟨1000000000, utf8 "verion"⟩

/-- Signatures that are good for the message of one call only. -/
def adaKey : Ed25519 where
  sign _ := [1, 2]
  verify m sig := m == signingInput (adaCall.signed plainConfig) && sig == [1, 2]

theorem ada_authentic :
    let presented := issue adaKey plainConfig adaCall.claims adaCall.sessionID adaCall.now
    ∃ c, verify adaKey presented 6000000000 = .ok c ∧
      ∃ call ∈ [adaCall],
        encodedClaims (issue adaKey plainConfig call.claims call.sessionID call.now) =
        some c ∧ (call.signed plainConfig).text = c := by
  have hideal : Ideal adaKey plainConfig [adaCall] := by
    intro m sig h
    exact ⟨adaCall, List.mem_cons_self, beq_iff_eq.mp (Bool.and_eq_true_iff.mp h).1⟩
  have hok : verify adaKey (issue adaKey plainConfig adaCall.claims adaCall.sessionID adaCall.now)
      6000000000 = .ok (adaCall.signed plainConfig).text := by decide +kernel
  exact ⟨_, hok, (verify_authentic hideal hok).1⟩

end Verion.Auth.Jwt
