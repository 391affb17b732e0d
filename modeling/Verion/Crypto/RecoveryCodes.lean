import Verion.Identity.Model
import Verion.Library.Base64
import Verion.Library.Scan

/-!
# Recovery code hashes (internal/crypto/hash.go)

A code is kept as `$argon2id$v=19$m=<mem>,t=<time>,p=<threads>$<salt>$<hash>` and
checked by parsing that text and hashing again. Argon2id is a parameter. A Go string
is any sequence of bytes.
-/

namespace Verion.Crypto

open Scan

/-! ### Hashing -/

/-- `argon2.IDKey`, which yields as many bytes as it is asked for. -/
structure Argon2 where
  idKey (password salt : Bytes) (time memory : UInt32) (threads : UInt8) (keyLen : UInt32) : Bytes
  length_idKey : ∀ password salt time memory threads keyLen,
    (idKey password salt time memory threads keyLen).length = keyLen.toNat

/-- What `argon2.IDKey` asks of its parameters. -/
def Callable (time : UInt32) (threads : UInt8) (keyLen : UInt32) : Prop :=
  time ≠ 0 ∧ threads ≠ 0 ∧ keyLen ≠ 0

instance (time : UInt32) (threads : UInt8) (keyLen : UInt32) :
    Decidable (Callable time threads keyLen) := inferInstanceAs (Decidable (_ ∧ _ ∧ _))

/-- A call; `none` is a panic. -/
def Argon2.call (A : Argon2) (password salt : Bytes) (time memory : UInt32) (threads : UInt8)
    (keyLen : UInt32) : Option Bytes :=
  if Callable time threads keyLen then some (A.idKey password salt time memory threads keyLen)
  else none

structure Config where
  argon2Time : UInt32
  argon2Memory : UInt32
  argon2Threads : UInt8
  argon2KeyLen : UInt32

inductive HashError where
  | generateSalt                       -- argon2id hash: generate salt: %w
  | segments (got : Nat)               -- invalid hash format: expected 6 segments, got %d
  | notArgon2id                        -- invalid hash format: not argon2id
  | badVersion (e : Failure)           -- invalid hash format: bad version: %w
  | unsupportedVersion (version : Int) -- invalid hash format: unsupported argon2 version %d
  | badParams (e : Failure)            -- invalid hash format: bad params: %w
  | badSalt                            -- invalid hash format: bad salt: %w
  | badHash                            -- invalid hash format: bad hash: %w
  | verify (e : HashError)             -- argon2id verify: %w
deriving DecidableEq

def argon2Version : Nat := 19

def text (s : String) : Bytes := Utf8.encode s.toList

def decimal (n : Nat) : Bytes := Utf8.encode (Nat.toDigits 10 n)

/-- The format of `hashArgon2id` (`hash.go:34-42`). -/
def encoded (memory time : UInt32) (threads : UInt8) (salt hash : Bytes) : Bytes :=
  text "$argon2id$v=" ++ decimal argon2Version ++ text "$m=" ++ decimal memory.toNat ++
    text ",t=" ++ decimal time.toNat ++ text ",p=" ++ decimal threads.toNat ++
    text "$" ++ Base64.std.encode salt ++ text "$" ++ Base64.std.encode hash

/-- `salt` is what the random source yields, if it yields anything. -/
def hashArgon2id (A : Argon2) (code : Bytes) (cfg : Config) (salt : Option Bytes) :
    Option (Except HashError Bytes) :=
  match salt with
  | none => some (.error .generateSalt)
  | some salt =>
    (A.call code salt cfg.argon2Time cfg.argon2Memory cfg.argon2Threads cfg.argon2KeyLen).map
      fun hash => .ok (encoded cfg.argon2Memory cfg.argon2Time cfg.argon2Threads salt hash)

/-! ### Parsing -/

structure Argon2Params where
  time : UInt32
  memory : UInt32
  threads : UInt8
deriving DecidableEq

/-- The byte `$`. -/
def dollar : UInt8 := 0x24

/-- `v=%d` into an `int`. -/
def versionFormat : List Directive := [.literal "v=", .int 64]

/-- `m=%d,t=%d,p=%d` into `uint32`s. -/
def paramsFormat : List Directive :=
  [.literal "m=", .uint 32, .literal ",t=", .uint 32, .literal ",p=", .uint 32]

def check (cond : Prop) [Decidable cond] (e : HashError) : Except HashError Unit :=
  if cond then .ok () else .error e

def orElse {α : Type} (e : HashError) : Option α → Except HashError α
  | some a => .ok a
  | none => .error e

/-- The segment before the first `$` is not looked at, and `p` is cut to eight bits
(`hash.go:85`, `hash.go:104`). -/
def parseArgon2idHash (encoded : Bytes) : Except HashError (Argon2Params × Bytes × Bytes) :=
  match encoded.splitOn dollar with
  | [_, name, version, params, salt, hash] => do
    check (name = text "argon2id") .notArgon2id
    let scanned ← (sscanf version versionFormat).mapError .badVersion
    check (scanned.getD 0 0 = argon2Version) (.unsupportedVersion (scanned.getD 0 0))
    let scanned ← (sscanf params paramsFormat).mapError .badParams
    let mem := UInt32.ofInt (scanned.getD 0 0)
    let t := UInt32.ofInt (scanned.getD 1 0)
    let p := UInt32.ofInt (scanned.getD 2 0)
    let salt ← orElse .badSalt (Base64.std.decode salt)
    let hash ← orElse .badHash (Base64.std.decode hash)
    .ok (⟨t, mem, p.toUInt8⟩, salt, hash)
  | parts => .error (.segments parts.length)

def verifyArgon2id (A : Argon2) (code hashStr : Bytes) : Option (Except HashError Bool) :=
  match parseArgon2idHash hashStr with
  | .error e => some (.error (.verify e))
  | .ok (params, salt, expectedHash) =>
    (A.call code salt params.time params.memory params.threads
      (UInt32.ofNat expectedHash.length)).map
      fun actualHash => .ok (actualHash == expectedHash)

/-! ### The accepted language -/

/-- The texts that are accepted, with the three numbers as they are written. -/
inductive Accepts : Bytes → Nat → Nat → Nat → Bytes → Bytes → Prop where
  | mk {s first version params saltText hashText salt hash : Bytes} {m t p : Nat}
      (hsplit : s.splitOn dollar =
        [first, text "argon2id", version, params, saltText, hashText])
      (hversion : Matches versionFormat ((Utf8.runes version).take limit) [argon2Version])
      (hparams : Matches paramsFormat ((Utf8.runes params).take limit) [m, t, p])
      (hsalt : Base64.std.decode saltText = some salt)
      (hhash : Base64.std.decode hashText = some hash) : Accepts s m t p salt hash

theorem check_ok {cond : Prop} [Decidable cond] {e : HashError} {u : Unit} :
    check cond e = .ok u ↔ cond := by
  unfold check
  split
  case isTrue h => exact iff_of_true rfl h
  case isFalse h => exact iff_of_false (fun h => nomatch h) h

theorem orElse_ok {α : Type} {e : HashError} {x : Option α} {a : α} :
    orElse e x = .ok a ↔ x = some a := by
  cases x with
  | none => exact iff_of_false (fun h => nomatch h) fun h => nomatch h
  | some b => exact ⟨fun h => congrArg some (Except.ok.inj h),
      fun h => congrArg _ (Option.some.inj h)⟩

theorem mapError_ok {α : Type} {f : Failure → HashError} {x : Except Failure α} {a : α} :
    x.mapError f = .ok a ↔ x = .ok a := by
  cases x with
  | error e => exact iff_of_false (fun h => nomatch h) fun h => nomatch h
  | ok b => exact ⟨fun h => congrArg _ (Except.ok.inj h), fun h => congrArg _ (Except.ok.inj h)⟩

/-- The numbers of the parameters are below `2 ^ 32`. -/
theorem paramsFormat_values {input : List Char} {vs : List Int}
    (h : Matches paramsFormat input vs) :
    ∃ m t p : Nat, vs = [(m : Int), (t : Int), (p : Int)] ∧ m < 2 ^ 32 ∧ t < 2 ^ 32 ∧
      p < 2 ^ 32 := by
  obtain ⟨_, -, h₁⟩ := h.of_literal
  obtain ⟨m, _, vs₁, hvs₁, hm, h₂⟩ := h₁.of_uint
  obtain ⟨_, -, h₃⟩ := h₂.of_literal
  obtain ⟨t, _, vs₂, hvs₂, ht, h₄⟩ := h₃.of_uint
  obtain ⟨_, -, h₅⟩ := h₄.of_literal
  obtain ⟨p, _, vs₃, hvs₃, hp, h₆⟩ := h₅.of_uint
  exact ⟨m, t, p, by rw [hvs₁, hvs₂, hvs₃, h₆.of_nil], hm, ht, hp⟩

theorem versionFormat_values {input : List Char} {vs : List Int}
    (h : Matches versionFormat input vs) :
    ∃ v, vs = [v] := by
  obtain ⟨_, -, h₁⟩ := h.of_literal
  obtain ⟨v, _, vs', hvs, h₂⟩ := h₁.of_int
  exact ⟨v, by rw [hvs, h₂.of_nil]⟩

theorem ofInt_natCast (n : Nat) : UInt32.ofInt (n : Int) = UInt32.ofNat n := by
  apply UInt32.toNat_inj.mp
  simp only [UInt32.ofInt, UInt32.toNat_ofNat']
  omega

/-- What the parser returns: the numbers as they are written, `p` cut to eight bits. -/
theorem parse_ok_iff {s : Bytes} {params : Argon2Params} {salt hash : Bytes} :
    parseArgon2idHash s = .ok (params, salt, hash) ↔ ∃ m t p, Accepts s m t p salt hash ∧
      params = ⟨UInt32.ofNat t, UInt32.ofNat m, UInt8.ofNat p⟩ := by
  have hnumbers : ∀ m t p : Nat, (⟨UInt32.ofInt ([(m : Int), (t : Int), (p : Int)].getD 1 0),
      UInt32.ofInt ([(m : Int), (t : Int), (p : Int)].getD 0 0),
      (UInt32.ofInt ([(m : Int), (t : Int), (p : Int)].getD 2 0)).toUInt8⟩ : Argon2Params) =
      ⟨UInt32.ofNat t, UInt32.ofNat m, UInt8.ofNat p⟩ := by
    intro m t p
    simp only [List.getD_cons_zero, List.getD_cons_succ, ofInt_natCast, UInt32.toUInt8_ofNat']
  unfold parseArgon2idHash
  split
  case h_1 first name version paramsText saltText hashText hsplit =>
    simp only [ok_bind, check_ok, orElse_ok, mapError_ok, sscanf, scanf_ok, exists_and_left]
    constructor
    · rintro ⟨rfl, -, vs, hversion, hv, -, ws, hparams, salt', hsalt, hash', hhash, h⟩
      obtain ⟨v, rfl⟩ := versionFormat_values hversion
      obtain rfl : v = argon2Version := hv
      obtain ⟨m, t, p, rfl, -⟩ := paramsFormat_values hparams
      rw [hnumbers] at h
      cases h
      exact ⟨m, t, p, .mk hsplit hversion hparams hsalt hhash, rfl⟩
    · rintro ⟨m, t, p, ⟨hsplit', hversion, hparams, hsalt, hhash⟩, rfl⟩
      rw [hsplit] at hsplit'
      cases hsplit'
      exact ⟨rfl, (), _, hversion, rfl, (), _, hparams, _, hsalt, _, hhash, by rw [hnumbers]⟩
  case h_2 parts hother =>
    refine iff_of_false (fun h => nomatch h) ?_
    rintro ⟨m, t, p, ⟨hsplit, -⟩, -⟩
    exact hother _ _ _ _ _ _ hsplit

/-! ### What `hashArgon2id` writes -/

def paramsText (m t p : Nat) : List Char :=
  "m=".toList ++ (Nat.toDigits 10 m ++ (",t=".toList ++ (Nat.toDigits 10 t ++
    (",p=".toList ++ (Nat.toDigits 10 p ++ [])))))

/-- The segments of an encoded hash. -/
def segments (m t p : Nat) (saltText hashText : Bytes) : List Bytes :=
  [[], text "argon2id", text "v=19", Utf8.encode (paramsText m t p), saltText, hashText]

theorem encoded_eq (memory time : UInt32) (threads : UInt8) (salt hash : Bytes) :
    encoded memory time threads salt hash = [dollar].intercalate
      (segments memory.toNat time.toNat threads.toNat (Base64.std.encode salt)
        (Base64.std.encode hash)) := by
  have hhead : text "$argon2id$v=" ++ decimal argon2Version =
      dollar :: text "argon2id" ++ dollar :: text "v=19" := by decide
  have hm : text "$m=" = dollar :: Utf8.encode "m=".toList := by decide
  have hdollar : text "$" = [dollar] := by decide
  unfold encoded
  rw [hhead, hm, hdollar]
  simp only [segments, paramsText, decimal, text, Utf8.encode_append, List.intercalate_cons_cons,
    List.intercalate_singleton, List.append_assoc, List.cons_append, List.nil_append]
  rfl

theorem dollar_not_mem_paramsText (m t p : Nat) : '$' ∉ paramsText m t p := by
  have hdigits : ∀ n, '$' ∉ Nat.toDigits 10 n := fun n h =>
    absurd (Nat.isDigit_of_mem_toDigits (by decide) (by decide) h) (by decide)
  simp only [paramsText, List.mem_append, List.not_mem_nil, hdigits, or_false, false_or]
  decide

theorem dollar_not_mem_segments (m t p : Nat) (salt hash : Bytes) :
    ∀ l ∈ segments m t p (Base64.std.encode salt) (Base64.std.encode hash), dollar ∉ l := by
  have hbase64 : ∀ bs, dollar ∉ Base64.std.encode bs := fun bs h =>
    absurd (Base64.Alphabet.mem_encode h) (by decide)
  have hparams : dollar ∉ Utf8.encode (paramsText m t p) := fun h =>
    dollar_not_mem_paramsText m t p (Utf8.mem_encode (by decide) h)
  simp only [segments, List.forall_mem_cons]
  exact ⟨by decide, by decide, by decide, hparams, hbase64 salt, hbase64 hash, by simp⟩

theorem splitOn_encoded (memory time : UInt32) (threads : UInt8) (salt hash : Bytes) :
    (encoded memory time threads salt hash).splitOn dollar =
      segments memory.toNat time.toNat threads.toNat (Base64.std.encode salt)
        (Base64.std.encode hash) := by
  rw [encoded_eq]
  exact List.splitOn_intercalate dollar (dollar_not_mem_segments _ _ _ _ _) (List.cons_ne_nil _ _)

theorem matches_paramsText {m t p : Nat} (hm : m < 2 ^ 32) (ht : t < 2 ^ 32) (hp : p < 2 ^ 32) :
    Matches paramsFormat ((Utf8.runes (Utf8.encode (paramsText m t p))).take limit)
      [(m : Int), (t : Int), (p : Int)] := by
  have hdigits : ∀ n, n < 2 ^ 32 → (Nat.toDigits 10 n).length ≤ 10 := fun n h =>
    (Nat.length_toDigits_le_iff (by decide) (by decide)).mpr (Nat.lt_trans h (by decide))
  have hlength : (paramsText m t p).length ≤ limit := by
    have := hdigits m hm
    have := hdigits t ht
    have := hdigits p hp
    simp only [paramsText, List.length_append, List.length_nil, limit,
      show "m=".toList.length = 2 from rfl, show ",t=".toList.length = 3 from rfl,
      show ",p=".toList.length = 3 from rfl]
    omega
  have hcomma : ∀ rest : List Char, NoDigit (',' :: rest) := by
    rintro rest c ⟨⟩
    rfl
  rw [Utf8.runes_encode, List.take_of_length_le hlength]
  refine .literal _ (.toDigits hm (hcomma _) (.literal _ (.toDigits ht (hcomma _) (.literal _
    (.toDigits hp (fun _ h => nomatch h) (.nil _))))))

theorem accepts_encoded (memory time : UInt32) (threads : UInt8) (salt hash : Bytes) :
    Accepts (encoded memory time threads salt hash) memory.toNat time.toNat threads.toNat salt
      hash := by
  refine .mk (splitOn_encoded memory time threads salt hash) ?_ (matches_paramsText
    memory.toNat_lt time.toNat_lt (Nat.lt_trans threads.toNat_lt (by decide)))
    (Base64.Alphabet.decode_encode salt) (Base64.Alphabet.decode_encode hash)
  rw [text, Utf8.runes_encode]
  exact (scanf_ok _).mp (by decide)

/-- The parser gives back what was encoded. -/
theorem parse_encoded (memory time : UInt32) (threads : UInt8) (salt hash : Bytes) :
    parseArgon2idHash (encoded memory time threads salt hash) =
      .ok (⟨time, memory, threads⟩, salt, hash) := by
  refine parse_ok_iff.mpr ⟨_, _, _, accepts_encoded memory time threads salt hash, ?_⟩
  rw [UInt32.ofNat_toNat, UInt32.ofNat_toNat, UInt8.ofNat_toNat]

/-! ### Round trip -/

/-- With parameters that Argon2id accepts, the hash of a code is parsed into the parameters, the
salt and the hash it was made of, and verifies just the codes with the same hash. -/
theorem hash_round_trip (A : Argon2) (cfg : Config)
    (hcfg : Callable cfg.argon2Time cfg.argon2Threads cfg.argon2KeyLen) (code salt : Bytes) :
    let idKey := fun code => A.idKey code salt cfg.argon2Time cfg.argon2Memory cfg.argon2Threads
      cfg.argon2KeyLen
    ∃ s, hashArgon2id A code cfg (some salt) = some (.ok s) ∧
      parseArgon2idHash s =
        .ok (⟨cfg.argon2Time, cfg.argon2Memory, cfg.argon2Threads⟩, salt, idKey code) ∧
      verifyArgon2id A code s = some (.ok true) ∧
      ∀ code', verifyArgon2id A code' s = some (.ok (decide (idKey code' = idKey code))) := by
  intro idKey
  have hparse := parse_encoded cfg.argon2Memory cfg.argon2Time cfg.argon2Threads salt (idKey code)
  have hverify : ∀ code', verifyArgon2id A code' (encoded cfg.argon2Memory cfg.argon2Time
      cfg.argon2Threads salt (idKey code)) = some (.ok (decide (idKey code' = idKey code))) := by
    intro code'
    have hlength : UInt32.ofNat (idKey code).length = cfg.argon2KeyLen := by
      rw [A.length_idKey, UInt32.ofNat_toNat]
    simp only [verifyArgon2id, hparse, Argon2.call, hlength, if_pos hcfg, Option.map_some,
      beq_eq_decide, idKey]
  refine ⟨_, ?_, hparse, ?_, hverify⟩
  · simp only [hashArgon2id, Argon2.call, if_pos hcfg, Option.map_some]
    rfl
  · rw [hverify, decide_eq_true rfl]

/-- Takes the bytes of the code and the salt, as far as they go. -/
def plainArgon2 : Argon2 where
  idKey password salt _ _ _ keyLen :=
    (password ++ salt ++ List.replicate keyLen.toNat 0).take keyLen.toNat
  length_idKey password salt _ _ _ keyLen := by
    simp only [List.length_take, List.length_append, List.length_replicate]
    omega

/-- The defaults of the configuration (`service.go:76-82`). -/
def defaultConfig : Config := ⟨1, 64 * 1024, 4, 32⟩

/-- A code verifies against its own hash, and another does not. -/
theorem default_round_trip :
    ∃ s, hashArgon2id plainArgon2 [1] defaultConfig (some (List.replicate 16 7)) = some (.ok s) ∧
      verifyArgon2id plainArgon2 [1] s = some (.ok true) ∧
      verifyArgon2id plainArgon2 [2] s = some (.ok false) := by
  obtain ⟨s, hs, -, htrue, hverify⟩ :=
    hash_round_trip plainArgon2 defaultConfig (by decide) [1] (List.replicate 16 7)
  refine ⟨s, hs, htrue, (hverify [2]).trans ?_⟩
  decide

/-! ### Panics -/

/-- What the parameters of a check are made of. -/
theorem callable_iff {s : Bytes} {m t p : Nat} {salt hash : Bytes} (h : Accepts s m t p salt hash) :
    Callable (UInt32.ofNat t) (UInt8.ofNat p) (UInt32.ofNat hash.length) ↔
      t ≠ 0 ∧ p % 256 ≠ 0 ∧ hash.length % 2 ^ 32 ≠ 0 := by
  obtain ⟨-, -, hparams, -, -⟩ := h
  obtain ⟨_, _, _, hvs, -, ht, -⟩ := paramsFormat_values hparams
  simp only [List.cons.injEq, Int.natCast_inj, and_true] at hvs
  obtain ⟨rfl, rfl, rfl⟩ := hvs
  simp only [Callable, ne_eq, ← UInt32.toNat_inj, ← UInt8.toNat_inj, UInt32.toNat_ofNat',
    UInt8.toNat_ofNat', UInt32.toNat_zero, UInt8.toNat_zero, Nat.mod_eq_of_lt ht]

/-- A check does not panic just if the text is not accepted, or with a time that is not zero, a
parallelism that is no multiple of 256 and a hash that is not empty. -/
theorem verify_returns_iff (A : Argon2) (code s : Bytes) :
    verifyArgon2id A code s ≠ none ↔ ∀ m t p salt hash, Accepts s m t p salt hash →
      t ≠ 0 ∧ p % 256 ≠ 0 ∧ hash.length % 2 ^ 32 ≠ 0 := by
  unfold verifyArgon2id
  cases hparse : parseArgon2idHash s with
  | error e =>
    refine iff_of_true (fun h => nomatch h) fun m t p salt hash hacc => ?_
    exact nomatch hparse.symm.trans (parse_ok_iff.mpr ⟨m, t, p, hacc, rfl⟩)
  | ok r =>
    obtain ⟨params, salt, hash⟩ := r
    have hcall : (A.call code salt params.time params.memory params.threads
        (UInt32.ofNat hash.length)).map (fun actual =>
          (.ok (actual == hash) : Except HashError Bool)) ≠ none ↔
        Callable params.time params.threads (UInt32.ofNat hash.length) := by
      rw [ne_eq, Option.map_eq_none_iff, Argon2.call]
      split
      case isTrue h => exact iff_of_true (fun h => nomatch h) h
      case isFalse h => exact iff_of_false (fun hne => hne rfl) h
    rw [hcall]
    constructor
    · intro hcallable m t p salt' hash' hacc
      -- the text is accepted with one outcome
      cases hparse.symm.trans (parse_ok_iff.mpr ⟨m, t, p, hacc, rfl⟩)
      exact (callable_iff hacc).mp hcallable
    · intro h
      obtain ⟨m, t, p, hacc, rfl⟩ := parse_ok_iff.mp hparse
      exact (callable_iff hacc).mpr (h m t p salt hash hacc)

/-- Three accepted texts that make a check panic: no round, a parallelism that is zero after the
conversion, and an empty hash. -/
theorem three_panics :
    verifyArgon2id plainArgon2 [1] (text "$argon2id$v=19$m=64,t=0,p=1$AA$AA") = none ∧
      verifyArgon2id plainArgon2 [1] (text "$argon2id$v=19$m=64,t=1,p=256$AA$AA") = none ∧
      verifyArgon2id plainArgon2 [1] (text "$argon2id$v=19$m=64,t=1,p=1$AA$") = none := by
  decide +kernel

/-! ### What is accepted and was never written -/

/-- Nothing before the first `$`, nothing but the numerals in the segments with numbers, a
parallelism of one byte, and base64 without line breaks and unused bits. -/
def Canonical (s : Bytes) : Prop :=
  ∃ (m t : UInt32) (p : UInt8) (saltText hashText : Bytes),
    s.splitOn dollar = segments m.toNat t.toNat p.toNat saltText hashText ∧
      Base64.std.Strict saltText ∧ Base64.std.Strict hashText

/-- What the parser returns is what the text was made of just if the text is canonical. -/
theorem parse_exact_iff (s : Bytes) :
    (∀ params salt hash, parseArgon2idHash s = .ok (params, salt, hash) →
      s = encoded params.memory params.time params.threads salt hash) ↔
    ((∃ m t p salt hash, Accepts s m t p salt hash) → Canonical s) := by
  constructor
  · rintro h ⟨m, t, p, salt, hash, hacc⟩
    have hs := h _ salt hash (parse_ok_iff.mpr ⟨m, t, p, hacc, rfl⟩)
    exact ⟨_, _, _, _, _, (congrArg (List.splitOn dollar) hs).trans (splitOn_encoded _ _ _ _ _),
      Base64.Alphabet.strict_encode salt, Base64.Alphabet.strict_encode hash⟩
  · intro h params salt hash hparse
    obtain ⟨m, t, p, hacc, -⟩ := parse_ok_iff.mp hparse
    obtain ⟨m', t', p', saltText, hashText, hsplit, hsalt, hhash⟩ := h ⟨m, t, p, salt, hash, hacc⟩
    obtain ⟨hsplit', -, -, hdecode, hdecode'⟩ := hacc
    cases hsplit'.symm.trans hsplit
    have hs : s = encoded m' t' p' salt hash := by
      rw [encoded_eq, (Base64.Alphabet.encode_decode hdecode).mpr hsalt,
        (Base64.Alphabet.encode_decode hdecode').mpr hhash, ← hsplit]
      exact (List.intercalate_splitOn dollar).symm
    rw [hs, parse_encoded] at hparse
    cases hparse
    exact hs

/-- One text that is written, and seven others that are read as the same values. -/
theorem seven_variants :
    text "$argon2id$v=19$m=64,t=1,p=4$AA$AA" = encoded 64 1 4 [0] [0] ∧
    ∀ s ∈ ["x$argon2id$v=19$m=64,t=1,p=4$AA$AA", "$argon2id$v=+19 $m=64,t=1,p=4$AA$AA",
      "$argon2id$v=19$m=064,t= 1,p=4$AA$AA", "$argon2id$v=19$m=64,t=1,p=4,q=5$AA$AA",
      "$argon2id$v=19$m=64,t=1,p=260$AA$AA", "$argon2id$v=19$m=64,t=1,p=4$A\nA$AA",
      "$argon2id$v=19$m=64,t=1,p=4$AA$AB"],
      parseArgon2idHash (text s) = .ok (⟨1, 64, 4⟩, [0], [0]) ∧
        text s ≠ encoded 64 1 4 [0] [0] := by
  decide +kernel

end Verion.Crypto
