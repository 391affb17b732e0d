import Verion.Service.KeyBinding
import Verion.Service.KeyStore

/-!
# New keys that are refused

`GenerateKey` and `RotateKey` store the private half of a pair before the
database has seen its row. The partial unique index of identity_keys admits one
active key for each identity and purpose, and `RotateKey` inserts the successor
while the key it replaces is still active.
-/

namespace Verion.Service

open Calls Postgres

variable {Attrs α : Type} {P : Primitives Attrs} {w : World}

instance : Inhabited Env := ⟨calm 0⟩

/-! ### Rotation of a key in use -/

/-- What rotating `key` is for: it ends as rotated to the key returned, which takes over
its type, its purpose and its place as the only active key and, where it was the primary
key, as that; every other key stays. -/
structure TakesOver (key : KeyRow) (w w' : World) (new : IdentityKey) (N : UUID) (row : KeyRow) :
    Prop where
  returned : UUID.ofText? new.id = some N
  stored : w'.db.identityKeys.get? N = some row
  replaced : ∃ old, w'.db.identityKeys.get? key.id = some old ∧ old.status = .rotated ∧
    old.rotatedTo = some N
  same : row.identityID = key.identityID ∧ row.keyType = key.keyType ∧ row.purpose = key.purpose
  only : ∀ r ∈ w'.db.identityKeys.rows, r.identityID = key.identityID → r.purpose = key.purpose →
    (r.status = .active ↔ r.id = N)
  primary : ∀ ident, w.db.identities.get? key.identityID = some ident →
    ∃ ident', w'.db.identities.get? key.identityID = some ident' ∧ ident'.primaryKeyID =
      if ident.primaryKeyID = some key.id then some N else ident.primaryKeyID
  others : ∀ K, K ≠ key.id → K ≠ N → w'.db.identityKeys.get? K = w.db.identityKeys.get? K

/-- The rotation of `key` succeeds. -/
def RotationWorks (P : Primitives Attrs) (tenantID identityID keyID actorID : String) (key : KeyRow)
    (es : Nat → Env) (w : World) : Prop :=
  ∃ new w' N row, (rotateKey tenantID identityID keyID actorID : Svc Attrs _).run (exec P) es w =
    (.ok new, w') ∧ TakesOver key w w' new N row

/-- Neither the tables change nor is there a result. -/
def Refuses (w : World) (r : Except Error α) (w' : World) : Prop :=
  (∃ x, r = .error x) ∧ w'.db = w.db

/-- The index keeps a second active key out. -/
theorem createKey_refused {key : IdentityKey} {row : KeyRow} {I : UUID} {f : Error → Error}
    {g : IdentityKey → Svc Attrs α} {w' : World} (hdb : w'.db = w.db)
    (hrow : row ∈ w.db.identityKeys.rows) (hstatus : row.status = .active)
    (hI : UUID.ofText? key.identityID = some I) (hident : row.identityID = I)
    (hnew : key.status = .active) (hpurpose : row.purpose = key.purpose) :
    (repo (.keys (.create key)) f >>= g).Ends (exec P) (Refuses w) w' := by
  refine ends_repo_bind (fun e created hcreated => ?_) fun x => ⟨⟨_, rfl⟩, hdb⟩
  obtain ⟨I', hI', -, -, hunique⟩ := exec_createKey_checks hcreated
  obtain rfl : I = I' := Option.some.inj (hI.symm.trans hI')
  exact absurd hpurpose (hunique hnew row (hdb ▸ hrow) hstatus hident)

/-- The pair for the successor is stored, and its row refused. -/
theorem successor_refused {tenantID identityID : String} {key : KeyRow} {f : Error → Error}
    {g : IdentityKey → IdentityKey → Svc Attrs α} (hkey : key ∈ w.db.identityKeys.rows)
    (hstatus : key.status = .active) (hI : UUID.ofText? identityID = some key.identityID) :
    (generateKeyPair tenantID identityID key.keyType key.purpose >>= fun new =>
      repo (.keys (.create new)) f >>= fun created => g new created).Ends (exec P) (Refuses w) w :=
  ends_generateKeyPair_bind
    (fun _ _ _ hdb => createKey_refused hdb hkey hstatus hI rfl rfl rfl)
    fun _ _ hdb => ⟨⟨_, rfl⟩, hdb⟩

theorem rotateKey_refused (tenantID actorID : String) {identityID keyID : String} {key : KeyRow}
    (hK : UUID.ofText? keyID = some key.id) (hkey : w.db.identityKeys.get? key.id = some key)
    (hstatus : key.status = .active) (hI : UUID.ofText? identityID = some key.identityID) :
    (rotateKey tenantID identityID keyID actorID : Svc Attrs _).Ends (exec P) (Refuses w) w := by
  unfold rotateKey
  refine ends_repo_bind (fun e old hold => ?_) fun x => ⟨⟨_, rfl⟩, rfl⟩
  obtain ⟨_, K, row, -, hK', hrow, -, rfl⟩ := getKeyByID_ok hold
  obtain rfl : key.id = K := Option.some.inj (hK.symm.trans hK')
  obtain rfl : key = row := Option.some.inj (hkey.symm.trans hrow)
  rw [exec_read rfl]
  refine ends_now_bind fun t => ends_refuseIf_bind ⟨⟨_, rfl⟩, rfl⟩ fun _ => ?_
  exact successor_refused (Table.mem_of_get? hkey) hstatus hI

/-- No active key is ever rotated for its own identity. -/
theorem rotateKey_own_key (P : Primitives Attrs) (w : World)
    (tenantID identityID keyID actorID : String)
    (key : KeyRow) (hK : UUID.ofText? keyID = some key.id)
    (hkey : w.db.identityKeys.get? key.id = some key) (hstatus : key.status = .active)
    (hI : UUID.ofText? identityID = some key.identityID) (es : Nat → Env) :
    ¬ RotationWorks P tenantID identityID keyID actorID key es w ∧
      (∃ x, ((rotateKey tenantID identityID keyID actorID : Svc Attrs _).run (exec P) es w).1 =
        .error x) ∧
      ((rotateKey tenantID identityID keyID actorID : Svc Attrs _).run (exec P) es w).2.db =
        w.db := by
  have hrefused := (rotateKey_refused (P := P) tenantID actorID hK hkey hstatus hI).run es
  refine ⟨?_, hrefused⟩
  rintro ⟨new, w', N, row, hrun, -⟩
  obtain ⟨⟨x, herr⟩, -⟩ := hrefused
  rw [hrun] at herr
  cases herr

/-- Key 33 of identity 31, after the creation of both. -/
theorem rotation_of_signing_key :
    (∃ key, (servedAfter (creation (some [7]))).db.identityKeys.get? (.ofNat 33) = some key ∧
      key.status = .active ∧ ∀ es, ¬ RotationWorks plainPrimitives (UUID.ofNat 10).toText
        (UUID.ofNat 31).toText (UUID.ofNat 33).toText (UUID.ofNat 31).toText key es
        (servedAfter (creation (some [7])))) := by
  have hfound : ((servedAfter (creation (some [7]))).db.identityKeys.get? (.ofNat 33)).map
      (fun key => (key.status, key.identityID)) = some (.active, .ofNat 31) := by decide +kernel
  obtain ⟨key, hkey, hfields⟩ := Option.map_eq_some_iff.mp hfound
  obtain ⟨hstatus, hident⟩ := Prod.mk.inj hfields
  have hid : key.id = .ofNat 33 := Table.key_of_get? hkey
  refine ⟨key, hkey, hstatus, fun es => (rotateKey_own_key _ _ _ _ _ _ key ?_ ?_ hstatus ?_ es).1⟩
  · rw [hid]
    exact UUID.ofText?_toText _
  · rw [hid]
    exact hkey
  · rw [hident]
    exact UUID.ofText?_toText _

/-- With nothing failing, the rotation of a key just created is refused. -/
theorem rotation_fails :
    Reachable plainPrimitives (fun _ _ => True) (servedAfter (creation (some [7]))) ∧
      ((servedAfter (creation (some [7]))).db.identityKeys.get? (.ofNat 33)).map
        (fun key => (key.status, key.identityID, key.keyType, (scanKey key).isUsable 50)) =
          some (.active, .ofNat 31, .ed25519, true) ∧
      ((rotateKey (UUID.ofNat 10).toText (UUID.ofNat 31).toText (UUID.ofNat 33).toText
        (UUID.ofNat 31).toText : Svc Bytes _).run (exec plainPrimitives) (fun n => calm (50 + n))
        (servedAfter (creation (some [7])))).1.toOption = none :=
  ⟨(Program.Served.refl _).serve fun _ _ _ => trivial, by decide +kernel⟩

/-! ### What a failed generation leaves -/

/-- Keys, primary keys, events and the private keys already held are as before. -/
structure Unspoiled (w w' : World) : Prop where
  keys : w'.db.identityKeys = w.db.identityKeys
  primary : ∀ I, (w'.db.identities.get? I).map IdentityRow.primaryKeyID =
    (w.db.identities.get? I).map IdentityRow.primaryKeyID
  events : w'.db.auditEvents = w.db.auditEvents
  held : ∀ ref key, w.keys ref = some key → w'.keys ref = some key

theorem Unspoiled.of_db {w w' : World} (hdb : w'.db = w.db)
    (held : ∀ ref key, w.keys ref = some key → w'.keys ref = some key) : Unspoiled w w' where
  keys := by rw [hdb]
  primary := by simp only [hdb, implies_true]
  events := by rw [hdb]
  held := held

theorem Unspoiled.refl (w : World) : Unspoiled w w :=
  .of_db rfl fun _ _ h => h

/-- Whatever fails, a run that returns an error changes nothing. -/
def FailsClean (P : Primitives Attrs) (p : Svc Attrs α) (w : World) : Prop :=
  ∀ (es : Nat → Env) (x : Error), (p.run (exec P) es w).1 = .error x →
    Unspoiled w (p.run (exec P) es w).2

/-- Some row of an active key with this purpose can be inserted. -/
def Insertable (db : DB) (tenantID identityID : String) (purpose : KeyPurpose) : Prop :=
  ∃ T I K, UUID.ofText? tenantID = some T ∧ UUID.ofText? identityID = some I ∧
    Admits db I purpose ∧ (db.identities.get? I).isSome ∧ (db.tenants.get? T).isSome ∧
    db.identityKeys.get? K = none

/-- If a pair of the type can be made at all, no private key is held under its name and
its row is refused. -/
def Sheltered (w : World) (tenantID identityID : String) (keyType : KeyType)
    (purpose : KeyPurpose) : Prop :=
  (generatorOf keyType).isSome →
    w.keys (keyRefOf (cryptoKeyID tenantID identityID keyType)) = none ∧
    ¬ Insertable w.db tenantID identityID purpose

/-- A failure as `FailsClean` wants it. -/
def Clean (w : World) (r : Except Error α) (w' : World) : Prop :=
  ∀ x, r = .error x → Unspoiled w w'

theorem failsClean_iff {p : Svc Attrs α} : FailsClean P p w ↔ p.Ends (exec P) (Clean w) w :=
  (Program.ends_iff_run (Q := Clean w)).symm

/-- The statements of a call all fail. -/
def lost : Env := { calm 0 with statements := fun _ => ⟨false, ⟨0, .ofNat 0⟩⟩ }

/-- Everything works, and `K` is the identifier drawn. -/
def drawing (K : UUID) : Env := { calm 0 with statements := fun _ => ⟨true, ⟨0, K⟩⟩ }

/-- A call on the connection route may fail. -/
theorem ends_repo_bind_lost {c : RepoCall Attrs} {q : Query} {T : String} {f : Error → Error}
    {finish : Except PgError (List q.Row) → Except Error c.Result} {g : c.Result → Svc Attrs α}
    {Q : Except Error α → World → Prop} (h : (repo c f >>= g).Ends (exec P) Q w)
    (hscript : c.script lost.now = withTenantConn T (ask q finish))
    (hf : ∀ pe, ∃ x, finish (.error pe) = .error x) : ∃ x, Q (.error x) w := by
  obtain ⟨x, hlost⟩ := exec_disconnected (P := P) hscript hf (fun hc => nomatch hc.1) w
  exact ⟨_, ends_repo_bind_error h hlost⟩

theorem exec_generateKey_others {algorithm : KeyAlgorithm} {keyID ref : String} {e : Env}
    (hne : ref ≠ keyRefOf keyID) :
    (exec P (.generateKey algorithm keyID) e w).2.keys ref = w.keys ref := by
  have hstep := exec_storeStep P (.generateKey algorithm keyID) e w
  generalize (exec P (.generateKey algorithm keyID) e w).2.keys = keys' at hstep ⊢
  generalize w.keys = keys at hstep ⊢
  generalize (exec P (.generateKey algorithm keyID) e w).1 = r at hstep
  generalize hev : (⟨.generateKey algorithm keyID, r⟩ : Ev Attrs) = ev at hstep
  cases hstep with
  | quiet => rfl
  | stored => cases hev; exact if_neg hne
  | deleted => cases hev

theorem insertable_of_created {key created : IdentityKey} {e : Env} (hstatus : key.status = .active)
    (h : (exec P (.repo (.keys (.create key))) e w).1 = .ok created) :
    Insertable w.db key.tenantID key.identityID key.purpose := by
  obtain ⟨st, rows, heval, -⟩ := conn_statement (q := .keyInsert key) rfl (fun _ => ⟨_, rfl⟩) h
  obtain ⟨I, T, keys, hI, hT, hlabels, -, hunique, hins, hident, htenant, -⟩ :=
    sqlKeyInsert_eq_ok.mp heval
  exact ⟨T, I, st.newID, hT, hI, ⟨hlabels.2, hunique hstatus⟩, hident, htenant,
    (Table.insert?_eq_some.mp hins).1⟩

/-- With a free identifier drawn, a row that can be inserted is. -/
theorem exec_createKey_drawing {tenantID identityID algorithm : String} {keyType : KeyType}
    {purpose : KeyPurpose} {generator : KeyAlgorithm} (generated : GeneratedKey)
    (htype : generatorOf keyType = some (generator, algorithm))
    (h : Insertable w.db tenantID identityID purpose) :
    ∃ K created w', w.db.identityKeys.get? K = none ∧ (w'.db.identityKeys.get? K).isSome ∧
      exec P (.repo (.keys (.create
        (keyOf tenantID identityID keyType purpose algorithm generated)))) (drawing K) w =
        (.ok created, w') := by
  obtain ⟨T, I, K, hT, hI, ⟨hpurpose, hunique⟩, hident, htenant, hfresh⟩ := h
  let key := keyOf tenantID identityID keyType purpose algorithm generated
  have hknown : isKeyType keyType = true := by
    cases keyType <;> first | rfl | cases htype
  obtain ⟨keys, hins⟩ : ∃ keys, w.db.identityKeys.insert?
      (insertedKey ⟨0, K⟩ I T key) = some keys :=
    Table.insert?_of_fresh hfresh
  have heval : sqlKeyInsert ⟨0, K⟩ w.db key = .ok (_, { w.db with identityKeys := keys }) :=
    sqlKeyInsert_eq_ok.mpr ⟨I, T, keys, hI, hT, ⟨hknown, hpurpose⟩, ⟨rfl, rfl⟩, fun _ => hunique,
      hins, hident, htenant, rfl, rfl⟩
  have hcases := conn_cases (P := P) (w := w) (c := .keys (.create key)) (e := drawing K) rfl
    (fun _ => ⟨_, rfl⟩) (hasNul_of_ofText? hT) heval rfl
  obtain ⟨-, hexec⟩ | ⟨hnot, -⟩ := hcases
  · refine ⟨K, _, _, hfresh, ?_, hexec⟩
    exact Option.isSome_of_eq_some (Table.get?_insert?_self hins)
  · exact absurd ⟨rfl, rfl, rfl⟩ hnot

section Pair

variable {tenantID identityID : String} {keyType : KeyType} {purpose : KeyPurpose}
  {f : Error → Error} {g : IdentityKey → IdentityKey → Svc Attrs α}

theorem keyPair_clean (h : Sheltered w tenantID identityID keyType purpose) :
    (generateKeyPair tenantID identityID keyType purpose >>= fun key =>
      repo (.keys (.create key)) f >>= fun created => g key created).Ends (exec P) (Clean w) w := by
  unfold generateKeyPair
  cases htype : generatorOf keyType with
  | none => exact fun _ _ => .refl w
  | some p =>
    obtain ⟨generator, algorithm⟩ := p
    obtain ⟨hfree, hrefused⟩ := h (Option.isSome_of_eq_some htype)
    intro e _
    have hdb := exec_db P (.generateKey generator (cryptoKeyID tenantID identityID keyType))
      (fun _ h => by cases h) e w
    have hclean : Unspoiled w (exec P (.generateKey generator
        (cryptoKeyID tenantID identityID keyType)) e w).2 := by
      refine .of_db hdb fun ref key href => ?_
      rw [exec_generateKey_others, href]
      rintro rfl
      cases hfree.symm.trans href
    cases hr :
      (exec P (.generateKey generator (cryptoKeyID tenantID identityID keyType)) e w).1 with
    | error x => exact fun _ _ => hclean
    | ok generated =>
      refine ends_repo_bind (fun e' created hcreated => ?_) fun _ _ _ => hclean
      have hins := insertable_of_created rfl hcreated
      rw [hdb] at hins
      exact absurd hins hrefused

/-- If what follows the insertion can fail, an unsheltered pair spoils the state. -/
theorem sheltered_of_clean
    (hg : ∀ key created Q w, (g key created).Ends (exec P) Q w → ∃ x, Q (.error x) w)
    (h : (generateKeyPair tenantID identityID keyType purpose >>= fun key =>
      repo (.keys (.create key)) f >>= fun created => g key created).Ends (exec P) (Clean w) w) :
    Sheltered w tenantID identityID keyType purpose := by
  intro hsome
  obtain ⟨⟨generator, algorithm⟩, htype⟩ := Option.isSome_iff_exists.mp hsome
  have hne := cryptoKeyID_ne tenantID identityID keyType
  constructor
  · -- another secret is drawn, and the insertion fails
    cases hheld : w.keys (keyRefOf (cryptoKeyID tenantID identityID keyType)) with
    | none => rfl
    | some held =>
      obtain ⟨generated, hgen⟩ := exec_generateKey_of (P := P) generator hne
        (e := { calm 0 with secret := some (0 :: held.secret) }) rfl w
      obtain ⟨x, hclean⟩ := ends_repo_bind_lost (ends_generateKeyPair_bind_of htype h hgen) rfl
        fun _ => ⟨_, rfl⟩
      have hsame := (hclean x rfl).held _ _ hheld
      have hsecret : 0 :: held.secret = held.secret :=
        congrArg PrivateKey.secret (Option.some.inj ((if_pos rfl).symm.trans hsame))
      exact absurd (congrArg List.length hsecret) (Nat.succ_ne_self _)
  · -- the row is inserted, and the next call fails
    intro hins
    obtain ⟨generated, w₁, hgen, hdb⟩ := exec_generateKey_calm (P := P) generator hne 0 w
    rw [← hdb] at hins
    obtain ⟨K, created, w₂, hfresh, hstored, hcreate⟩ :=
      exec_createKey_drawing (P := P) generated htype hins
    have hinsert := ends_generateKeyPair_bind_of htype h hgen
    obtain ⟨x, hclean⟩ := hg _ _ _ _ (ends_repo_bind_of hinsert hcreate)
    rw [(hclean x rfl).keys, ← hdb, hfresh] at hstored
    cases hstored

end Pair

/-! ### The two services -/

theorem generateKey_clean_iff (input : GenerateKeyInput) :
    FailsClean P (generateKey input : Svc Attrs _) w ↔
      ∀ row, Finds w.db input.tenantID input.identityID row → row.status = .active →
        Sheltered w input.tenantID input.identityID input.keyType input.purpose := by
  rw [failsClean_iff]
  unfold generateKey
  constructor
  · rintro h row ⟨I, hI, hrow, hT⟩ hactive
    have hpair := ends_repo_bind_of h (exec_getByID_calm (P := P) hT hI hrow 0)
    refine sheltered_of_clean (fun key created Q w hg => ?_)
      (ends_refuseIf_bind_of hpair (not_not.mpr hactive))
    exact ends_repo_bind_lost hg rfl fun _ => ⟨_, rfl⟩
  · intro h
    refine ends_repo_bind (fun e ident hident => ?_) fun x _ _ => .refl w
    obtain ⟨_, I, row, hT, hI, hrow, rfl, rfl⟩ := getByID_ok hident
    rw [exec_read rfl]
    refine ends_refuseIf_bind (fun _ _ => .refl w) fun hactive => ?_
    exact keyPair_clean (h row ⟨I, hI, hrow, hT⟩ (not_not.mp hactive))

theorem rotateKey_clean_iff (tenantID identityID keyID actorID : String) :
    FailsClean P (rotateKey tenantID identityID keyID actorID : Svc Attrs _) w ↔
      ∀ key now, FindsKey w.db tenantID keyID key → (scanKey key).isUsable now = true →
        Sheltered w tenantID identityID key.keyType key.purpose := by
  rw [failsClean_iff]
  unfold rotateKey
  constructor
  · rintro h key now ⟨K, hK, hkey, hT⟩ husable
    have hnow := ends_repo_bind_of h (exec_getKey_calm (P := P) hT hK hkey 0)
    have hgo : ¬ (!(scanKey key).isUsable now) = true := by simp [husable]
    have hpair := ends_refuseIf_bind_of (hnow { calm 0 with now } trivial) hgo
    refine sheltered_of_clean (fun new created Q w hg => ?_) hpair
    exact ends_repo_bind_lost hg rfl fun _ => ⟨_, rfl⟩
  · intro h
    refine ends_repo_bind (fun e old hold => ?_) fun x _ _ => .refl w
    obtain ⟨_, K, row, hT, hK, hrow, rfl, rfl⟩ := getKeyByID_ok hold
    rw [exec_read rfl]
    refine ends_now_bind fun now => ends_refuseIf_bind (fun _ _ => .refl w) fun husable => ?_
    exact keyPair_clean (h row now ⟨K, hK, hrow, hT⟩ (by simpa using husable))

/-- Which failed generations leave keys, primary keys, events and private keys alone. -/
theorem failed_generation_clean_iff (P : Primitives Attrs) (w : World) :
    (∀ input : GenerateKeyInput, FailsClean P (generateKey input : Svc Attrs _) w ↔
      ∀ row, Finds w.db input.tenantID input.identityID row → row.status = .active →
        Sheltered w input.tenantID input.identityID input.keyType input.purpose) ∧
    ∀ tenantID identityID keyID actorID,
      FailsClean P (rotateKey tenantID identityID keyID actorID : Svc Attrs _) w ↔
        ∀ key now, FindsKey w.db tenantID keyID key → (scanKey key).isUsable now = true →
          Sheltered w tenantID identityID key.keyType key.purpose :=
  ⟨generateKey_clean_iff, rotateKey_clean_iff⟩

/-! ### Runs on fixed inputs -/

def newKeyFor31 (purpose : KeyPurpose) : GenerateKeyInput :=
  { tenantID := (UUID.ofNat 10).toText, identityID := (UUID.ofNat 31).toText, keyType := .ed25519,
    purpose, actorID := none }

/-- Identity 31 of tenant 10 has key 33 for signing and key 52 for authentication. -/
def twoKeys : World :=
  servedAfter (creation (some [7]) ++
    [(.generateKey (newKeyFor31 .authentication), fun n => calm (50 + n))])

theorem reachable_twoKeys : Reachable plainPrimitives (fun _ _ => True) twoKeys :=
  (Program.Served.refl _).serve fun _ _ _ => trivial

/-- The private key of 52 is lost to a pair for signing that the index refuses. -/
theorem refused_key_overwrites :
    Reachable plainPrimitives (fun _ _ => True) twoKeys ∧
      ¬ FailsClean plainPrimitives (generateKey (newKeyFor31 .signing)) twoKeys := by
  refine ⟨reachable_twoKeys, fun h => ?_⟩
  have hrun : ((generateKey (newKeyFor31 .signing) : Svc Bytes _).run (exec plainPrimitives)
      (fun n => calm (70 + n)) twoKeys).1.toOption = none ∧
    twoKeys.keys (keyRefOf (cryptoKeyID (UUID.ofNat 10).toText
      (UUID.ofNat 31).toText .ed25519)) = some ⟨.ed25519, [51]⟩ ∧
    ((generateKey (newKeyFor31 .signing) : Svc Bytes _).run (exec plainPrimitives)
      (fun n => calm (70 + n)) twoKeys).2.keys (keyRefOf (cryptoKeyID (UUID.ofNat 10).toText
        (UUID.ofNat 31).toText .ed25519)) = some ⟨.ed25519, [71]⟩ := by decide +kernel
  obtain ⟨herr, hbefore, hafter⟩ := hrun
  cases hr : ((generateKey (newKeyFor31 .signing) : Svc Bytes _).run (exec plainPrimitives)
      (fun n => calm (70 + n)) twoKeys).1 with
  | ok a => rw [hr] at herr; cases herr
  | error x =>
    rw [(h _ x hr).held _ _ hbefore] at hafter
    cases hafter

end Verion.Service
