import Verion.Http.Isolation
import Verion.Service.Runs

/-!
# Requests that reach other tenants

For every valid request that names a tenant other than the one of its token there
is a database in which it returns a row of that tenant or changes one.
-/

namespace Verion.Http

open Calls Postgres Service

variable {Attrs : Type} {P : Primitives Attrs}

/-! ### A database with another tenant -/

def foreignTenant (T : UUID) (status : TenantStatus) : TenantRow :=
  { acmeRow with id := T, status }

def foreignIdentity (T I : UUID) (handle : String) (version : Int) (status : IdentityStatus) :
    IdentityRow :=
  { adaRow with id := I, tenantID := T, handle, version, status }

def foreignKey (T I K : UUID) (status : KeyStatus) : KeyRow :=
  { id := K, identityID := I, tenantID := T, keyType := .ed25519, purpose := .signing,
    algorithm := "EdDSA", publicKey := [1], publicKeyJWK := [1], keyRef := keyRefOf "k",
    fingerprint := "01", status, validFrom := 0, validUntil := none, rotatedAt := none,
    rotatedTo := none, createdAt := 0 }

def foreign (t : TenantRow) (i : IdentityRow) (k : KeyRow) : World where
  db := { DB.empty with
    tenants := ⟨[t], List.nodup_singleton _⟩
    identities := ⟨[i], List.nodup_singleton _⟩
    identityKeys := ⟨[k], List.nodup_singleton _⟩ }
  keys _ := none

variable {t : TenantRow} {i : IdentityRow} {k : KeyRow}

theorem get?_tenant : (foreign t i k).db.tenants.get? t.id = some t :=
  Table.get?_of_mem (List.mem_singleton_self t)

theorem get?_identity : (foreign t i k).db.identities.get? i.id = some i :=
  Table.get?_of_mem (List.mem_singleton_self i)

theorem get?_key : (foreign t i k).db.identityKeys.get? k.id = some k :=
  Table.get?_of_mem (List.mem_singleton_self k)

/-! ### Running a service -/

theorem serve_run {α : Type} (status : Nat) (payload : α → Payload Attrs) (p : Svc Attrs α)
    (es : Nat → Env)
    (w : World) : (serve status payload p).run (exec P) es w =
      ((match (p.run (exec P) es w).1 with
        | .ok a => .ok ⟨status, payload a⟩
        | .error e => .ok (writeServiceError e)), (p.run (exec P) es w).2) := by
  unfold serve
  rw [Program.run_attempt_bind]
  cases (p.run (exec P) es w).1 <;> rfl

/-- What a request has to do to breach the isolation of tenant `T`. -/
structure Breaches (P : Primitives Attrs) (T : UUID) (p : Svc Attrs (Response Attrs)) : Prop where
  breach : ∀ A : Option UUID, A ≠ some T → ∃ (w : World) (es : Nat → Env),
    (∃ resp, (p.run (exec P) es w).1 = .ok resp ∧ T.toText ∈ resp.payload.tenantIDs) ∨
      (p.run (exec P) es w).2.db.outside A ≠ w.db.outside A

theorem Breaches.not_isolated {T : UUID} {tid : String} {req : Request Attrs}
    (h : Breaches P T (handle P req)) (hT : UUID.ofText? tid ≠ some T) : ¬ Isolated P tid req := by
  intro hiso
  obtain ⟨w, es, ⟨resp, hresp, hmem⟩ | hchange⟩ := h.breach _ hT
  · have hsame := (hiso w es).1 resp hresp _ hmem
    rw [UUID.ofText?_toText] at hsame
    exact hT hsame.symm
  · exact hchange (hiso w es).2

section Breach

variable {T : UUID} {α : Type} {status : Nat} {payload : α → Payload Attrs} {p : Svc Attrs α}
  {w : World} (es : Nat → Env)

theorem breaches_of_result {a : α} (hrun : (p.run (exec P) es w).1 = .ok a)
    (hmem : T.toText ∈ (payload a).tenantIDs) : Breaches P T (serve status payload p) where
  breach A _ := by
    refine ⟨w, es, .inl ⟨⟨status, payload a⟩, ?_, hmem⟩⟩
    rw [serve_run, hrun]

theorem breaches_of_change (hchange : ∀ A, A ≠ some T →
    (p.run (exec P) es w).2.db.outside A ≠ w.db.outside A) :
    Breaches P T (serve status payload p) where
  breach A hA := by
    refine ⟨w, es, .inr ?_⟩
    rw [serve_run]
    exact hchange A hA

end Breach

theorem withQueryTenant_breaches {tenantID : String} {p : Svc Attrs (Response Attrs)} {T : UUID}
    (hT : UUID.ofText? tenantID = some T) (hp : Breaches P T p) :
    Breaches P T (withQueryTenant tenantID p) := by
  unfold withQueryTenant
  rw [if_neg]
  · exact hp
  · exact UUID.ne_empty_of_ofText? hT

/-! ### Reads -/

section Reads

variable {T I K : UUID} {tenantID id handle : String}

theorem getTenant_breaches (hT : UUID.ofText? id = some T) : Breaches P T (handleGetTenant id) := by
  have hexec := exec_getTenant_calm (P := P)
    (w := foreign (foreignTenant T .active) adaRow (foreignKey T T T .active)) hT get?_tenant 0
  refine breaches_of_result calm (congrArg Prod.fst (run_repo_of _ hexec)) ?_
  exact List.mem_singleton_self _

theorem run_decrypted {es : Nat → Env} {w : World} {f : Error → Error} (h : i.attributesIV = []) :
    ((orFail f (decryptAttributes P (scanIdentity i)) : Svc Attrs _).run (exec P) es w).1 =
      .ok (scanIdentity i) := by
  have hdec : decryptAttributes P (scanIdentity i) = .ok (scanIdentity i) := by
    unfold decryptAttributes
    rw [show (scanIdentity i : Identity Attrs).attributes = some i.attributesIV from rfl, h]
    rfl
  rw [hdec]
  rfl

theorem getIdentity_breaches (hT : UUID.ofText? tenantID = some T) (hI : UUID.ofText? id = some I) :
    Breaches P T (handleGetIdentity P id tenantID) := by
  have hexec := exec_getByID_calm (P := P) (w := foreign (foreignTenant T .active)
    (foreignIdentity T I "" 1 .active) (foreignKey T I I .active)) hT hI get?_identity 0
  refine withQueryTenant_breaches hT (breaches_of_result calm
    ((congrArg Prod.fst (run_repo_bind_of _ hexec)).trans (run_decrypted rfl)) ?_)
  exact List.mem_singleton_self _

theorem getByHandle_breaches (hT : UUID.ofText? tenantID = some T) (hnul : hasNul handle = false) :
    Breaches P T (handleGetByHandle P handle tenantID) := by
  let row := foreignIdentity T T handle 1 .active
  let w := foreign (foreignTenant T .active) row (foreignKey T T T .active)
  have heval : (Query.identityGetByHandle tenantID handle).eval ⟨0, UUID.ofNat 0⟩ w.db =
      .ok ([row], w.db) := by
    simp only [Query.eval, sqlIdentityGetByHandle, bind_eq_ok, uuidParam_ok, textParam_ok,
      pure_eq_ok,
      Prod.mk.injEq]
    refine ⟨T, hT, handle, ⟨hnul, rfl⟩, ?_, trivial⟩
    simp [w, row, foreign, foreignIdentity, citextEq]
  have hexec := exec_conn_calm (P := P) (c := .identities (.getByHandle tenantID handle))
      (n := 0) rfl
    (hasNul_of_ofText? hT) heval
  refine withQueryTenant_breaches hT (breaches_of_result calm
    ((congrArg Prod.fst (run_repo_bind_of _ hexec)).trans (run_decrypted rfl)) ?_)
  exact List.mem_singleton_self _

theorem listIdentities_breaches (hT : UUID.ofText? tenantID = some T) :
    Breaches P T (handleListIdentities P tenantID) := by
  let row := foreignIdentity T T "" 1 .active
  let w := foreign (foreignTenant T .active) row (foreignKey T T T .active)
  have heval : (Query.identityList tenantID { limit := 50 }).eval ⟨0, UUID.ofNat 0⟩ w.db =
      .ok ([row], w.db) := by
    simp only [Query.eval, sqlIdentityList, bind_eq_ok, uuidParam_ok, pure_eq_ok, Prod.mk.injEq]
    refine ⟨T, hT, none, rfl, ?_, trivial⟩
    simp [w, row, foreign, foreignIdentity, optEq, page]
  have hexec := exec_conn_calm (P := P) (c := .identities (.list tenantID { limit := 50 })) (n := 0)
    rfl (hasNul_of_ofText? hT) heval
  have hdec : decryptAll P [scanIdentity row] = .ok [scanIdentity row] := rfl
  refine withQueryTenant_breaches hT (breaches_of_result calm
    (a := [scanIdentity row]) ((congrArg Prod.fst (run_repo_bind_of _ hexec)).trans ?_) ?_)
  · exact congrArg (fun x => ((orFail (fun e => e) x : Svc Attrs _).run (exec P) _ _).1) hdec
  · exact List.mem_singleton_self _

theorem getKey_breaches (hT : UUID.ofText? tenantID = some T) (hK : UUID.ofText? id = some K) :
    Breaches P T (handleGetKey id tenantID) := by
  let row := foreignKey T T K .active
  let w := foreign (foreignTenant T .active) adaRow row
  have hexec : exec P (.repo (.keys (.getByID tenantID id))) (calm 0) w = (.ok (scanKey row), w) :=
    exec_getKey_calm hT hK get?_key 0
  refine withQueryTenant_breaches hT (breaches_of_result calm
    (congrArg Prod.fst (run_repo_of _ hexec)) ?_)
  exact List.mem_singleton_self _

end Reads

/-! ### Writes -/

section NewRow

variable {T : UUID} {α : Type} {status : Nat} {payload : α → Payload Attrs} {p : Svc Attrs α}
  {w : World} (es : Nat → Env)

theorem breaches_of_tenant (row : TenantRow) (hrow : row.id = T)
    (hmem : row ∈ (p.run (exec P) es w).2.db.tenants.rows) (hnew : row ∉ w.db.tenants.rows) :
    Breaches P T (serve status payload p) := by
  refine breaches_of_change es (w := w) fun A hA hsame => hnew ?_
  have hother : row ∈ ((p.run (exec P) es w).2.db.outside A).1 :=
    List.mem_filter.mpr ⟨hmem, by simp [hrow, Ne.symm hA]⟩
  rw [hsame] at hother
  exact (List.mem_filter.mp hother).1

theorem breaches_of_identity (row : IdentityRow) (hrow : row.tenantID = T)
    (hmem : row ∈ (p.run (exec P) es w).2.db.identities.rows) (hnew : row ∉ w.db.identities.rows) :
    Breaches P T (serve status payload p) := by
  refine breaches_of_change es (w := w) fun A hA hsame => hnew ?_
  have hother : row ∈ ((p.run (exec P) es w).2.db.outside A).2.1 :=
    List.mem_filter.mpr ⟨hmem, by simp [hrow, Ne.symm hA]⟩
  rw [hsame] at hother
  exact (List.mem_filter.mp hother).1

theorem breaches_of_key (row : KeyRow) (hrow : row.tenantID = T)
    (hmem : row ∈ (p.run (exec P) es w).2.db.identityKeys.rows)
    (hnew : row ∉ w.db.identityKeys.rows) : Breaches P T (serve status payload p) := by
  refine breaches_of_change es (w := w) fun A hA hsame => hnew ?_
  have hother : row ∈ ((p.run (exec P) es w).2.db.outside A).2.2.1 :=
    List.mem_filter.mpr ⟨hmem, by simp [hrow, Ne.symm hA]⟩
  rw [hsame] at hother
  exact (List.mem_filter.mp hother).1

end NewRow

section Audit

variable {event : AuditEvent} {es : Nat → Env} {w : World}

/-- The audit event that ends most methods is written to no other table. -/
theorem writeAudit_agreeOff :
    w.db.AgreeOff (some .auditEvents) ((writeAudit event).run (exec P) es w).2.db := by
  have hcall := agreeOff_perform (.audit (.insert event) : RepoCall Attrs) (fun _ h => by cases h)
    (es 0).now (es 0).statements w.db
  have hrun : ((writeAudit event).run (exec P) es w).2 =
      (exec P (.repo (.audit (.insert event))) (es 0) w).2 :=
    (only_orFail (p := fun _ => False) _ _).run_keeps (f := id) (fun _ _ _ h => h.elim) _ _
  rw [hrun]
  exact hcall

end Audit

section Writes

variable {T I K : UUID} {tenantID id : String}

theorem exec_tenantStatus_calm {w : World} (hT : UUID.ofText? id = some T) (s : TenantStatus)
    (n : Nat) : exec P (.repo (.tenants (.updateStatus id s))) (calm n) w =
      (.ok (), { w with db := { w.db with
        tenants := w.db.tenants.update (fun r => decide (r.id = T))
          (fun r => { r with status := s, updatedAt := n }) fun _ => rfl } }) := by
  have heval : (Query.tenantUpdateStatus id s).eval ⟨n, UUID.ofNat n⟩ w.db =
      .ok ([], { w.db with
        tenants := w.db.tenants.update (fun r => decide (r.id = T))
          (fun r => { r with status := s, updatedAt := n }) fun _ => rfl }) :=
    bind_eq_ok.mpr ⟨T, uuidParam_ok.mpr hT, rfl⟩
  have hexec := exec_pool_calm (P := P) (c := .tenants (.updateStatus id s)) (n := n) rfl heval
  exact hexec

theorem suspendTenant_breaches (hT : UUID.ofText? id = some T) :
    Breaches P T (handleSuspendTenant id) := by
  let w := foreign (foreignTenant T .active) adaRow (foreignKey T T T .active)
  have hget := exec_getTenant_calm (P := P) (w := w) hT get?_tenant 0
  have hput := exec_tenantStatus_calm (P := P) (w := w) hT .suspended 1
  refine breaches_of_tenant (w := w) calm
    ({ foreignTenant T .active with status := .suspended, updatedAt := 1 }) rfl ?_ ?_
  · unfold suspendTenant
    have hgo : ¬ (scanTenant (foreignTenant T .active)).status ≠ .active := not_not.mpr rfl
    rw [run_repo_bind_of _ hget, run_refuseIf_bind _ hgo,
      run_repo_bind_of (fun n => calm (n + 1)) hput, writeAudit_agreeOff.tenants (by decide)]
    simp [w, foreign, foreignTenant, Table.update]
  · simp [w, foreign, foreignTenant]

theorem activateTenant_breaches (hT : UUID.ofText? id = some T) :
    Breaches P T (handleActivateTenant id) := by
  let w := foreign (foreignTenant T .suspended) adaRow (foreignKey T T T .active)
  have hget := exec_getTenant_calm (P := P) (w := w) hT get?_tenant 0
  have hput := exec_tenantStatus_calm (P := P) (w := w) hT .active 1
  refine breaches_of_tenant (w := w) calm
    ({ foreignTenant T .suspended with status := .active, updatedAt := 1 }) rfl ?_ ?_
  · unfold activateTenant
    rw [run_repo_bind_of _ hget, run_refuseIf_bind _ (nofun),
      run_repo_of (fun n => calm (n + 1)) hput]
    simp [w, foreign, foreignTenant, Table.update]
  · simp [w, foreign, foreignTenant]

theorem exec_identityStatus_calm {w : World} (hT : UUID.ofText? tenantID = some T)
    (hI : UUID.ofText? id = some I) (s : IdentityStatus) (n : Nat) :
    exec P (.repo (.identities (.updateStatus tenantID id s))) (calm n) w =
      (.ok (), { w with db := { w.db with
        identities := w.db.identities.update (identityAt T I) (IdentityRow.withStatus s n)
          fun _ => rfl } }) := by
  have heval : (Query.identityUpdateStatus tenantID id s).eval ⟨n, UUID.ofNat n⟩ w.db =
      .ok ([], { w.db with
        identities := w.db.identities.update (identityAt T I) (IdentityRow.withStatus s n)
          fun _ => rfl }) :=
    bind_eq_ok.mpr ⟨T, uuidParam_ok.mpr hT, bind_eq_ok.mpr ⟨I, uuidParam_ok.mpr hI, rfl⟩⟩
  have hexec := exec_conn_calm (P := P) (c := .identities (.updateStatus tenantID id s))
      (n := n) rfl
    (hasNul_of_ofText? hT) heval
  exact hexec

/-- From a status that is not terminal to a different one. -/
theorem changeStatus_breaches (old : IdentityStatus) {new : IdentityStatus}
    {event getContext writeContext actorID : String} {status : Nat} {payload : Unit → Payload Attrs}
    (hold : old.isTerminal = false)
    (hne : new ≠ old) (hT : UUID.ofText? tenantID = some T) (hI : UUID.ofText? id = some I) :
    Breaches P T (serve status payload
      (changeStatus new event getContext writeContext tenantID id actorID)) := by
  let row := foreignIdentity T I "" 1 old
  let w := foreign (foreignTenant T .active) row (foreignKey T I I .active)
  have hget := exec_getByID_calm (P := P) (w := w) hT hI get?_identity 0
  have hput := exec_identityStatus_calm (P := P) (w := w) hT hI new 1
  refine breaches_of_identity (w := w) calm (row.withStatus new 1) rfl ?_ ?_
  · unfold changeStatus
    have hgo : ¬ (scanIdentity row : Identity Attrs).status.isTerminal = true :=
      Bool.eq_false_iff.mp hold
    rw [run_repo_bind_of _ hget, run_refuseIf_bind _ hgo,
      run_repo_bind_of (fun n => calm (n + 1)) hput, writeAudit_agreeOff.identities (by decide)]
    simp [w, row, foreign, foreignIdentity, Table.update, identityAt]
  · intro hmem
    exact hne (congrArg IdentityRow.status (List.mem_singleton.mp hmem))

theorem run_encryptAttributes_calm {attrs : Attrs} {plaintext : Bytes} {α : Type} {n : Nat}
    {w : World} (es : Nat → Env) (hempty : P.isEmpty attrs = false)
    (hmarshal : P.marshal attrs = some plaintext) (hkey : P.masterKey.length = 32)
    (hes : es 0 = calm n) :
    ∃ stored, ∀ g : Except Error (Option Bytes) → Svc Attrs α,
      (encryptAttributes P attrs >>= g).run (exec P) es w =
        (g (.ok (some stored))).run (exec P) (fun n => es (n + 1)) w := by
  let iv : Bytes := List.replicate 12 0
  have henc : encrypt P plaintext (calm n).iv = .ok (P.gcmSeal P.masterKey iv plaintext, iv) := by
    unfold encrypt
    rw [if_neg (not_not.mpr hkey)]
    rfl
  have hexec : exec P (.encrypt plaintext) (es 0) w =
      (.ok (P.gcmSeal P.masterKey iv plaintext, iv), w) := by
    rw [hes]
    exact congrArg (·, w) henc
  refine ⟨iv ++ P.gcmSeal P.masterKey iv plaintext, fun g => ?_⟩
  unfold encryptAttributes
  rw [hempty, hmarshal]
  refine (Program.run_call _ _ es w).trans ?_
  rw [hexec]
  rfl

theorem updateIdentity_breaches {body : UpdateIdentityBody Attrs}
    (hT : UUID.ofText? body.tenantID = some T) (hI : UUID.ofText? id = some I)
    (hname : body.displayName ≠ "") (hnul : hasNul body.displayName = false)
    (hempty : P.isEmpty body.attributes = false) (hjson : (P.marshal body.attributes).isSome)
    (hkey : P.masterKey.length = 32) (hversion : body.version < maxBigint) :
    Breaches P T (handleUpdateIdentity P id (some body)) := by
  let row := foreignIdentity T I "" body.version .active
  let w := foreign (foreignTenant T .active) row (foreignKey T I I .active)
  obtain ⟨plaintext, hmarshal⟩ := Option.isSome_iff_exists.mp hjson
  obtain ⟨stored, hencrypted⟩ := run_encryptAttributes_calm (P := P) (α := Identity Attrs) (n := 1)
    (w := w) (fun n => calm (n + 1)) hempty hmarshal hkey rfl
  have hget := exec_getByID_calm (P := P) (w := w) hT hI get?_identity 0
  have hput := exec_update_calm (P := P) (w := w) { scanIdentity row with
      displayName := body.displayName, attributes := some stored, version := body.version } row
    (UUID.ofText?_toText T) (UUID.ofText?_toText I) hnul rfl rfl get?_identity hversion 2
  refine breaches_of_identity (w := w) calm
    (row.updated body.displayName stored [] 2) rfl ?_ ?_
  · unfold updateIdentity updateInput
    rw [run_refuseIf_bind _ hname, run_repo_bind_of _ hget, hencrypted, run_orFail_bind,
      run_repo_bind_of (fun n => calm (n + 2)) hput,
      (only_orFail (p := fun _ => False) _ _).run_keeps (f := World.db) (fun _ _ _ h => h.elim)]
    simp [w, row, foreign, foreignIdentity, Table.update, identityAt]
  · intro hmem
    have hsame : body.version + 1 = body.version :=
      congrArg IdentityRow.version (List.mem_singleton.mp hmem)
    omega

theorem exec_revoke_calm {w : World} (hT : UUID.ofText? tenantID = some T)
    (hK : UUID.ofText? id = some K) (n : Nat) :
    exec P (.repo (.keys (.revoke tenantID id))) (calm n) w =
      (.ok (), { w with db := { w.db with
        identityKeys := w.db.identityKeys.update (keyAt T K)
          (fun r => { r with status := .revoked })
          fun _ => rfl } }) := by
  have heval : (Query.keyRevoke tenantID id).eval ⟨n, UUID.ofNat n⟩ w.db =
      .ok ([], { w.db with
        identityKeys := w.db.identityKeys.update (keyAt T K)
          (fun r => { r with status := .revoked })
          fun _ => rfl }) :=
    bind_eq_ok.mpr ⟨T, uuidParam_ok.mpr hT, bind_eq_ok.mpr ⟨K, uuidParam_ok.mpr hK, rfl⟩⟩
  have hexec := exec_conn_calm (P := P) (c := .keys (.revoke tenantID id)) (n := n) rfl
    (hasNul_of_ofText? hT) heval
  exact hexec

theorem revokeKey_breaches {body : ActorBody} (hT : UUID.ofText? body.tenantID = some T)
    (hK : UUID.ofText? id = some K) : Breaches P T (handleRevokeKey id (some body)) := by
  let row := foreignKey T T K .active
  let w := foreign (foreignTenant T .active) adaRow row
  have hget : exec P (.repo (.keys (.getByID body.tenantID id))) (calm 0) w =
      (.ok (scanKey row), w) :=
    exec_getKey_calm hT hK get?_key 0
  have hput := exec_revoke_calm (P := P) (w := w) hT hK 1
  refine breaches_of_key (w := w) calm ({ row with status := .revoked }) rfl ?_ ?_
  · unfold revokeKey
    rw [run_repo_bind_of _ hget, run_repo_bind_of (fun n => calm (n + 1)) hput,
      writeAudit_agreeOff.identityKeys (by decide)]
    simp [w, row, foreign, foreignKey, Table.update, keyAt]
  · simp [w, row, foreign, foreignKey]

/-! ### New keys -/

/-- No call removes a key or moves it to another tenant. -/
theorem key_stays {N : UUID} (c : Op Attrs) (e : Env) (w : World)
    (h : ∃ row, w.db.identityKeys.get? N = some row ∧ row.tenantID = T) :
    ∃ row, (exec P c e w).2.db.identityKeys.get? N = some row ∧ row.tenantID = T := by
  obtain ⟨row, hrow, hT⟩ := h
  obtain ⟨row', hrow', hstep⟩ := (exec_keyStep P c e w).row hrow
  refine ⟨row', hrow', ?_⟩
  generalize (⟨c, (exec P c e w).1⟩ : Ev Attrs) = ev at hstep
  cases hstep <;> exact hT

/-- Storing a fresh pair for tenant `T` breaches its isolation, whatever follows. -/
theorem breaches_of_insert (keyType : KeyType) (purpose : KeyPurpose)
    {identityID algorithm : String} {generator : KeyAlgorithm} {status m n : Nat}
    {payload : IdentityKey → Payload Attrs} {p : Svc Attrs IdentityKey} {w : World}
    (es es' : Nat → Env) (hm : es' 0 = calm m) (hn : es' 1 = calm n)
    {g : IdentityKey → Svc Attrs IdentityKey}
    (hrun : p.run (exec P) es w =
      (generateKeyPair tenantID identityID keyType purpose >>= g).run (exec P) es' w)
    (hg : ∀ key, ∃ (f : Error → Error) (rest : IdentityKey → Svc Attrs IdentityKey),
      g key = repo (.keys (.create key)) f >>= rest)
    (hT : UUID.ofText? tenantID = some T) (hI : UUID.ofText? identityID = some I)
    (htype : generatorOf keyType = some (generator, algorithm))
    (hpurpose : isKeyPurpose purpose = true)
    (hactive : ∀ r ∈ w.db.identityKeys.rows, r.status ≠ .active)
    (hfresh : w.db.identityKeys.get? (UUID.ofNat n) = none)
    (hident : (w.db.identities.get? I).isSome) (htenant : (w.db.tenants.get? T).isSome) :
    Breaches P T (serve status payload p) := by
  obtain ⟨generated, w', hgen, hdb⟩ := exec_generateKey_calm (P := P) generator
    (cryptoKeyID_ne tenantID identityID keyType) m w
  let key := keyOf tenantID identityID keyType purpose algorithm generated
  let st : Stamp := ⟨n, UUID.ofNat n⟩
  have hknown : isKeyType keyType = true := by
    cases keyType <;> first | rfl | cases htype
  obtain ⟨keys, hins, heval⟩ := sqlKeyInsert_of st w'.db (k := key) hI hT hknown hpurpose rfl rfl
    (hdb ▸ hactive) (hdb ▸ hfresh) (hdb ▸ hident) (hdb ▸ htenant)
  have hput := exec_conn_calm (P := P) (c := .keys (.create key)) (q := .keyInsert key) (n := n)
    rfl (hasNul_of_ofText? hT) heval
  obtain ⟨f, rest, hrest⟩ := hg key
  rw [← hm] at hgen
  rw [← hn] at hput
  rw [run_generateKeyPair_bind htype hgen, hrest,
    run_repo_bind_of (fun k => es' (k + 1)) hput] at hrun
  have hnew : keys.get? st.newID = some (insertedKey st I T key) :=
    (Table.get?_insert? hins _).trans (if_pos rfl)
  have hleads : Leads (exec P) _ (p.run (exec P) es w).2 := Program.run_leads hrun.symm
  obtain ⟨row, hrow, hrowT⟩ := hleads.invariant key_stays ⟨insertedKey st I T key, hnew, rfl⟩
  refine breaches_of_key (w := w) es row hrowT (Table.mem_of_get? hrow) fun hmem => ?_
  exact Table.get?_eq_none.mp hfresh row hmem (Table.key_of_get? hrow)

theorem generateKey_breaches {body : GenerateKeyBody} (hT : UUID.ofText? body.tenantID = some T)
    (hI : UUID.ofText? body.identityID = some I)
    (htype : (generatorOf (.ofText body.keyType)).isSome)
    (hpurpose : isKeyPurpose (.ofText body.purpose) = true) :
    Breaches P T (handleGenerateKey (some body)) := by
  obtain ⟨⟨generator, algorithm⟩, hgen⟩ := Option.isSome_iff_exists.mp htype
  let row := foreignIdentity T I "" 1 .active
  let w := foreign (foreignTenant T .active) row (foreignKey T I (.ofNat 0) .rotated)
  have hget := exec_getByID_calm (P := P) (w := w) hT hI get?_identity 0
  have hgo : ¬ (scanIdentity row : Identity Attrs).status ≠ .active := not_not.mpr rfl
  refine breaches_of_insert _ _ (w := w) calm (fun k => calm (k + 1)) rfl rfl
    ((run_repo_bind_of _ hget).trans (run_refuseIf_bind (fun k => calm (k + 1)) hgo))
    (fun _ => ⟨_, _, rfl⟩) hT hI hgen hpurpose ?_ ?_ ?_ ?_
  · intro r hr
    obtain rfl := List.mem_singleton.mp hr
    exact nofun
  · refine Table.get?_eq_none.mpr fun r hr hid => ?_
    obtain rfl := List.mem_singleton.mp hr
    have hne : UUID.ofNat 0 ≠ UUID.ofNat 2 := by decide +kernel
    exact hne hid
  · exact Option.isSome_of_eq_some get?_identity
  · exact Option.isSome_of_eq_some get?_tenant

theorem rotateKey_breaches {body : RotateKeyBody} (hT : UUID.ofText? body.tenantID = some T)
    (hI : UUID.ofText? body.identityID = some I) (hK : UUID.ofText? id = some K) :
    Breaches P T (handleRotateKey id (some body)) := by
  -- the identifier drawn for the new key is not the one of the old key
  obtain ⟨n, hn⟩ : ∃ n, UUID.ofNat (1 + 1 + 1 + n) ≠ K := by
    by_contra hall
    push Not at hall
    exact absurd ((hall 0).trans (hall 1).symm) (by decide +kernel)
  let row := foreignKey T I K .rotated
  let w := foreign (foreignTenant T .active) (foreignIdentity T I "" 1 .active) row
  have hget : exec P (.repo (.keys (.getByID body.tenantID id))) (calm (0 + n)) w =
      (.ok (scanKey row), w) :=
    exec_getKey_calm hT hK get?_key (0 + n)
  have hgo : ¬ (!(scanKey row).isUsable ((0 + 1 + n : Nat) : Time)) = true := by
    have hnow : ¬ ((0 + 1 + n : Nat) : Time) < (scanKey row).validFrom :=
      Int.not_lt.mpr (Int.natCast_nonneg _)
    have huse : (scanKey row).isUsable ((0 + 1 + n : Nat) : Time) = true :=
      (if_neg (nofun)).trans (if_neg hnow)
    rw [huse]
    decide
  refine breaches_of_insert .ed25519 .signing (w := w) (fun k => calm (k + n))
    (fun k => calm (k + 1 + 1 + n)) rfl rfl
    (((run_repo_bind_of (fun k => calm (k + n)) hget).trans (run_now_bind _)).trans
      (run_refuseIf_bind (fun k => calm (k + 1 + 1 + n)) hgo))
    (fun _ => ⟨_, _, rfl⟩) hT hI rfl rfl ?_ ?_ ?_ ?_
  · intro r hr
    obtain rfl := List.mem_singleton.mp hr
    exact nofun
  · refine Table.get?_eq_none.mpr fun r hr hid => hn ?_
    obtain rfl := List.mem_singleton.mp hr
    exact hid.symm
  · exact Option.isSome_of_eq_some get?_identity
  · exact Option.isSome_of_eq_some get?_tenant

end Writes

/-! ### Every valid request -/

theorem breaches_of_valid {req : Request Attrs} {T : UUID} (hvalid : req.Valid P)
    (hT : UUID.ofText? req.tenantID = some T) : Breaches P T (handle P req) := by
  cases req with
  | getTenant id => exact getTenant_breaches hT
  | suspendTenant id => exact suspendTenant_breaches hT
  | activateTenant id => exact activateTenant_breaches hT
  | getIdentity id tenantID =>
    obtain ⟨I, hI⟩ := Option.isSome_iff_exists.mp hvalid
    exact getIdentity_breaches hT hI
  | getByHandle handle tenantID => exact getByHandle_breaches hT hvalid
  | listIdentities tenantID => exact listIdentities_breaches hT
  | updateIdentity id body =>
    obtain ⟨b, rfl, hid, hname, hnul, hempty, hjson, hkey, hversion⟩ := hvalid
    obtain ⟨I, hI⟩ := Option.isSome_iff_exists.mp hid
    exact updateIdentity_breaches hT hI hname hnul hempty hjson hkey hversion
  | suspendIdentity id body =>
    obtain ⟨b, rfl, hid⟩ := hvalid
    obtain ⟨I, hI⟩ := Option.isSome_iff_exists.mp hid
    exact changeStatus_breaches .active rfl (by decide) hT hI
  | reactivateIdentity id body =>
    obtain ⟨b, rfl, hid⟩ := hvalid
    obtain ⟨I, hI⟩ := Option.isSome_iff_exists.mp hid
    exact changeStatus_breaches .suspended rfl (by decide) hT hI
  | deactivateIdentity id body =>
    obtain ⟨b, rfl, hid⟩ := hvalid
    obtain ⟨I, hI⟩ := Option.isSome_iff_exists.mp hid
    exact changeStatus_breaches .active rfl (by decide) hT hI
  | generateKey body =>
    obtain ⟨b, rfl, hid, htype, hpurpose⟩ := hvalid
    obtain ⟨I, hI⟩ := Option.isSome_iff_exists.mp hid
    exact generateKey_breaches hT hI htype hpurpose
  | getKey keyID tenantID =>
    obtain ⟨K, hK⟩ := Option.isSome_iff_exists.mp hvalid
    exact getKey_breaches hT hK
  | rotateKey keyID body =>
    obtain ⟨b, rfl, hkey, hid⟩ := hvalid
    obtain ⟨K, hK⟩ := Option.isSome_iff_exists.mp hkey
    obtain ⟨I, hI⟩ := Option.isSome_iff_exists.mp hid
    exact rotateKey_breaches hT hI hK
  | revokeKey keyID body =>
    obtain ⟨b, rfl, hkey⟩ := hvalid
    obtain ⟨K, hK⟩ := Option.isSome_iff_exists.mp hkey
    exact revokeKey_breaches hT hK

/-- The handlers keep a token within its tenant for the requests confined to it and
for no others. -/
theorem isolated_iff_confined (P : Primitives Attrs) (tid : String) (req : Request Attrs) :
    Isolated P tid req ↔ Confined P tid req := by
  refine ⟨fun hiso hvalid T hT => ?_, isolated_of_confined⟩
  by_contra hother
  exact (breaches_of_valid hvalid hT).not_isolated hother hiso

/-- A token of tenant 9 reads the identity of tenant 1. -/
theorem getIdentity_of_other_tenant :
    (((handle plainPrimitives (.getIdentity (UUID.ofNat 2).toText (UUID.ofNat 1).toText)).run
      (exec plainPrimitives) calm smallWorld).1.toOption.map fun r => r.payload.tenantIDs) =
        some [(UUID.ofNat 1).toText] ∧
    ¬ Isolated plainPrimitives (UUID.ofNat 9).toText
      (.getIdentity (UUID.ofNat 2).toText (UUID.ofNat 1).toText) := by
  refine ⟨by decide +kernel, ?_⟩
  have hread := getIdentity_breaches (P := plainPrimitives)
    (UUID.ofText?_toText (.ofNat 1)) (UUID.ofText?_toText (.ofNat 2))
  exact hread.not_isolated (by decide +kernel)

end Verion.Http
