import Verion.Postgres.Calls

/-!
# What a repository call does to the tables

For each route one lemma says how a call can end: with an error and the tables
as they were, or with the answer of its statement. From these, each writing
method gets the change it makes to its table, and each reading method the rows
its result comes from.
-/

namespace Verion.Postgres

open Calls

variable {Attrs : Type}

/-- A call carried out on a pooled connection. -/
def perform {α : Type} (s : Script α) (es : Nat → Choice) (db : DB) : Except Error α × DB :=
  let r := s.run Statement.exec es ⟨⟨none, none⟩, db⟩
  (r.1, r.2.db)

/-- How a call with the statement `q` can end. -/
inductive Outcome {α : Type} (q : Query) (f : List q.Row → Except Error α) (db : DB) :
    Except Error α → DB → Prop where
  | failed (e : Error) : Outcome q f db (.error e) db
  | answered (st : Stamp) (rows : List q.Row) (db' : DB) (h : q.eval st db = .ok (rows, db')) :
      Outcome q f db (f rows) db'

theorem Outcome.ok {α : Type} {q : Query} {f : List q.Row → Except Error α} {db db' : DB} {a : α}
    (h : Outcome q f db (.ok a) db') :
    ∃ st rows, q.eval st db = .ok (rows, db') ∧ f rows = .ok a := by
  generalize hr : (Except.ok a : Except Error α) = r at h
  cases h with
  | failed e => cases hr
  | answered st rows _ heval => exact ⟨st, rows, heval, rfl⟩

section Routes

variable {α : Type} {q : Query} {finish : Except PgError (List q.Row) → Except Error α}

theorem outcome_answer (hf : ∀ pe, ∃ e, finish (.error pe) = .error e) (db : DB) (e : Choice) :
    Outcome q (fun rows => finish (.ok rows)) db (finish (answer q db e).1) (answer q db e).2 := by
  unfold answer
  cases e.available with
  | false =>
    obtain ⟨err, herr⟩ := hf .unavailable
    simp only [Bool.false_eq_true, if_false, herr]
    exact .failed err
  | true =>
    simp only [if_true]
    cases heval : q.eval e.stamp db with
    | error code =>
      obtain ⟨err, herr⟩ := hf (.server code)
      simp only [herr]
      exact .failed err
    | ok r =>
      obtain ⟨rows, db'⟩ := r
      exact .answered (f := fun rows => finish (.ok rows)) e.stamp rows db' heval

theorem outcome_withTenantConn (hf : ∀ pe, ∃ e, finish (.error pe) = .error e) (T : String)
    (es : Nat → Choice) (db : DB) :
    Outcome q (fun rows => finish (.ok rows)) db (perform (withTenantConn T (ask q finish)) es db).1
      (perform (withTenantConn T (ask q finish)) es db).2 := by
  unfold perform
  rcases withTenantConn_ask_cases q finish es ⟨none, none⟩ db T with ⟨e, h1, h2⟩ | ⟨h1, h2⟩
  · simp only [h1, h2]
    exact .failed e
  · simp only [h1, h2]
    exact outcome_answer hf db (es 2)

theorem outcome_viaPool (hf : ∀ pe, ∃ e, finish (.error pe) = .error e)
    (es : Nat → Choice) (db : DB) :
    Outcome q (fun rows => finish (.ok rows)) db (perform (viaPool q finish) es db).1
      (perform (viaPool q finish) es db).2 := by
  unfold perform
  rcases viaPool_cases q finish es ⟨none, none⟩ db with ⟨h1, h2⟩ | ⟨h1, h2⟩
  · obtain ⟨e, he⟩ := hf .unavailable
    simp only [h1, h2, he]
    exact .failed e
  · simp only [h1, h2]
    exact outcome_answer hf db (es 1)

/-- The connection, the tenant setting and the statement of a method get through. -/
def Connected (es : Nat → Choice) : Prop :=
  (es 0).available = true ∧ (es 1).available = true ∧ (es 2).available = true

instance (es : Nat → Choice) : Decidable (Connected es) :=
  inferInstanceAs (Decidable (_ ∧ _ ∧ _))

/-- Nothing is in the way of a call, whatever the server stamps its statements with. -/
def undisturbed (stamps : Nat → Stamp) : Nat → Choice := fun n => ⟨true, stamps n⟩

theorem connected_undisturbed (stamps : Nat → Stamp) : Connected (undisturbed stamps) :=
  ⟨rfl, rfl, rfl⟩

/-- Exactly when a method on the connection route succeeds, and with what. -/
theorem conn_eq_ok (hf : ∀ pe, ∃ e, finish (.error pe) = .error e) {T : String}
    {es : Nat → Choice} {db db' : DB} {a : α} :
    perform (withTenantConn T (ask q finish)) es db = (.ok a, db') ↔
      Connected es ∧ hasNul T = false ∧
        ∃ rows, q.eval (es 2).stamp db = .ok (rows, db') ∧ finish (.ok rows) = .ok a := by
  unfold perform
  cases h0 : (es 0).available with
  | false =>
    simp [withTenantConn, acquire, Program.run_call, Statement.exec, h0, check, Connected]
  | true =>
    cases h1 : (es 1).available with
    | false =>
      simp [withTenantConn, acquire, setConfig, Program.run_call, Statement.exec, h0, h1, check,
        Connected]
    | true =>
      cases hn : hasNul T with
      | true =>
        simp [withTenantConn, acquire, setConfig, Program.run_call, Statement.exec, h0, h1, hn,
          check]
      | false =>
        rw [run_withTenantConn_ask q finish es ⟨none, none⟩ db T h0 h1 hn]
        unfold answer
        cases h2 : (es 2).available with
        | false =>
          obtain ⟨e, he⟩ := hf .unavailable
          simp [Connected, h2, he]
        | true =>
          cases heval : q.eval (es 2).stamp db with
          | error code =>
            obtain ⟨e, he⟩ := hf (.server code)
            simp [he]
          | ok r =>
            obtain ⟨rows, db''⟩ := r
            simp only [Connected, h0, h1, h2, if_true, Prod.mk.injEq, Except.ok.injEq, true_and,
              and_self]
            constructor
            · rintro ⟨hfin, rfl⟩
              exact ⟨rows, ⟨rfl, rfl⟩, hfin⟩
            · rintro ⟨_, ⟨rfl, rfl⟩, hfin⟩
              exact ⟨hfin, rfl⟩

end Routes

/-! ### Statements that write -/

section Writes

variable {st : Stamp} {db db' : DB}

/-- The row a successful `INSERT` into identities adds. -/
def insertedIdentity (st : Stamp) (T : UUID) (type : IdentityType) (displayName handle : String)
    (status : IdentityStatus) (attributes attributesIV : Bytes) (createdBy : Option UUID) :
    IdentityRow :=
  { id := st.newID, tenantID := T, type, displayName, handle, status, primaryKeyID := none,
    attributes, attributesIV, createdBy, version := 1, createdAt := st.now, updatedAt := st.now,
    deactivatedAt := none }

theorem sqlIdentityInsert_ok {tenantID : String} {type : IdentityType} {displayName handle : String}
    {status : IdentityStatus} {attributes attributesIV : Option Bytes} {createdBy : Option String}
    {rows : List IdentityRow}
    (h : sqlIdentityInsert st db tenantID type displayName handle status attributes attributesIV
      createdBy = .ok (rows, db')) :
    ∃ T a iv by_ ids, UUID.ofText? tenantID = some T ∧ attributes = some a ∧
      attributesIV = some iv ∧ uuidParam? createdBy = .ok by_ ∧
      db.identities.insert?
        (insertedIdentity st T type displayName handle status a iv by_) = some ids ∧
      rows = [insertedIdentity st T type displayName handle status a iv by_] ∧
      db' = { db with identities := ids } := by
  simp only [sqlIdentityInsert, bind_eq_ok, uuidParam_ok, labelParam_ok, textParam_ok, notNull_ok,
    insertUnique_ok, pure_eq_ok, Prod.mk.injEq] at h
  obtain ⟨T, hT, _, ⟨-, rfl⟩, _, ⟨-, rfl⟩, _, ⟨-, rfl⟩, by_, hby, a, ha, iv, hiv, ids, ⟨-, hins⟩,
    _, -, _, -, hrows, hdb⟩ := h
  exact ⟨T, a, iv, by_, ids, hT, ha, hiv, hby, hins, hrows.symm, hdb.symm⟩

/-- `UPDATE ... WHERE version=$6` selects no row, or the one row of that version. -/
theorem sqlIdentityUpdate_ok {tenantID id displayName : String}
    {attributes attributesIV : Option Bytes} {version : Int} {rows : List IdentityRow}
    (h : sqlIdentityUpdate st db tenantID id displayName attributes attributesIV version =
      .ok (rows, db')) :
    (rows = [] ∧ db' = db) ∨
    ∃ T I a iv row, UUID.ofText? tenantID = some T ∧ UUID.ofText? id = some I ∧
      attributes = some a ∧ attributesIV = some iv ∧ version < maxBigint ∧
      db.identities.get? I = some row ∧ row.tenantID = T ∧ row.version = version ∧
      rows = [row.updated displayName a iv st.now] ∧
      db' = { db with
        identities := db.identities.update
          (fun r => identityAt T I r && decide (r.version = version))
          (IdentityRow.updated displayName a iv st.now) fun _ => rfl } := by
  simp only [sqlIdentityUpdate, bind_eq_ok, uuidParam_ok, textParam_ok] at h
  obtain ⟨T, hT, I, hI, _, ⟨-, rfl⟩, h⟩ := h
  split at h
  · rename_i hany
    simp only [bind_eq_ok, notNull_ok, ensure_ok, pure_eq_ok, Prod.mk.injEq,
      decide_eq_true_eq] at h
    obtain ⟨a, ha, iv, hiv, _, hlt, hrows, hdb⟩ := h
    obtain ⟨row, hmem, hsel⟩ := List.any_eq_true.mp hany
    simp only [identityAt, Bool.and_eq_true, decide_eq_true_eq] at hsel
    obtain ⟨⟨hrT, hrI⟩, hrv⟩ := hsel
    have hget : db.identities.get? I = some row := hrI ▸ Table.get?_of_mem hmem
    have honly := db.identities.filter_eq_singleton
      (fun r => identityAt T I r && decide (r.version = version)) hmem
      (by simp [identityAt, hrT, hrI, hrv]) (by
        intro r hr
        simp only [identityAt, Bool.and_eq_true, decide_eq_true_eq] at hr
        exact hr.1.2.trans hrI.symm)
    refine .inr ⟨T, I, a, iv, row, hT, hI, ha, hiv, hlt, hget, hrT, hrv, ?_, hdb.symm⟩
    rw [← hrows, honly]
    rfl
  · simp only [pure_eq_ok, Prod.mk.injEq] at h
    exact .inl ⟨h.1.symm, h.2.symm⟩

theorem sqlIdentityUpdateStatus_ok {tenantID id : String} {status : IdentityStatus}
    {rows : List Unit} (h : sqlIdentityUpdateStatus st db tenantID id status = .ok (rows, db')) :
    ∃ T I, UUID.ofText? tenantID = some T ∧ UUID.ofText? id = some I ∧
      db' = { db with
        identities := db.identities.update (identityAt T I)
          (IdentityRow.withStatus status st.now) fun _ => rfl } := by
  simp only [sqlIdentityUpdateStatus, bind_eq_ok, uuidParam_ok, pure_eq_ok, Prod.mk.injEq] at h
  obtain ⟨T, hT, I, hI, -, hdb⟩ := h
  exact ⟨T, I, hT, hI, hdb.symm⟩

theorem sqlIdentitySetPrimaryKey_ok {tenantID id keyID : String} {rows : List Unit}
    (h : sqlIdentitySetPrimaryKey st db tenantID id keyID = .ok (rows, db')) :
    ∃ T I K, UUID.ofText? tenantID = some T ∧ UUID.ofText? id = some I ∧
      UUID.ofText? keyID = some K ∧
      db' = { db with
        identities := db.identities.update (identityAt T I)
          (IdentityRow.withPrimaryKey K st.now) fun _ => rfl } := by
  simp only [sqlIdentitySetPrimaryKey, bind_eq_ok, uuidParam_ok] at h
  obtain ⟨T, hT, I, hI, K, hK, h⟩ := h
  refine ⟨T, I, K, hT, hI, hK, ?_⟩
  split at h
  · simp only [bind_eq_ok, pure_eq_ok, Prod.mk.injEq] at h
    obtain ⟨_, -, -, hdb⟩ := h
    exact hdb.symm
  · rename_i hnone
    simp only [pure_eq_ok, Prod.mk.injEq] at h
    have hsame : db.identities.update (identityAt T I) (IdentityRow.withPrimaryKey K st.now)
        (fun _ => rfl) = db.identities :=
      Table.update_of_none (by simpa using hnone)
    rw [hsame]
    exact h.2.symm

/-- The key has to exist; the identity need not. -/
theorem sqlIdentitySetPrimaryKey_of {tenantID id keyID : String} {T I K : UUID}
    (hT : UUID.ofText? tenantID = some T) (hI : UUID.ofText? id = some I)
    (hK : UUID.ofText? keyID = some K) (hkey : (db.identityKeys.get? K).isSome) :
    sqlIdentitySetPrimaryKey st db tenantID id keyID = .ok ([], { db with
      identities := db.identities.update (identityAt T I)
        (IdentityRow.withPrimaryKey K st.now) fun _ => rfl }) := by
  simp only [sqlIdentitySetPrimaryKey, bind_eq_ok, uuidParam_ok]
  refine ⟨T, hT, I, hI, K, hK, ?_⟩
  split
  · simp only [bind_eq_ok, references, ensure_ok, pure_eq_ok, and_true]
    exact ⟨(), hkey⟩
  · rename_i hnone
    have hsame : db.identities.update (identityAt T I) (IdentityRow.withPrimaryKey K st.now)
        (fun _ => rfl) = db.identities :=
      Table.update_of_none (by simpa using hnone)
    exact congrArg (fun ids => Except.ok ([], { db with identities := ids })) hsame.symm

theorem sqlIdentityUpdate_of_get? (st : Stamp) (a iv : Bytes) {tenantID id displayName : String}
    {I : UUID} {row : IdentityRow} (hT : UUID.ofText? tenantID = some row.tenantID)
    (hI : UUID.ofText? id = some I) (hnul : hasNul displayName = false)
    (hrow : db.identities.get? I = some row) (hlt : row.version < maxBigint) :
    sqlIdentityUpdate st db tenantID id displayName (some a) (some iv) row.version =
      .ok ([row.updated displayName a iv st.now], { db with
        identities := db.identities.update
          (fun r => identityAt row.tenantID I r && decide (r.version = row.version))
          (IdentityRow.updated displayName a iv st.now) fun _ => rfl }) := by
  obtain ⟨hmem, rfl⟩ := Table.get?_eq_some.mp hrow
  have hsel :
      (identityAt row.tenantID row.id row && decide (row.version = row.version)) = true := by
    simp [identityAt]
  simp only [sqlIdentityUpdate, bind_eq_ok, uuidParam_ok, textParam_ok]
  refine ⟨row.tenantID, hT, row.id, hI, _, ⟨hnul, rfl⟩, ?_⟩
  rw [if_pos (List.any_eq_true.mpr ⟨row, hmem, hsel⟩)]
  simp only [bind_eq_ok, notNull_ok, ensure_ok, pure_eq_ok, Prod.mk.injEq, decide_eq_true_eq]
  refine ⟨a, rfl, iv, rfl, (), hlt, ?_, rfl⟩
  rw [Table.filter_eq_singleton _ _ hmem hsel]
  · rfl
  · intro r hr
    simp only [identityAt, Bool.and_eq_true, decide_eq_true_eq] at hr
    exact hr.1.2

/-- The row a successful `INSERT` into identity_keys adds. -/
def insertedKey (st : Stamp) (I T : UUID) (k : IdentityKey) : KeyRow :=
  { id := st.newID, identityID := I, tenantID := T, keyType := k.keyType, purpose := k.purpose,
    algorithm := k.algorithm, publicKey := k.publicKey.getD [],
    publicKeyJWK := k.publicKeyJWK.getD [], keyRef := k.keyRef, fingerprint := k.fingerprint,
    status := k.status,
    validFrom := k.validFrom, validUntil := k.validUntil, rotatedAt := none, rotatedTo := none,
    createdAt := st.now }

/-- Exactly what an `INSERT` into identity_keys needs: the columns are `NOT NULL`, a nil
slice is sent as `NULL`, and the partial unique index covers active keys only. -/
theorem sqlKeyInsert_eq_ok {k : IdentityKey} {rows : List KeyRow} :
    sqlKeyInsert st db k = .ok (rows, db') ↔
      ∃ I T keys, UUID.ofText? k.identityID = some I ∧ UUID.ofText? k.tenantID = some T ∧
        (isKeyType k.keyType = true ∧ isKeyPurpose k.purpose = true) ∧
        (k.publicKey.isSome ∧ k.publicKeyJWK.isSome) ∧
        (k.status = .active → ∀ r ∈ db.identityKeys.rows, r.status = .active →
          r.identityID = I → r.purpose ≠ k.purpose) ∧
        db.identityKeys.insert? (insertedKey st I T k) = some keys ∧
        (db.identities.get? I).isSome ∧ (db.tenants.get? T).isSome ∧
        rows = [insertedKey st I T k] ∧ db' = { db with identityKeys := keys } := by
  simp only [sqlKeyInsert, bind_eq_ok, uuidParam_ok, labelParam_ok, notNull_ok, insertUnique_ok,
    references, ensure_ok, pure_eq_ok, Prod.mk.injEq, List.any_eq_false, Bool.and_eq_true,
    beq_iff_eq, decide_eq_true_eq, not_and]
  constructor
  · rintro ⟨I, hI, T, hT, _, ⟨htype, rfl⟩, _, ⟨hpurpose, rfl⟩, publicKey, hpub, jwk, hjwk, keys,
      ⟨hactive, hins⟩, _, hident, _, htenant, hrows, hdb⟩
    refine ⟨I, T, keys, hI, hT, ⟨htype, hpurpose⟩, ⟨Option.isSome_of_eq_some hpub,
      Option.isSome_of_eq_some hjwk⟩, fun hst r hr hra hrI => hactive r hr hst ⟨hra, hrI⟩,
        ?_, hident,
      htenant, ?_, hdb.symm⟩
    · simpa only [insertedKey, hpub, hjwk, Option.getD_some] using hins
    · simpa only [insertedKey, hpub, hjwk, Option.getD_some] using hrows.symm
  · rintro ⟨I, T, keys, hI, hT, ⟨htype, hpurpose⟩, ⟨hpub, hjwk⟩, hactive, hins, hident, htenant,
      hrows, hdb⟩
    obtain ⟨publicKey, hpub⟩ := Option.isSome_iff_exists.mp hpub
    obtain ⟨jwk, hjwk⟩ := Option.isSome_iff_exists.mp hjwk
    simp only [insertedKey, hpub, hjwk, Option.getD_some] at hins hrows
    exact ⟨I, hI, T, hT, _, ⟨htype, rfl⟩, _, ⟨hpurpose, rfl⟩, publicKey, hpub, jwk, hjwk, keys,
      ⟨fun r hr hst hrow => hactive hst r hr hrow.1 hrow.2, hins⟩, (), hident, (), htenant,
      hrows.symm, hdb.symm⟩

theorem sqlKeyInsert_ok {k : IdentityKey} {rows : List KeyRow}
    (h : sqlKeyInsert st db k = .ok (rows, db')) :
    ∃ I T keys, UUID.ofText? k.identityID = some I ∧ UUID.ofText? k.tenantID = some T ∧
      (db.identities.get? I).isSome ∧ db.identityKeys.insert? (insertedKey st I T k) = some keys ∧
      rows = [insertedKey st I T k] ∧ db' = { db with identityKeys := keys } := by
  obtain ⟨I, T, keys, hI, hT, -, -, -, hins, hident, -, hrows, hdb⟩ := sqlKeyInsert_eq_ok.mp h
  exact ⟨I, T, keys, hI, hT, hident, hins, hrows, hdb⟩

theorem sqlKeyInsert_bytes {k : IdentityKey} {rows : List KeyRow}
    (h : sqlKeyInsert st db k = .ok (rows, db')) :
    k.publicKey.isSome ∧ k.publicKeyJWK.isSome := by
  obtain ⟨_, _, _, -, -, -, hbytes, -⟩ := sqlKeyInsert_eq_ok.mp h
  exact hbytes

theorem sqlKeyInsert_of (st : Stamp) (db : DB) {k : IdentityKey} {I T : UUID}
    (hI : UUID.ofText? k.identityID = some I) (hT : UUID.ofText? k.tenantID = some T)
    (htype : isKeyType k.keyType = true) (hpurpose : isKeyPurpose k.purpose = true)
    (hpub : k.publicKey.isSome) (hjwk : k.publicKeyJWK.isSome)
    (hactive : ∀ r ∈ db.identityKeys.rows, r.status ≠ .active)
    (hfresh : db.identityKeys.get? st.newID = none) (hident : (db.identities.get? I).isSome)
    (htenant : (db.tenants.get? T).isSome) :
    ∃ keys, db.identityKeys.insert? (insertedKey st I T k) = some keys ∧
      sqlKeyInsert st db k = .ok ([insertedKey st I T k], { db with identityKeys := keys }) := by
  obtain ⟨keys, hins⟩ : ∃ keys, db.identityKeys.insert? (insertedKey st I T k) = some keys :=
    Table.insert?_of_fresh hfresh
  exact ⟨keys, hins, sqlKeyInsert_eq_ok.mpr ⟨I, T, keys, hI, hT, ⟨htype, hpurpose⟩, ⟨hpub, hjwk⟩,
    fun _ r hr hra => absurd hra (hactive r hr), hins, hident, htenant, rfl, rfl⟩⟩

theorem sqlKeyRotate_ok {tenantID oldKeyID newKeyID : String} {rows : List Unit}
    (h : sqlKeyRotate st db tenantID oldKeyID newKeyID = .ok (rows, db')) :
    db' = db ∨ ∃ T K N, UUID.ofText? tenantID = some T ∧ UUID.ofText? oldKeyID = some K ∧
      UUID.ofText? newKeyID = some N ∧
      db' = { db with
        identityKeys := db.identityKeys.update (keyAt T K) (KeyRow.rotated N st.now)
          fun _ => rfl } := by
  simp only [sqlKeyRotate, bind_eq_ok, uuidParam_ok] at h
  obtain ⟨T, hT, K, hK, N, hN, h⟩ := h
  split at h
  · simp only [bind_eq_ok, pure_eq_ok, Prod.mk.injEq] at h
    obtain ⟨_, -, -, hdb⟩ := h
    exact .inr ⟨T, K, N, hT, hK, hN, hdb.symm⟩
  · simp only [pure_eq_ok, Prod.mk.injEq] at h
    exact .inl h.2.symm

theorem sqlKeySetStatus_ok {status : KeyStatus} {tenantID keyID : String} {rows : List Unit}
    (h : sqlKeySetStatus db status tenantID keyID = .ok (rows, db')) :
    ∃ T K, UUID.ofText? tenantID = some T ∧ UUID.ofText? keyID = some K ∧
      db' = { db with
        identityKeys := db.identityKeys.update (keyAt T K) (fun r => { r with status })
          fun _ => rfl } := by
  simp only [sqlKeySetStatus, bind_eq_ok, uuidParam_ok, pure_eq_ok, Prod.mk.injEq] at h
  obtain ⟨T, hT, K, hK, -, hdb⟩ := h
  exact ⟨T, K, hT, hK, hdb.symm⟩

theorem sqlAuditInsert_eq_ok {tenantID eventType entityType entityID : String}
    {actorID : Option String} {afterState : Option AfterState} {success : Bool}
    {occurredAt : Time} {rows : List UUID} :
    sqlAuditInsert st db tenantID eventType entityType entityID actorID afterState success
        occurredAt = .ok (rows, db') ↔
      ∃ T I by_ events, UUID.ofText? tenantID = some T ∧ UUID.ofText? entityID = some I ∧
        uuidParam? actorID = .ok by_ ∧
        db.auditEvents.insert?
          { id := st.newID, tenantID := T, eventType, entityType, entityID := I, actorID := by_,
            afterState, success, occurredAt := .ofTime occurredAt } = some events ∧
        (db.tenants.get? T).isSome ∧ rows = [st.newID] ∧
        db' = { db with auditEvents := events } := by
  simp only [sqlAuditInsert, bind_eq_ok, uuidParam_ok, insertUnique_ok, references, ensure_ok,
    pure_eq_ok, Prod.mk.injEq]
  constructor
  · rintro ⟨T, hT, I, hI, by_, hby, events, ⟨-, hins⟩, _, href, hrows, hdb⟩
    exact ⟨T, I, by_, events, hT, hI, hby, hins, href, hrows.symm, hdb.symm⟩
  · rintro ⟨T, I, by_, events, hT, hI, hby, hins, href, hrows, hdb⟩
    exact ⟨T, hT, I, hI, by_, hby, events, ⟨by simp, hins⟩, (), href, hrows.symm, hdb.symm⟩

theorem sqlAuditInsert_ok {tenantID eventType entityType entityID : String}
    {actorID : Option String} {afterState : Option AfterState} {success : Bool}
    {occurredAt : Time} {rows : List UUID}
    (h : sqlAuditInsert st db tenantID eventType entityType entityID actorID afterState success
      occurredAt = .ok (rows, db')) :
    ∃ T row events, UUID.ofText? tenantID = some T ∧ row.tenantID = T ∧
      db.auditEvents.insert? row = some events ∧ db' = { db with auditEvents := events } := by
  obtain ⟨T, I, by_, events, hT, -, -, hins, -, -, hdb⟩ := sqlAuditInsert_eq_ok.mp h
  exact ⟨T, _, events, hT, rfl, hins, hdb⟩

theorem sqlTenantInsert_ok {name slug : String} {tier : TenantTier} {status : TenantStatus}
    {settings : Bytes} {dataRegion : String} {rows : List TenantRow}
    (h : sqlTenantInsert st db name slug tier status settings dataRegion = .ok (rows, db')) :
    ∃ row tenants, row.id = st.newID ∧ rows = [row] ∧ db.tenants.insert? row = some tenants ∧
      db' = { db with tenants := tenants } := by
  simp only [sqlTenantInsert, bind_eq_ok, textParam_ok, labelParam_ok, insertUnique_ok, pure_eq_ok,
    Prod.mk.injEq] at h
  obtain ⟨_, -, _, -, _, -, _, -, tenants, ⟨-, hins⟩, hrows, hdb⟩ := h
  exact ⟨_, tenants, rfl, hrows.symm, hins, hdb.symm⟩

theorem sqlTenantUpdate_ok {id name : String} {tier : TenantTier} {settings : Option Bytes}
    {dataRegion : String} {rows : List TenantRow}
    (h : sqlTenantUpdate st db id name tier settings dataRegion = .ok (rows, db')) :
    db' = db ∨ ∃ (p : TenantRow → Bool) (f : TenantRow → TenantRow) (hf : ∀ r, (f r).id = r.id),
      (∀ r, (f r).status = r.status) ∧ db' = { db with tenants := db.tenants.update p f hf } := by
  simp only [sqlTenantUpdate, bind_eq_ok, uuidParam_ok] at h
  obtain ⟨T, -, name, -, tier, -, region, -, h⟩ := h
  split at h
  · simp only [pure_eq_ok, Prod.mk.injEq] at h
    exact .inl h.2.symm
  · simp only [bind_eq_ok, pure_eq_ok, Prod.mk.injEq] at h
    obtain ⟨settings, -, -, rfl⟩ := h
    exact .inr ⟨fun r => decide (r.id = T),
      fun r => { r with name, tier, settings, dataRegion := region, updatedAt := st.now },
      fun _ => rfl, fun _ => rfl, rfl⟩

theorem sqlTenantUpdateStatus_ok {id : String} {status : TenantStatus} {rows : List Unit}
    (h : sqlTenantUpdateStatus st db id status = .ok (rows, db')) :
    ∃ T, UUID.ofText? id = some T ∧
      db' = { db with
        tenants := db.tenants.update (fun r => decide (r.id = T))
          (fun r => { r with status, updatedAt := st.now }) fun _ => rfl } := by
  simp only [sqlTenantUpdateStatus, bind_eq_ok, uuidParam_ok, pure_eq_ok, Prod.mk.injEq] at h
  obtain ⟨T, hT, -, hdb⟩ := h
  exact ⟨T, hT, hdb.symm⟩

end Writes

/-! ### Statements that read -/

section Reads

variable {db db' : DB}

theorem sqlIdentityGetByID_ok {tenantID id : String} {rows : List IdentityRow}
    (h : sqlIdentityGetByID db tenantID id = .ok (rows, db')) :
    db' = db ∧ ∃ T I, UUID.ofText? tenantID = some T ∧ UUID.ofText? id = some I ∧
      ∀ r ∈ rows, db.identities.get? I = some r ∧ r.tenantID = T := by
  simp only [sqlIdentityGetByID, bind_eq_ok, uuidParam_ok, pure_eq_ok, Prod.mk.injEq] at h
  obtain ⟨T, hT, I, hI, hrows, hdb⟩ := h
  refine ⟨hdb.symm, T, I, hT, hI, ?_⟩
  intro r hr
  rw [← hrows, List.mem_filter] at hr
  simp only [identityAt, Bool.and_eq_true, decide_eq_true_eq] at hr
  exact ⟨Table.get?_eq_some.mpr ⟨hr.1, hr.2.2⟩, hr.2.1⟩

/-- The row of an identity is found under its own tenant and identifier. -/
theorem sqlIdentityGetByID_of_get? {tenantID id : String} {row : IdentityRow} {I : UUID}
    (hT : UUID.ofText? tenantID = some row.tenantID) (hI : UUID.ofText? id = some I)
    (h : db.identities.get? I = some row) :
    sqlIdentityGetByID db tenantID id = .ok ([row], db) := by
  simp only [sqlIdentityGetByID, bind_eq_ok, uuidParam_ok, pure_eq_ok, Prod.mk.injEq]
  refine ⟨row.tenantID, hT, I, hI, ?_, trivial⟩
  obtain ⟨hmem, rfl⟩ := Table.get?_eq_some.mp h
  refine Table.filter_eq_singleton _ _ hmem (by simp [identityAt]) fun r hr => ?_
  simp only [identityAt, Bool.and_eq_true, decide_eq_true_eq] at hr
  exact hr.2

theorem sqlKeyGetByID_ok {tenantID id : String} {rows : List KeyRow}
    (h : sqlKeyGetByID db tenantID id = .ok (rows, db')) :
    db' = db ∧ ∃ T K, UUID.ofText? tenantID = some T ∧ UUID.ofText? id = some K ∧
      ∀ r ∈ rows, db.identityKeys.get? K = some r ∧ r.tenantID = T := by
  simp only [sqlKeyGetByID, bind_eq_ok, uuidParam_ok, pure_eq_ok, Prod.mk.injEq] at h
  obtain ⟨T, hT, K, hK, hrows, hdb⟩ := h
  refine ⟨hdb.symm, T, K, hT, hK, ?_⟩
  intro r hr
  rw [← hrows, List.mem_filter] at hr
  simp only [keyAt, Bool.and_eq_true, decide_eq_true_eq] at hr
  exact ⟨Table.get?_eq_some.mpr ⟨hr.1, hr.2.2⟩, hr.2.1⟩

theorem sqlKeyListByIdentity_ok {tenantID identityID : String} {status : Option KeyStatus}
    {rows : List KeyRow}
    (h : sqlKeyListByIdentity db tenantID identityID status = .ok (rows, db')) :
    ∃ T I, UUID.ofText? tenantID = some T ∧ UUID.ofText? identityID = some I ∧
      ∀ r ∈ rows, r.tenantID = T := by
  simp only [sqlKeyListByIdentity, bind_eq_ok, uuidParam_ok, pure_eq_ok, Prod.mk.injEq] at h
  obtain ⟨T, hT, I, hI, rfl, -⟩ := h
  refine ⟨T, I, hT, hI, fun r hr => ?_⟩
  obtain ⟨-, hsel⟩ := List.mem_filter.mp ((List.mem_insertionSort _).mp hr)
  simp only [Bool.and_eq_true, decide_eq_true_eq] at hsel
  exact hsel.1

theorem sqlKeyGetByID_of_get? {tenantID id : String} {row : KeyRow} {K : UUID}
    (hT : UUID.ofText? tenantID = some row.tenantID) (hK : UUID.ofText? id = some K)
    (h : db.identityKeys.get? K = some row) : sqlKeyGetByID db tenantID id = .ok ([row], db) := by
  simp only [sqlKeyGetByID, bind_eq_ok, uuidParam_ok, pure_eq_ok, Prod.mk.injEq]
  refine ⟨row.tenantID, hT, K, hK, ?_, trivial⟩
  obtain ⟨hmem, rfl⟩ := Table.get?_eq_some.mp h
  refine Table.filter_eq_singleton _ _ hmem (by simp [keyAt]) fun r hr => ?_
  simp only [keyAt, Bool.and_eq_true, decide_eq_true_eq] at hr
  exact hr.2

theorem sqlIdentityGetByHandle_ok {tenantID handle : String} {rows : List IdentityRow}
    (h : sqlIdentityGetByHandle db tenantID handle = .ok (rows, db')) :
    db' = db ∧ hasNul handle = false ∧ ∃ T, UUID.ofText? tenantID = some T ∧
      ∀ r ∈ rows, r ∈ db.identities.rows ∧ r.tenantID = T ∧ citextEq r.handle handle = true := by
  simp only [sqlIdentityGetByHandle, bind_eq_ok, uuidParam_ok, textParam_ok, pure_eq_ok,
    Prod.mk.injEq] at h
  obtain ⟨T, hT, _, ⟨hnul, rfl⟩, hrows, hdb⟩ := h
  refine ⟨hdb.symm, hnul, T, hT, fun r hr => ?_⟩
  rw [← hrows, List.mem_filter] at hr
  simp only [Bool.and_eq_true, decide_eq_true_eq] at hr
  exact ⟨hr.1, hr.2.1, hr.2.2⟩

theorem sqlTenantGetByID_ok {id : String} {rows : List TenantRow}
    (h : sqlTenantGetByID db id = .ok (rows, db')) :
    db' = db ∧ ∃ T, UUID.ofText? id = some T ∧ ∀ r ∈ rows, db.tenants.get? T = some r := by
  simp only [sqlTenantGetByID, bind_eq_ok, uuidParam_ok, pure_eq_ok, Prod.mk.injEq] at h
  obtain ⟨T, hT, hrows, hdb⟩ := h
  refine ⟨hdb.symm, T, hT, fun r hr => ?_⟩
  rw [← hrows, List.mem_filter] at hr
  exact Table.get?_eq_some.mpr ⟨hr.1, of_decide_eq_true hr.2⟩

theorem sqlTenantGetByID_of_get? {id : String} {row : TenantRow} {T : UUID}
    (hT : UUID.ofText? id = some T) (h : db.tenants.get? T = some row) :
    sqlTenantGetByID db id = .ok ([row], db) := by
  simp only [sqlTenantGetByID, bind_eq_ok, uuidParam_ok, pure_eq_ok, Prod.mk.injEq]
  refine ⟨T, hT, ?_, trivial⟩
  obtain ⟨hmem, rfl⟩ := Table.get?_eq_some.mp h
  exact Table.filter_eq_singleton _ _ hmem (by simp) fun r hr => of_decide_eq_true hr

theorem mem_of_mem_page {ρ : Type} {limit offset : Int} {rows : List ρ} {r : ρ}
    (h : r ∈ page limit offset rows) : r ∈ rows := by
  have hrest : ∀ r ∈ (if 0 < offset then rows.drop offset.toNat else rows), r ∈ rows := by
    intro r hr
    split at hr
    · exact List.mem_of_mem_drop hr
    · exact hr
  by_cases hlimit : 0 < limit
  · rw [page, if_pos hlimit] at h
    exact hrest r (List.mem_of_mem_take h)
  · rw [page, if_neg hlimit] at h
    exact hrest r h

theorem sqlIdentityList_ok {tenantID : String} {filter : IdentityFilter} {rows : List IdentityRow}
    (h : sqlIdentityList db tenantID filter = .ok (rows, db')) :
    db' = db ∧ ∃ T, UUID.ofText? tenantID = some T ∧
      ∀ r ∈ rows, r ∈ db.identities.rows ∧ r.tenantID = T := by
  unfold sqlIdentityList at h
  obtain ⟨T, hT, h⟩ := bind_eq_ok.mp h
  have hpage : ∃ status, rows = page filter.limit filter.offset
      ((db.identities.rows.filter fun r => decide (r.tenantID = T) && optEq filter.type r.type &&
        optEq status r.status).insertionSort fun a b => identityOrder filter a b = true) ∧
      db' = db := by
    cases htype : filter.type with
    | none =>
      simp only [htype, bind_eq_ok, pure_eq_ok, Prod.mk.injEq] at h
      obtain ⟨status, -, hrows, hdb⟩ := h
      exact ⟨status, hrows.symm, hdb.symm⟩
    | some t =>
      simp only [htype, bind_eq_ok, pure_eq_ok, Prod.mk.injEq] at h
      obtain ⟨_, -, status, -, hrows, hdb⟩ := h
      exact ⟨status, hrows.symm, hdb.symm⟩
  obtain ⟨status, rfl, hdb⟩ := hpage
  refine ⟨hdb, T, uuidParam_ok.mp hT, fun r hr => ?_⟩
  have hsorted := (List.mem_insertionSort _).mp (mem_of_mem_page hr)
  obtain ⟨hmem, hsel⟩ := List.mem_filter.mp hsorted
  simp only [Bool.and_eq_true, decide_eq_true_eq] at hsel
  exact ⟨hmem, hsel.1.1⟩

end Reads

/-! ### Creating an identity -/

theorem many_ok {ρ α : Type} {scan : ρ → α} {fail : Error → Error} {r : Except PgError (List ρ)}
    {as : List α} (h : many scan fail r = .ok as) : ∃ rows, r = .ok rows ∧ as = rows.map scan := by
  match r, h with
  | .ok rows, h => exact ⟨rows, rfl, (Except.ok.inj h).symm⟩

theorem single_ok {ρ α : Type} {scan : ρ → α} {fail : Error → Error} {r : Except PgError (List ρ)}
    {a : α} (h : single scan fail r = .ok a) :
    ∃ row rest, r = .ok (row :: rest) ∧ a = scan row := by
  match r, h with
  | .ok (row :: rest), h => exact ⟨row, rest, rfl, (Except.ok.inj h).symm⟩

theorem answer_ok {q : Query} {db : DB} {e : Choice} {rows : List q.Row}
    (h : (answer q db e).1 = .ok rows) :
    q.eval e.stamp db = .ok (rows, (answer q db e).2) := by
  unfold answer at h ⊢
  cases hup : e.available with
  | false => simp [hup] at h
  | true =>
    cases heval : q.eval e.stamp db with
    | error code => simp [hup, heval] at h
    | ok r =>
      simp only [hup, heval, if_true, Except.ok.injEq] at h
      simp only [if_true, ← h]

/-- The body of the transaction came to an end, so both of its statements were answered. -/
theorem createTx_ok {now : Time} {ident a : Identity Attrs} {es : Nat → Choice} {s : Session}
    (h : ((IdentityRepo.createTx now ident).run Statement.exec es s).1 = .ok a) :
    ∃ T by_ ids events entry,
      let row := insertedIdentity (es 0).stamp T ident.type ident.displayName ident.handle
        ident.status (ident.attributes.getD []) [] by_
      UUID.ofText? ident.tenantID = some T ∧ s.db.identities.insert? row = some ids ∧
      entry.tenantID = T ∧ s.db.auditEvents.insert? entry = some events ∧ a = scanIdentity row ∧
      ((IdentityRepo.createTx now ident).run Statement.exec es s).2.db =
        { s.db with identities := ids, auditEvents := events } := by
  obtain ⟨result, hfirst, hrun⟩ := run_ask_bind_ok _ _ es h
  obtain ⟨row, rest, hans, rfl⟩ := single_ok hfirst
  obtain ⟨T, _, _, by_, ids, hT, ha, hiv, -, hins, hrows, hdb⟩ :=
    sqlIdentityInsert_ok (answer_ok hans)
  cases ha
  cases hiv
  cases hrows
  have h' := h
  unfold IdentityRepo.createTx at h'
  rw [hrun] at h'
  obtain ⟨_, hsecond, hrun'⟩ := run_ask_bind_ok _ _ _ h'
  obtain ⟨_, _, hans', -⟩ := single_ok hsecond
  obtain ⟨T', entry, events, hT', hentry, hins', hdb'⟩ := sqlAuditInsert_ok (answer_ok hans')
  rw [hT] at hT'
  cases hT'
  have hend := hrun.trans hrun'
  rw [hdb] at hins'
  refine ⟨T, by_, ids, events, entry, hT, hins, hentry, hins', ?_, ?_⟩
  · have ha := congrArg Prod.fst hend
    exact Except.ok.inj (h.symm.trans ha)
  · have hs := congrArg (fun r => r.2.db) hend
    refine hs.trans (hdb'.trans ?_)
    rw [hdb]

/-- Both statements took the tenant and the creator as parameters. -/
theorem createTx_refs {now : Time} {ident a : Identity Attrs} {es : Nat → Choice} {s : Session}
    (h : ((IdentityRepo.createTx now ident).run Statement.exec es s).1 = .ok a) :
    (∃ by_, uuidParam? ident.createdBy = .ok by_) ∧
      ∃ T, UUID.ofText? ident.tenantID = some T ∧ (s.db.tenants.get? T).isSome := by
  obtain ⟨result, hfirst, hrun⟩ := run_ask_bind_ok _ _ es h
  obtain ⟨row, rest, hans, rfl⟩ := single_ok hfirst
  obtain ⟨T, _, _, _, ids, hT, -, -, -, -, -, hdb⟩ := sqlIdentityInsert_ok (answer_ok hans)
  have h' := h
  unfold IdentityRepo.createTx at h'
  rw [hrun] at h'
  obtain ⟨_, hsecond, -⟩ := run_ask_bind_ok _ _ _ h'
  obtain ⟨_, _, hans', -⟩ := single_ok hsecond
  obtain ⟨T', _, by_, _, hT', -, hby, -, htenant, -, -⟩ := sqlAuditInsert_eq_ok.mp (answer_ok hans')
  rw [hdb] at htenant
  exact ⟨⟨by_, hby⟩, T', hT', htenant⟩

theorem perform_create_refs (now : Time) (es : Nat → Choice) {ident a : Identity Attrs} {db : DB}
    (h : (perform (IdentityRepo.create now ident) es db).1 = .ok a) :
    (∃ by_, uuidParam? ident.createdBy = .ok by_) ∧
      ∃ T, UUID.ofText? ident.tenantID = some T ∧ (db.tenants.get? T).isSome := by
  rcases withTenantTx_cases es ⟨none, none⟩ db ident.tenantID
    (IdentityRepo.createTx_only_query now ident) with ⟨e, h1, -⟩ | ⟨a', es', cn, hrun, -, -⟩
  · cases h.symm.trans h1
  · exact createTx_refs hrun

/-- `IdentityRepo.Create` inserts the identity and its audit event, or nothing. -/
theorem perform_create (now : Time) (ident : Identity Attrs) (es : Nat → Choice) (db : DB) :
    (∃ e, perform (IdentityRepo.create now ident) es db = (.error e, db)) ∨
    ∃ st T by_ ids events entry,
      let row := insertedIdentity st T ident.type ident.displayName ident.handle ident.status
        (ident.attributes.getD []) [] by_
      UUID.ofText? ident.tenantID = some T ∧ db.identities.insert? row = some ids ∧
      entry.tenantID = T ∧ db.auditEvents.insert? entry = some events ∧
      perform (IdentityRepo.create now ident) es db =
        (.ok (scanIdentity row), { db with identities := ids, auditEvents := events }) := by
  unfold perform
  rcases withTenantTx_cases es ⟨none, none⟩ db ident.tenantID
    (IdentityRepo.createTx_only_query now ident) with ⟨e, h1, h2⟩ | ⟨a, es', cn, hrun, h1, h2⟩
  · left
    exact ⟨e, Prod.ext h1 h2⟩
  · right
    obtain ⟨T, by_, ids, events, entry, hT, hins, hentry, hins', rfl, hdb⟩ := createTx_ok hrun
    exact ⟨(es' 0).stamp, T, by_, ids, events, entry, hT, hins, hentry, hins',
      Prod.ext h1 (h2.trans hdb)⟩

end Verion.Postgres
