import Verion.Postgres.Frame
import Verion.Postgres.Refusals

/-!
# What the tables keep

`DB.Wrote` lists what a statement can do to the tables: nothing, one `INSERT` past the
constraints of its table, or an `UPDATE` that leaves the columns that say what a row is.
So no row is ever lost, a key that is no longer active never is again, and the audit log
is only appended to: `DB.Kept` says this of two states of the database. A relation that
no statement breaks holds across every repository call, the transaction of
`IdentityRepo.Create` included.
-/

namespace Verion.Postgres

open Calls

variable {Attrs : Type}

/-! ### Rows -/

structure TenantRow.Kept (r r' : TenantRow) : Prop where
  id : r'.id = r.id
  slug : r'.slug = r.slug
  createdAt : r'.createdAt = r.createdAt

structure IdentityRow.Kept (r r' : IdentityRow) : Prop where
  id : r'.id = r.id
  tenantID : r'.tenantID = r.tenantID
  type : r'.type = r.type
  handle : r'.handle = r.handle
  createdBy : r'.createdBy = r.createdBy
  createdAt : r'.createdAt = r.createdAt
  version : r.version ≤ r'.version
  primaryKey : r.primaryKeyID.isSome → r'.primaryKeyID.isSome
  deactivated : r.deactivatedAt.isSome → r'.deactivatedAt.isSome

structure KeyRow.Kept (r r' : KeyRow) : Prop where
  columns : { r' with status := r.status, rotatedAt := r.rotatedAt, rotatedTo := r.rotatedTo } = r
  active : r'.status = .active → r.status = .active
  rotated : r.rotatedTo.isSome → r'.rotatedTo.isSome

structure CredentialRow.Kept (r r' : CredentialRow) : Prop where
  columns :
    { r' with status := r.status, signCount := r.signCount, lastUsedAt := r.lastUsedAt } = r
  active : r'.status = .active → r.status = .active
  used : r.lastUsedAt.isSome → r'.lastUsedAt.isSome

theorem TenantRow.Kept.refl (r : TenantRow) : r.Kept r := ⟨rfl, rfl, rfl⟩

theorem IdentityRow.Kept.refl (r : IdentityRow) : r.Kept r :=
  ⟨rfl, rfl, rfl, rfl, rfl, rfl, Int.le_refl _, fun h => h, fun h => h⟩

theorem KeyRow.Kept.refl (r : KeyRow) : r.Kept r := ⟨rfl, fun h => h, fun h => h⟩

theorem CredentialRow.Kept.refl (r : CredentialRow) : r.Kept r := ⟨rfl, fun h => h, fun h => h⟩

theorem TenantRow.Kept.trans {r s u : TenantRow} (h : r.Kept s) (h' : s.Kept u) : r.Kept u where
  id := h'.id.trans h.id
  slug := h'.slug.trans h.slug
  createdAt := h'.createdAt.trans h.createdAt

theorem IdentityRow.Kept.trans {r s u : IdentityRow} (h : r.Kept s) (h' : s.Kept u) :
    r.Kept u where
  id := h'.id.trans h.id
  tenantID := h'.tenantID.trans h.tenantID
  type := h'.type.trans h.type
  handle := h'.handle.trans h.handle
  createdBy := h'.createdBy.trans h.createdBy
  createdAt := h'.createdAt.trans h.createdAt
  version := Int.le_trans h.version h'.version
  primaryKey hr := h'.primaryKey (h.primaryKey hr)
  deactivated hr := h'.deactivated (h.deactivated hr)

theorem KeyRow.Kept.trans {r s u : KeyRow} (h : r.Kept s) (h' : s.Kept u) : r.Kept u where
  columns := by
    have hr := h.columns
    rw [← h'.columns] at hr
    exact hr
  active hu := h.active (h'.active hu)
  rotated hr := h'.rotated (h.rotated hr)

theorem CredentialRow.Kept.trans {r s u : CredentialRow} (h : r.Kept s) (h' : s.Kept u) :
    r.Kept u where
  columns := by
    have hr := h.columns
    rw [← h'.columns] at hr
    exact hr
  active hu := h.active (h'.active hu)
  used hr := h'.used (h.used hr)

theorem KeyRow.Kept.id {r r' : KeyRow} (h : r.Kept r') : r'.id = r.id := by
  have hcolumns := congrArg KeyRow.id h.columns
  exact hcolumns

/-! ### Tables -/

/-- The records of `db` are still there in `db'`. -/
structure DB.Kept (db db' : DB) : Prop where
  tenants : db.tenants.Grows TenantRow.Kept db'.tenants
  identities : db.identities.Grows IdentityRow.Kept db'.identities
  identityKeys : db.identityKeys.Grows KeyRow.Kept db'.identityKeys
  credentials : db.credentials.Grows CredentialRow.Kept db'.credentials
  auditEvents : db.auditEvents.Grows (· = ·) db'.auditEvents

theorem DB.Kept.refl (db : DB) : db.Kept db where
  tenants := .refl TenantRow.Kept.refl _
  identities := .refl IdentityRow.Kept.refl _
  identityKeys := .refl KeyRow.Kept.refl _
  credentials := .refl CredentialRow.Kept.refl _
  auditEvents := .refl (fun _ => rfl) _

theorem DB.Kept.trans {db db' db'' : DB} (h : db.Kept db') (h' : db'.Kept db'') : db.Kept db'' where
  tenants := h.tenants.trans (fun _ _ _ => TenantRow.Kept.trans) h'.tenants
  identities := h.identities.trans (fun _ _ _ => IdentityRow.Kept.trans) h'.identities
  identityKeys := h.identityKeys.trans (fun _ _ _ => KeyRow.Kept.trans) h'.identityKeys
  credentials := h.credentials.trans (fun _ _ _ => CredentialRow.Kept.trans) h'.credentials
  auditEvents := h.auditEvents.trans (fun _ _ _ => Eq.trans) h'.auditEvents

section Lookup

variable {db db' : DB} {u : UUID}

theorem DB.Kept.tenant (h : db.Kept db') (hu : (db.tenants.get? u).isSome) :
    (db'.tenants.get? u).isSome := by
  obtain ⟨r, hr⟩ := Option.isSome_iff_exists.mp hu
  obtain ⟨r', hr', -⟩ := h.tenants.get? (fun _ _ hk => hk.id) hr
  exact Option.isSome_of_eq_some hr'

theorem DB.Kept.identity (h : db.Kept db') (hu : (db.identities.get? u).isSome) :
    (db'.identities.get? u).isSome := by
  obtain ⟨r, hr⟩ := Option.isSome_iff_exists.mp hu
  obtain ⟨r', hr', -⟩ := h.identities.get? (fun _ _ hk => hk.id) hr
  exact Option.isSome_of_eq_some hr'

theorem DB.Kept.key (h : db.Kept db') (hu : (db.identityKeys.get? u).isSome) :
    (db'.identityKeys.get? u).isSome := by
  obtain ⟨r, hr⟩ := Option.isSome_iff_exists.mp hu
  obtain ⟨r', hr', -⟩ := h.identityKeys.get? (fun _ _ hk => hk.id) hr
  exact Option.isSome_of_eq_some hr'

end Lookup

/-! ### What a statement writes -/

/-- The tables after a statement, with what the server has checked. -/
inductive DB.Wrote (db : DB) : DB → Prop where
  | nothing : DB.Wrote db db
  | tenants {p : TenantRow → Bool} {f : TenantRow → TenantRow} {hf : ∀ r, (f r).id = r.id}
      (hrow : ∀ r : TenantRow, r.Kept (f r))
      (htier : ∀ r, isTenantTier r.tier = true → isTenantTier (f r).tier = true) :
      DB.Wrote db { db with tenants := db.tenants.update p f hf }
  | identities {p : IdentityRow → Bool} {f : IdentityRow → IdentityRow}
      {hf : ∀ r, (f r).id = r.id} (hrow : ∀ r : IdentityRow, r.Kept (f r))
      (hprimary : ∀ r, ∀ K ∈ (f r).primaryKeyID,
        K ∈ r.primaryKeyID ∨ (db.identityKeys.get? K).isSome) :
      DB.Wrote db { db with identities := db.identities.update p f hf }
  | keys {p : KeyRow → Bool} {f : KeyRow → KeyRow} {hf : ∀ r, (f r).id = r.id}
      (hrow : ∀ r : KeyRow, r.Kept (f r))
      (hrotated : ∀ r, ∀ K ∈ (f r).rotatedTo, K ∈ r.rotatedTo ∨ (db.identityKeys.get? K).isSome) :
      DB.Wrote db { db with identityKeys := db.identityKeys.update p f hf }
  | credentials {p : CredentialRow → Bool} {f : CredentialRow → CredentialRow}
      {hf : ∀ r, (f r).id = r.id} (hrow : ∀ r : CredentialRow, r.Kept (f r)) :
      DB.Wrote db { db with credentials := db.credentials.update p f hf }
  | newTenant {r : TenantRow} {tenants : Table TenantRow.id}
      (hins : db.tenants.insert? r = some tenants) (htier : isTenantTier r.tier = true)
      (hslug : ∀ s ∈ db.tenants.rows, citextEq s.slug r.slug = false) :
      DB.Wrote db { db with tenants }
  | newIdentity {r : IdentityRow} {identities : Table IdentityRow.id}
      (hins : db.identities.insert? r = some identities) (htype : isIdentityType r.type = true)
      (hhandle : ∀ s ∈ db.identities.rows, s.tenantID = r.tenantID →
        citextEq s.handle r.handle = false)
      (htenant : (db.tenants.get? r.tenantID).isSome)
      (hby : ∀ u ∈ r.createdBy, (identities.get? u).isSome) (hprimary : r.primaryKeyID = none) :
      DB.Wrote db { db with identities }
  | newKey {r : KeyRow} {identityKeys : Table KeyRow.id}
      (hins : db.identityKeys.insert? r = some identityKeys)
      (hlabels : isKeyType r.keyType = true ∧ isKeyPurpose r.purpose = true)
      (hactive : r.status = .active → ∀ s ∈ db.identityKeys.rows, s.status = .active →
        s.identityID = r.identityID → s.purpose ≠ r.purpose)
      (hident : (db.identities.get? r.identityID).isSome)
      (htenant : (db.tenants.get? r.tenantID).isSome) (hrotated : r.rotatedTo = none) :
      DB.Wrote db { db with identityKeys }
  | newCredential {r : CredentialRow} {credentials : Table CredentialRow.id}
      (hins : db.credentials.insert? r = some credentials)
      (hpasskey : r.credentialID.isSome → ∀ s ∈ db.credentials.rows, s.tenantID = r.tenantID →
        s.credentialID ≠ r.credentialID)
      (hident : (db.identities.get? r.identityID).isSome)
      (htenant : (db.tenants.get? r.tenantID).isSome)
      (hkey : ∀ u ∈ r.keyID, (db.identityKeys.get? u).isSome) :
      DB.Wrote db { db with credentials }
  | newEvent {r : AuditRow} {auditEvents : Table AuditRow.id}
      (hins : db.auditEvents.insert? r = some auditEvents)
      (htenant : (db.tenants.get? r.tenantID).isSome) :
      DB.Wrote db { db with auditEvents }

theorem DB.Wrote.kept {db db' : DB} (h : db.Wrote db') : db.Kept db' := by
  cases h with
  | nothing => exact .refl db
  | @tenants p f hf hrow htier =>
    exact { DB.Kept.refl db with
      tenants := Table.grows_update hf TenantRow.Kept.refl fun r _ => hrow r }
  | @identities p f hf hrow hprimary =>
    exact { DB.Kept.refl db with
      identities := Table.grows_update hf IdentityRow.Kept.refl fun r _ => hrow r }
  | @keys p f hf hrow hrotated =>
    exact { DB.Kept.refl db with
      identityKeys := Table.grows_update hf KeyRow.Kept.refl fun r _ => hrow r }
  | @credentials p f hf hrow =>
    exact { DB.Kept.refl db with
      credentials := Table.grows_update hf CredentialRow.Kept.refl fun r _ => hrow r }
  | newTenant hins =>
    exact { DB.Kept.refl db with tenants := Table.grows_insert? TenantRow.Kept.refl hins }
  | newIdentity hins =>
    exact { DB.Kept.refl db with identities := Table.grows_insert? IdentityRow.Kept.refl hins }
  | newKey hins =>
    exact { DB.Kept.refl db with identityKeys := Table.grows_insert? KeyRow.Kept.refl hins }
  | newCredential hins =>
    exact { DB.Kept.refl db with credentials := Table.grows_insert? CredentialRow.Kept.refl hins }
  | newEvent hins =>
    exact { DB.Kept.refl db with auditEvents := Table.grows_insert? (fun _ => rfl) hins }

/-! ### Statements -/

section Statements

variable (st : Stamp) (db : DB)

theorem wrote_tenantInsert (name slug : String) (tier : TenantTier) (status : TenantStatus)
    (settings : Bytes) (region : String) :
    Leaves db.Wrote (sqlTenantInsert st db name slug tier status settings region) := by
  intro rows db' h
  simp only [sqlTenantInsert, bind_eq_ok, labelParam_ok, insertUnique_ok, pure_eq_ok,
    Prod.mk.injEq, List.any_eq_false, Bool.not_eq_true] at h
  obtain ⟨_, -, _, -, _, ⟨htier, rfl⟩, _, -, _, ⟨hslug, hins⟩, -, rfl⟩ := h
  exact .newTenant hins htier hslug

theorem wrote_tenantUpdate (id name : String) (tier : TenantTier) (settings : Option Bytes)
    (region : String) : Leaves db.Wrote (sqlTenantUpdate st db id name tier settings region) := by
  intro rows db' h
  simp only [sqlTenantUpdate, bind_eq_ok, labelParam_ok] at h
  obtain ⟨T, -, name, -, _, ⟨htier, rfl⟩, region, -, h⟩ := h
  split at h
  · cases h
    exact .nothing
  · simp only [bind_eq_ok, pure_eq_ok, Prod.mk.injEq] at h
    obtain ⟨settings, -, -, rfl⟩ := h
    exact .tenants (fun _ => ⟨rfl, rfl, rfl⟩) fun _ _ => htier

theorem wrote_tenantUpdateStatus (id : String) (status : TenantStatus) :
    Leaves db.Wrote (sqlTenantUpdateStatus st db id status) := by
  intro rows db' h
  obtain ⟨T, -, rfl⟩ := sqlTenantUpdateStatus_ok h
  exact .tenants (fun _ => ⟨rfl, rfl, rfl⟩) fun _ htier => htier

theorem wrote_identityInsert (tenantID : String) (type : IdentityType)
    (displayName handle : String) (status : IdentityStatus)
    (attributes attributesIV : Option Bytes) (createdBy : Option String) :
    Leaves db.Wrote (sqlIdentityInsert st db tenantID type displayName handle status attributes
      attributesIV createdBy) := by
  intro rows db' h
  simp only [sqlIdentityInsert, bind_eq_ok, labelParam_ok, insertUnique_ok, references_ok,
    references?_ok, pure_eq_ok, Prod.mk.injEq, List.any_eq_false, Bool.and_eq_true,
    decide_eq_true_eq, not_and, Bool.not_eq_true] at h
  obtain ⟨T, -, _, ⟨htype, rfl⟩, _, -, _, -, _, -, _, -, _, -, _, ⟨hhandle, hins⟩, _, htenant, _,
    hby, -, rfl⟩ := h
  exact .newIdentity hins htype hhandle htenant hby rfl

theorem wrote_identityUpdate (tenantID id displayName : String)
    (attributes attributesIV : Option Bytes) (version : Int) :
    Leaves db.Wrote
      (sqlIdentityUpdate st db tenantID id displayName attributes attributesIV version) := by
  intro rows db' h
  rcases sqlIdentityUpdate_ok h with ⟨-, rfl⟩ | ⟨T, I, a, iv, row, -, -, -, -, -, -, -, -, -, rfl⟩
  · exact .nothing
  · -- the version goes up by one
    have hrow : ∀ r : IdentityRow, r.Kept (r.updated displayName a iv st.now) := by
      intro r
      have hle : r.version ≤ r.version + 1 := by omega
      exact ⟨rfl, rfl, rfl, rfl, rfl, rfl, hle, fun h => h, fun h => h⟩
    exact .identities hrow fun _ _ hK => .inl hK

theorem wrote_identityUpdateStatus (tenantID id : String) (status : IdentityStatus) :
    Leaves db.Wrote (sqlIdentityUpdateStatus st db tenantID id status) := by
  intro rows db' h
  obtain ⟨T, I, -, -, rfl⟩ := sqlIdentityUpdateStatus_ok h
  have hrow : ∀ r : IdentityRow, r.Kept (r.withStatus status st.now) := by
    intro r
    refine ⟨rfl, rfl, rfl, rfl, rfl, rfl, Int.le_refl _, fun h => h, fun h => ?_⟩
    -- a terminal status stamps the row, another one leaves the stamp
    unfold IdentityRow.withStatus
    cases status.isTerminal
    · exact h
    · rfl
  exact .identities hrow fun _ _ hK => .inl hK

theorem wrote_identitySetPrimaryKey (tenantID id keyID : String) :
    Leaves db.Wrote (sqlIdentitySetPrimaryKey st db tenantID id keyID) := by
  intro rows db' h
  simp only [sqlIdentitySetPrimaryKey, bind_eq_ok] at h
  obtain ⟨T, -, I, -, K, -, h⟩ := h
  split at h
  · simp only [bind_eq_ok, references_ok, pure_eq_ok, Prod.mk.injEq] at h
    obtain ⟨_, hkey, -, rfl⟩ := h
    have hrow : ∀ r : IdentityRow, r.Kept (r.withPrimaryKey K st.now) := fun r =>
      ⟨rfl, rfl, rfl, rfl, rfl, rfl, Int.le_refl _, fun _ => rfl, fun h => h⟩
    refine .identities hrow fun r K' hK' => .inr ?_
    cases hK'
    exact hkey
  · cases h
    exact .nothing

theorem wrote_auditInsert (tenantID eventType entityType entityID : String)
    (actorID : Option String) (afterState : Option AfterState) (success : Bool)
    (occurredAt : Time) :
    Leaves db.Wrote (sqlAuditInsert st db tenantID eventType entityType entityID actorID afterState
      success occurredAt) := by
  intro rows db' h
  obtain ⟨T, I, by_, events, -, -, -, hins, htenant, -, rfl⟩ := sqlAuditInsert_eq_ok.mp h
  exact .newEvent hins htenant

theorem wrote_keyInsert (key : IdentityKey) : Leaves db.Wrote (sqlKeyInsert st db key) := by
  intro rows db' h
  obtain ⟨I, T, keys, -, -, hlabels, -, hactive, hins, hident, htenant, -, rfl⟩ :=
    sqlKeyInsert_eq_ok.mp h
  exact .newKey hins hlabels hactive hident htenant rfl

theorem wrote_keyRotate (tenantID oldKeyID newKeyID : String) :
    Leaves db.Wrote (sqlKeyRotate st db tenantID oldKeyID newKeyID) := by
  intro rows db' h
  simp only [sqlKeyRotate, bind_eq_ok] at h
  obtain ⟨T, -, K, -, N, -, h⟩ := h
  split at h
  · simp only [bind_eq_ok, references_ok, pure_eq_ok, Prod.mk.injEq] at h
    obtain ⟨_, hkey, -, rfl⟩ := h
    have hrow : ∀ r : KeyRow, r.Kept (r.rotated N st.now) := fun r =>
      ⟨rfl, fun h => KeyStatus.noConfusion h, fun _ => rfl⟩
    refine .keys hrow fun r N' hN' => .inr ?_
    cases hN'
    exact hkey
  · cases h
    exact .nothing

theorem wrote_keySetStatus {status : KeyStatus} (hstatus : status ≠ .active)
    (tenantID keyID : String) : Leaves db.Wrote (sqlKeySetStatus db status tenantID keyID) := by
  intro rows db' h
  obtain ⟨T, K, -, -, rfl⟩ := sqlKeySetStatus_ok h
  exact .keys (fun _ => ⟨rfl, fun h => absurd h hstatus, fun h => h⟩) fun _ _ hK => .inl hK

theorem wrote_credentialInsert (cred : Credential) :
    Leaves db.Wrote (sqlCredentialInsert st db cred) := by
  intro rows db' h
  simp only [sqlCredentialInsert, bind_eq_ok, insertUnique_ok, references_ok, references?_ok,
    pure_eq_ok, Prod.mk.injEq, List.any_eq_false, Bool.and_eq_true, decide_eq_true_eq,
    not_and] at h
  obtain ⟨_, -, _, -, _, -, _, -, _, -, _, -, _, -, _, ⟨hpasskey, hins⟩, _, hident, _, htenant, _,
    hkey, -, rfl⟩ := h
  exact .newCredential hins (fun hsome s hs => hpasskey s hs hsome) hident htenant hkey

theorem wrote_credentialSet {f : CredentialRow → CredentialRow} {hf : ∀ r, (f r).id = r.id}
    (hrow : ∀ r : CredentialRow, r.Kept (f r)) (tenantID id : String) :
    Leaves db.Wrote (sqlCredentialSet db f hf tenantID id) := by
  intro rows db' h
  simp only [sqlCredentialSet, bind_eq_ok, pure_eq_ok, Prod.mk.injEq] at h
  obtain ⟨_, -, _, -, -, rfl⟩ := h
  exact .credentials hrow

end Statements

theorem wrote_eval (q : Query) (st : Stamp) (db : DB) : Leaves db.Wrote (q.eval st db) := by
  by_cases hread : q.target = none
  · intro rows db' h
    have hoff := leaves_eval q st db rows db' h
    rw [hread] at hoff
    rw [hoff.eq]
    exact .nothing
  · cases q with
    | tenantInsert => apply wrote_tenantInsert
    | tenantUpdate => apply wrote_tenantUpdate
    | tenantUpdateStatus => apply wrote_tenantUpdateStatus
    | identityInsert => apply wrote_identityInsert
    | identityUpdate => apply wrote_identityUpdate
    | identityUpdateStatus => apply wrote_identityUpdateStatus
    | identitySetPrimaryKey => apply wrote_identitySetPrimaryKey
    | auditInsert => apply wrote_auditInsert
    | keyInsert => apply wrote_keyInsert
    | keyRotate => apply wrote_keyRotate
    | keyRevoke => exact wrote_keySetStatus db (by decide) _ _
    | keyMarkCompromised => exact wrote_keySetStatus db (by decide) _ _
    | credentialInsert => apply wrote_credentialInsert
    | credentialUpdateSignCount =>
      apply wrote_credentialSet
      exact fun r => ⟨rfl, fun h => h, fun h => h⟩
    | credentialUpdateLastUsed =>
      apply wrote_credentialSet
      exact fun r => ⟨rfl, fun h => h, fun _ => rfl⟩
    | credentialRevoke =>
      apply wrote_credentialSet
      exact fun r => ⟨rfl, fun h => CredentialStatus.noConfusion h, fun h => h⟩
    | _ => exact absurd rfl hread

/-! ### Calls -/

/-- A relation between states of the database that no statement breaks. -/
structure Closed (R : DB → DB → Prop) : Prop where
  refl : ∀ db, R db db
  trans : ∀ db db' db'', R db db' → R db' db'' → R db db''
  eval : ∀ (q : Query) (st : Stamp) (db : DB), Leaves (R db) (q.eval st db)

theorem closed_kept : Closed DB.Kept where
  refl := DB.Kept.refl
  trans _ _ _ := DB.Kept.trans
  eval q st db rows db' h := (wrote_eval q st db rows db' h).kept

namespace Closed

variable {R : DB → DB → Prop} {α : Type}

theorem outcome (hR : Closed R) {q : Query} {f : List q.Row → Except Error α} {db db' : DB}
    {r : Except Error α} (h : Outcome q f db r db') : R db db' := by
  cases h with
  | failed e => exact hR.refl db
  | answered st rows _ heval => exact hR.eval q st db rows db' heval

theorem query (hR : Closed R) (q : Query) (e : Choice) (s : Session) :
    R s.db (Statement.exec (.query q) e s).2.db := by
  simp only [Statement.exec]
  split
  · split
    · next rows db heval => exact hR.eval q e.stamp s.db rows db heval
    · exact hR.refl s.db
  · exact hR.refl s.db

/-- What a transaction sends between its beginning and its end. -/
theorem queries (hR : Closed R) {fn : Script α} (hfn : fn.Only Statement.isQuery)
    (es : Nat → Choice) (s : Session) : R s.db (fn.run Statement.exec es s).2.db := by
  induction fn generalizing es s with
  | ret a => exact hR.refl s.db
  | fail e => exact hR.refl s.db
  | call c k ih =>
    rw [Program.run_call]
    cases c with
    | query q =>
      have hfirst := hR.query q (es 0) s
      have hrest := ih (Statement.exec (.query q) (es 0) s).1 (hfn.2 _) (fun n => es (n + 1))
        (Statement.exec (.query q) (es 0) s).2
      exact hR.trans _ _ _ hfirst hrest
    | _ => exact absurd hfn.1 not_false

theorem conn (hR : Closed R) {q : Query} {finish : Except PgError (List q.Row) → Except Error α}
    (hf : ∀ pe, ∃ e, finish (.error pe) = .error e) (T : String) (es : Nat → Choice) (db : DB) :
    R db (perform (withTenantConn T (ask q finish)) es db).2 :=
  hR.outcome (outcome_withTenantConn hf T es db)

theorem pool (hR : Closed R) {q : Query} {finish : Except PgError (List q.Row) → Except Error α}
    (hf : ∀ pe, ∃ e, finish (.error pe) = .error e) (es : Nat → Choice) (db : DB) :
    R db (perform (viaPool q finish) es db).2 :=
  hR.outcome (outcome_viaPool hf es db)

theorem mapped (hR : Closed R) {q : Query} {finish : Except PgError (List q.Row) → Except Error α}
    (hf : ∀ pe, ∃ e, finish (.error pe) = .error e) (f : Error → Error) (T : String)
    (es : Nat → Choice) (db : DB) :
    R db (perform (CredentialRepo.mapError f (withTenantConn T (ask q finish))) es db).2 := by
  rw [perform_mapError]
  exact hR.conn hf T es db

theorem tx (hR : Closed R) {fn : Script α} (hfn : fn.Only Statement.isQuery) (T : String)
    (es : Nat → Choice) (db : DB) : R db (perform (withTenantTx T fn) es db).2 := by
  unfold perform
  rcases withTenantTx_cases es ⟨none, none⟩ db T hfn with ⟨e, -, hdb⟩ | ⟨a, es', cn, -, -, hdb⟩
  · simp only [hdb]
    exact hR.refl db
  · simp only [hdb]
    exact hR.queries hfn es' ⟨cn, db⟩

/-- Every repository call, whatever becomes of its statements. -/
theorem perform (hR : Closed R) (c : RepoCall Attrs) (now : Time) (es : Nat → Choice) (db : DB) :
    R db (perform (c.script now) es db).2 := by
  cases c with
  | tenants c =>
    cases c <;> exact hR.pool (fun _ => ⟨_, rfl⟩) es db
  | identities c =>
    cases c with
    | create ident => exact hR.tx (IdentityRepo.createTx_only_query now ident) _ es db
    | _ => exact hR.conn (fun _ => ⟨_, rfl⟩) _ es db
  | keys c =>
    cases c <;> exact hR.conn (fun _ => ⟨_, rfl⟩) _ es db
  | credentials c =>
    cases c with
    | create cred => exact hR.mapped (fun _ => ⟨_, rfl⟩) _ _ es db
    | getByID tenantID id => exact hR.mapped (fun _ => ⟨_, rfl⟩) _ _ es db
    | getWebAuthnByCredentialID tenantID credentialID =>
      exact hR.mapped (fun _ => ⟨_, rfl⟩) _ _ es db
    | _ => exact hR.pool (fun _ => ⟨_, rfl⟩) es db
  | audit c =>
    cases c <;> exact hR.conn (fun _ => ⟨_, rfl⟩) _ es db

end Closed

end Verion.Postgres
