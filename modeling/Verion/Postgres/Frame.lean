import Verion.Postgres.Effects

/-!
# What a repository call leaves alone

Every statement writes at most one table, and every repository method sends
statements of one target table; `IdentityRepo.Create` also writes the audit log.
-/

namespace Verion.Postgres

open Calls

variable {Attrs : Type}

inductive TableName where
  | tenants | identities | identityKeys | credentials | auditEvents
deriving DecidableEq, Repr

/-- The table a statement can write. -/
def Query.target : Query → Option TableName
  | .tenantInsert .. | .tenantUpdate .. | .tenantUpdateStatus .. => some .tenants
  | .identityInsert .. | .identityUpdate .. | .identityUpdateStatus ..
  | .identitySetPrimaryKey .. => some .identities
  | .auditInsert .. => some .auditEvents
  | .keyInsert .. | .keyRotate .. | .keyRevoke .. | .keyMarkCompromised .. => some .identityKeys
  | .credentialInsert .. | .credentialUpdateSignCount .. | .credentialUpdateLastUsed ..
  | .credentialRevoke .. => some .credentials
  | _ => none

/-- The tables outside `t` are the same. -/
structure DB.AgreeOff (t : Option TableName) (db db' : DB) : Prop where
  tenants : t ≠ some .tenants → db'.tenants = db.tenants
  identities : t ≠ some .identities → db'.identities = db.identities
  identityKeys : t ≠ some .identityKeys → db'.identityKeys = db.identityKeys
  credentials : t ≠ some .credentials → db'.credentials = db.credentials
  auditEvents : t ≠ some .auditEvents → db'.auditEvents = db.auditEvents

theorem DB.AgreeOff.refl (t : Option TableName) (db : DB) : db.AgreeOff t db :=
  ⟨fun _ => rfl, fun _ => rfl, fun _ => rfl, fun _ => rfl, fun _ => rfl⟩

/-- Whatever tables a statement leaves satisfy `p`. -/
def Leaves {ρ : Type} (p : DB → Prop) (x : Except SqlState (Rows ρ)) : Prop :=
  ∀ rows db', x = .ok (rows, db') → p db'

theorem leaves_bind {ρ α : Type} {p : DB → Prop} {x : Except SqlState α}
    {f : α → Except SqlState (Rows ρ)} (h : ∀ a, Leaves p (f a)) : Leaves p (x >>= f) := by
  intro rows db' heq
  obtain ⟨a, -, hf⟩ := bind_eq_ok.mp heq
  exact h a rows db' hf

theorem leaves_pure {ρ : Type} {p : DB → Prop} {rows : List ρ} {db : DB} (h : p db) :
    Leaves p (pure (rows, db)) := by
  intro rows' db' heq
  cases heq
  exact h

theorem leaves_eval (q : Query) (st : Stamp) (db : DB) :
    Leaves (db.AgreeOff q.target) (q.eval st db) := by
  -- every statement binds its parameters and ends by leaving `db` or one changed table
  cases q
  all_goals
    simp only [Query.eval, sqlTenantInsert, sqlTenantGetByID, sqlTenantGetBySlug, sqlTenantUpdate,
      sqlTenantUpdateStatus, sqlTenantList, sqlIdentityInsert, sqlIdentityGetByID,
      sqlIdentityGetByHandle, sqlIdentityUpdate, sqlIdentityUpdateStatus,
      sqlIdentitySetPrimaryKey, sqlIdentityList, sqlIdentityCount, sqlAuditInsert, sqlAuditGetByID,
      sqlAuditListByEntity, sqlAuditListByActor, sqlAuditListByTenant, sqlKeyInsert, sqlKeyGetByID,
      sqlKeyGetByFingerprint, sqlKeyGetActiveByPurpose, sqlKeyListByIdentity, sqlKeyRotate,
      sqlKeyRevoke, sqlKeyMarkCompromised, sqlKeySetStatus, sqlCredentialInsert,
      sqlCredentialGetByID, sqlCredentialGetByCredentialID, sqlCredentialListByIdentity,
      sqlCredentialUpdateSignCount, sqlCredentialUpdateLastUsed, sqlCredentialRevoke,
      sqlCredentialSet]
    repeat' first
      | refine leaves_bind fun _ => ?_
      | refine leaves_pure ?_
      | split
  all_goals first
    | exact .refl _ _
    | exact ⟨by simp [Query.target], by simp [Query.target], by simp [Query.target],
        by simp [Query.target], by simp [Query.target]⟩

/-! ### Calls -/

/-- The table a call writes; `Create` of an identity also writes the audit log. -/
def RepoCall.target : RepoCall Attrs → Option TableName
  | .tenants (.create _) | .tenants (.update _) | .tenants (.updateStatus ..) => some .tenants
  | .identities (.create _) | .identities (.update _) | .identities (.updateStatus ..)
  | .identities (.setPrimaryKey ..) => some .identities
  | .keys (.create _) | .keys (.rotate ..) | .keys (.revoke ..)
  | .keys (.markCompromised ..) => some .identityKeys
  | .credentials (.create _) | .credentials (.updateSignCount ..)
  | .credentials (.updateLastUsed ..) | .credentials (.revoke ..) => some .credentials
  | .audit (.insert _) => some .auditEvents
  | _ => none

theorem Outcome.agreeOff {α : Type} {q : Query} {f : List q.Row → Except Error α} {db db' : DB}
    {r : Except Error α} (h : Outcome q f db r db') : db.AgreeOff q.target db' := by
  cases h with
  | failed e => exact .refl _ _
  | answered st rows _ heval => exact leaves_eval q st db rows db' heval

section

variable {α : Type} {q : Query} {finish : Except PgError (List q.Row) → Except Error α}

theorem agreeOff_conn {t : Option TableName} (T : String) (es : Nat → Choice) (db : DB)
    (hf : ∀ pe, ∃ e, finish (.error pe) = .error e) (ht : q.target = t) :
    db.AgreeOff t (perform (withTenantConn T (ask q finish)) es db).2 :=
  ht ▸ (outcome_withTenantConn hf T es db).agreeOff

theorem agreeOff_pool {t : Option TableName} (es : Nat → Choice) (db : DB)
    (hf : ∀ pe, ∃ e, finish (.error pe) = .error e) (ht : q.target = t) :
    db.AgreeOff t (perform (viaPool q finish) es db).2 :=
  ht ▸ (outcome_viaPool hf es db).agreeOff

theorem perform_mapError (f : Error → Error) (s : Script α) (es : Nat → Choice) (db : DB) :
    (perform (CredentialRepo.mapError f s) es db).2 = (perform s es db).2 := by
  unfold perform CredentialRepo.mapError
  simp only [Program.run_attempt_bind]
  cases (s.run Statement.exec es ⟨⟨none, none⟩, db⟩).1 <;> rfl

theorem agreeOff_mapped {t : Option TableName} (f : Error → Error) (T : String) (es : Nat → Choice)
    (db : DB) (hf : ∀ pe, ∃ e, finish (.error pe) = .error e) (ht : q.target = t) :
    db.AgreeOff t
      (perform (CredentialRepo.mapError f (withTenantConn T (ask q finish))) es db).2 := by
  rw [perform_mapError]
  exact agreeOff_conn T es db hf ht

end

theorem agreeOff_perform (c : RepoCall Attrs) (hc : ∀ ident, c ≠ .identities (.create ident))
    (now : Time) (es : Nat → Choice) (db : DB) :
    db.AgreeOff c.target (perform (c.script now) es db).2 := by
  cases c with
  | tenants c =>
    cases c <;> exact agreeOff_pool es db (fun _ => ⟨_, rfl⟩) rfl
  | identities c =>
    cases c with
    | create ident => exact absurd rfl (hc ident)
    | _ => exact agreeOff_conn _ es db (fun _ => ⟨_, rfl⟩) rfl
  | keys c =>
    cases c <;> exact agreeOff_conn _ es db (fun _ => ⟨_, rfl⟩) rfl
  | credentials c =>
    cases c with
    | create cred =>
      exact agreeOff_mapped _ _ es db (fun _ => ⟨_, rfl⟩) rfl
    | getByID tenantID id =>
      exact agreeOff_mapped _ _ es db (fun _ => ⟨_, rfl⟩) rfl
    | getWebAuthnByCredentialID tenantID credentialID =>
      exact agreeOff_mapped _ _ es db (fun _ => ⟨_, rfl⟩) rfl
    | _ => exact agreeOff_pool es db (fun _ => ⟨_, rfl⟩) rfl
  | audit c =>
    cases c <;> exact agreeOff_conn _ es db (fun _ => ⟨_, rfl⟩) rfl

/-! ### Failed calls -/

theorem DB.AgreeOff.eq {db db' : DB} (h : db.AgreeOff none db') : db' = db := by
  obtain ⟨tenants, identities, identityKeys, credentials, auditEvents⟩ := db
  obtain ⟨tenants', identities', identityKeys', credentials', auditEvents'⟩ := db'
  obtain ⟨h1, h2, h3, h4, h5⟩ := h
  cases h1 (by simp)
  cases h2 (by simp)
  cases h3 (by simp)
  cases h4 (by simp)
  cases h5 (by simp)
  rfl

/-- A statement whose rows make the method fail changed nothing. -/
def Careful {α : Type} (q : Query) (f : List q.Row → Except Error α) : Prop :=
  ∀ st db rows db', q.eval st db = .ok (rows, db') → (∃ a, f rows = .ok a) ∨ db' = db

theorem Outcome.error {α : Type} {q : Query} {f : List q.Row → Except Error α} {db db' : DB}
    {e : Error} (h : Outcome q f db (.error e) db') (hq : Careful q f) : db' = db := by
  generalize hr : (Except.error e : Except Error α) = r at h
  cases h with
  | failed => rfl
  | answered st rows _ heval =>
    rcases hq st db rows db' heval with ⟨a, ha⟩ | hsame
    · rw [ha] at hr
      cases hr
    · exact hsame

section

variable {α : Type} {q : Query} {finish : Except PgError (List q.Row) → Except Error α} {e : Error}

theorem careful_done {q : Query} {fail : Error → Error} :
    Careful q fun rows => done fail (.ok rows) :=
  fun _ _ _ _ _ => .inl ⟨(), rfl⟩

/-- An insertion returns its row. -/
theorem careful_single {β : Type} {q : Query} {scan : q.Row → β} {fail : Error → Error}
    (h : ∀ st db rows db', q.eval st db = .ok (rows, db') → rows ≠ [] ∨ db' = db) :
    Careful q fun rows => single scan fail (.ok rows) := by
  intro st db rows db' heval
  refine (h st db rows db' heval).imp_left fun hne => ?_
  cases rows with
  | nil => exact absurd rfl hne
  | cons r rest => exact ⟨scan r, rfl⟩

theorem conn_error (T : String) (es : Nat → Choice) (db : DB)
    (hf : ∀ pe, ∃ e, finish (.error pe) = .error e) (hq : Careful q fun rows => finish (.ok rows))
    (h : (perform (withTenantConn T (ask q finish)) es db).1 = .error e) :
    (perform (withTenantConn T (ask q finish)) es db).2 = db := by
  have hout := outcome_withTenantConn hf T es db
  rw [h] at hout
  exact hout.error hq

theorem pool_error (es : Nat → Choice) (db : DB) (hf : ∀ pe, ∃ e, finish (.error pe) = .error e)
    (hq : Careful q fun rows => finish (.ok rows))
    (h : (perform (viaPool q finish) es db).1 = .error e) :
    (perform (viaPool q finish) es db).2 = db := by
  have hout := outcome_viaPool hf es db
  rw [h] at hout
  exact hout.error hq

end

theorem mapError_error {α : Type} {f : Error → Error} {s : Script α} {es : Nat → Choice} {db : DB}
    {e : Error} (h : (perform (CredentialRepo.mapError f s) es db).1 = .error e) :
    ∃ e', (perform s es db).1 = .error e' := by
  unfold perform CredentialRepo.mapError at h
  simp only [Program.run_attempt_bind] at h
  unfold perform
  cases hs : (s.run Statement.exec es ⟨⟨none, none⟩, db⟩).1 with
  | ok a => rw [hs] at h; cases h
  | error e' => exact ⟨e', rfl⟩

theorem careful_tenantInsert {t : Tenant} {settings : Bytes} {fail : Error → Error} :
    Careful (.tenantInsert t.name t.slug t.tier t.status settings t.dataRegion)
      fun rows => single scanTenant fail (.ok rows) := by
  refine careful_single fun st db rows db' heval => .inl ?_
  simp only [Query.eval, sqlTenantInsert, bind_eq_ok, pure_eq_ok, Prod.mk.injEq] at heval
  obtain ⟨_, -, _, -, _, -, _, -, _, -, rfl, -⟩ := heval
  exact List.cons_ne_nil _ _

theorem careful_tenantUpdate {t : Tenant} {fail : Error → Error} :
    Careful (.tenantUpdate t.id t.name t.tier t.settings t.dataRegion)
      fun rows => single scanTenant fail (.ok rows) := by
  refine careful_single fun st db rows db' heval => ?_
  simp only [Query.eval, sqlTenantUpdate, bind_eq_ok, uuidParam_ok] at heval
  obtain ⟨T, -, _, -, _, -, _, -, heval⟩ := heval
  split at heval
  · simp only [pure_eq_ok, Prod.mk.injEq] at heval
    exact .inr heval.2.symm
  · rename_i row hrow
    simp only [bind_eq_ok, pure_eq_ok, Prod.mk.injEq] at heval
    obtain ⟨_, -, rfl, -⟩ := heval
    obtain ⟨hmem, hid⟩ := Table.get?_eq_some.mp hrow
    refine .inl (List.ne_nil_of_mem (List.mem_filter.mpr ⟨List.mem_map.mpr ⟨row, hmem, rfl⟩, ?_⟩))
    simp [hid]

theorem careful_identityUpdate {ident : Identity Attrs} {fail : Error → Error} :
    Careful (.identityUpdate ident.tenantID ident.id ident.displayName ident.attributes (some [])
      ident.version) fun rows => single (scanIdentity :
      IdentityRow → Identity Attrs) fail (.ok rows) := by
  refine careful_single fun st db rows db' heval => ?_
  rcases sqlIdentityUpdate_ok heval with ⟨-, hsame⟩ | ⟨_, _, _, _, _, -, -, -, -, -, -, -,
    -, rfl, -⟩
  · exact .inr hsame
  · exact .inl (List.cons_ne_nil _ _)

theorem careful_keyInsert {k : IdentityKey} {fail : Error → Error} :
    Careful (.keyInsert k) fun rows => single scanKey fail (.ok rows) := by
  refine careful_single fun st db rows db' heval => .inl ?_
  obtain ⟨_, _, _, -, -, -, -, rfl, -⟩ := sqlKeyInsert_ok heval
  exact List.cons_ne_nil _ _

theorem careful_credentialInsert {cred : Credential} {β : Type} {scan : UUID × Time → β}
    {fail : Error → Error} :
    Careful (.credentialInsert cred) fun rows => single scan fail (.ok rows) := by
  refine careful_single fun st db rows db' heval => .inl ?_
  simp only [Query.eval, sqlCredentialInsert, bind_eq_ok, pure_eq_ok, Prod.mk.injEq] at heval
  obtain ⟨_, -, _, -, _, -, _, -, _, -, _, -, _, -, _, -, _, -, _, -, _, -, rfl, -⟩ := heval
  exact List.cons_ne_nil _ _

theorem careful_auditInsert {tenantID eventType entityType entityID : String}
    {actorID : Option String} {afterState : Option AfterState} {success : Bool} {occurredAt : Time}
    {fail : Error → Error} :
    Careful (.auditInsert tenantID eventType entityType entityID actorID afterState success
      occurredAt) fun rows => single (fun _ => ()) fail (.ok rows) := by
  refine careful_single fun st db rows db' heval => .inl ?_
  simp only [Query.eval, sqlAuditInsert, bind_eq_ok, pure_eq_ok, Prod.mk.injEq] at heval
  obtain ⟨_, -, _, -, _, -, _, -, _, -, rfl, -⟩ := heval
  exact List.cons_ne_nil _ _

/-- A repository call that reports an error has changed no table. -/
theorem perform_error (c : RepoCall Attrs) (now : Time) {es : Nat → Choice} {db : DB} {e : Error}
    (h : (perform (c.script now) es db).1 = .error e) : (perform (c.script now) es db).2 = db := by
  by_cases hcreate : ∃ ident, c = .identities (.create ident)
  · obtain ⟨ident, rfl⟩ := hcreate
    rcases perform_create now ident es db with ⟨err, hrun⟩ | ⟨_, _, _, _, _, _, -, -, -, -, hrun⟩
    · exact congrArg Prod.snd hrun
    · cases h.symm.trans (congrArg Prod.fst hrun)
  by_cases hread : c.target = none
  · refine DB.AgreeOff.eq (hread ▸ agreeOff_perform c ?_ now es db)
    exact fun ident hc => hcreate ⟨ident, hc⟩
  cases c with
  | tenants c =>
    cases c with
    | create t => exact pool_error es db (fun _ => ⟨_, rfl⟩) careful_tenantInsert h
    | update t => exact pool_error es db (fun _ => ⟨_, rfl⟩) careful_tenantUpdate h
    | updateStatus id s => exact pool_error es db (fun _ => ⟨_, rfl⟩) careful_done h
    | _ => exact absurd rfl hread
  | identities c =>
    cases c with
    | create ident => exact absurd ⟨ident, rfl⟩ hcreate
    | update ident => exact conn_error _ es db (fun _ => ⟨_, rfl⟩) careful_identityUpdate h
    | updateStatus t i s => exact conn_error _ es db (fun _ => ⟨_, rfl⟩) careful_done h
    | setPrimaryKey t i k => exact conn_error _ es db (fun _ => ⟨_, rfl⟩) careful_done h
    | _ => exact absurd rfl hread
  | keys c =>
    cases c with
    | create k => exact conn_error _ es db (fun _ => ⟨_, rfl⟩) careful_keyInsert h
    | rotate t o n => exact conn_error _ es db (fun _ => ⟨_, rfl⟩) careful_done h
    | revoke t k => exact conn_error _ es db (fun _ => ⟨_, rfl⟩) careful_done h
    | markCompromised t k => exact conn_error _ es db (fun _ => ⟨_, rfl⟩) careful_done h
    | _ => exact absurd rfl hread
  | credentials c =>
    cases c with
    | create cred =>
      obtain ⟨e', he'⟩ := mapError_error h
      refine (perform_mapError _ _ es db).trans ?_
      exact conn_error _ es db (fun _ => ⟨_, rfl⟩) careful_credentialInsert he'
    | updateSignCount t i n => exact pool_error es db (fun _ => ⟨_, rfl⟩) careful_done h
    | updateLastUsed t i n => exact pool_error es db (fun _ => ⟨_, rfl⟩) careful_done h
    | revoke t i => exact pool_error es db (fun _ => ⟨_, rfl⟩) careful_done h
    | _ => exact absurd rfl hread
  | audit c =>
    cases c with
    | insert event => exact conn_error _ es db (fun _ => ⟨_, rfl⟩) careful_auditInsert h
    | _ => exact absurd rfl hread

end Verion.Postgres
