import Verion.Service.Effects

/-!
# What one call can do to the credentials

The counterpart of `IdentityStep` and `KeyStep` for the table `credentials`. The
credential repository translates errors outside the connection helper and reads
and updates without it.
-/

namespace Verion.Service

open Calls Postgres

variable {Attrs : Type}

abbrev Credentials := Table CredentialRow.id

/-- The `UPDATE` statements of the table with what each sets. -/
inductive CredentialUpdate : CredentialCall → String → String → (CredentialRow → CredentialRow) →
    Prop where
  | counted (tenantID id : String) (n : Int) :
      CredentialUpdate (.updateSignCount tenantID id n) tenantID id fun r => { r with
        signCount := n }
  | used (tenantID id : String) (at_ : Time) :
      CredentialUpdate (.updateLastUsed tenantID id at_) tenantID id
        fun r => { r with lastUsedAt := some at_ }
  | revoked (tenantID id : String) :
      CredentialUpdate (.revoke tenantID id) tenantID id fun r => { r with status := .revoked }

inductive CredentialStep : Op Attrs → Credentials → Credentials → Prop where
  | quiet (c : Op Attrs) (creds : Credentials) : CredentialStep c creds creds
  | created (cred : Credential) (row : CredentialRow) (creds creds' : Credentials)
      (hT : UUID.ofText? cred.tenantID = some row.tenantID)
      (hI : UUID.ofText? cred.identityID = some row.identityID)
      (hdataIV : cred.dataIV = some row.dataIV) (hins : creds.insert? row = some creds') :
      CredentialStep (.repo (.credentials (.create cred))) creds creds'
  | updated (c : CredentialCall) (tenantID id : String) (f : CredentialRow → CredentialRow)
      (hf : ∀ r, (f r).id = r.id) (T I : UUID) (creds : Credentials)
      (hc : CredentialUpdate c tenantID id f) (hT : UUID.ofText? tenantID = some T)
      (hI : UUID.ofText? id = some I) :
      CredentialStep (.repo (.credentials c)) creds (creds.update (credentialAt T I) f hf)

theorem CredentialStep.of_eq {c : Op Attrs} {creds creds' : Credentials} (h : creds' = creds) :
    CredentialStep c creds creds' := by
  subst h
  exact .quiet _ _

theorem sqlCredentialInsert_ok {st : Stamp} {db db' : DB} {cred : Credential}
    {rows : List (UUID × Time)} (h : sqlCredentialInsert st db cred = .ok (rows, db')) :
    ∃ row creds, UUID.ofText? cred.tenantID = some row.tenantID ∧
      UUID.ofText? cred.identityID = some row.identityID ∧ cred.dataIV = some row.dataIV ∧
      db.credentials.insert? row = some creds ∧ db' = { db with credentials := creds } := by
  simp only [sqlCredentialInsert, bind_eq_ok, uuidParam_ok, notNull_ok, insertUnique_ok, pure_eq_ok,
    Prod.mk.injEq] at h
  obtain ⟨I, hI, T, hT, _, -, _, -, _, -, _, -, _, hiv, creds, ⟨-, hins⟩, _, -, _, -, _, -,
      -, rfl⟩ := h
  exact ⟨_, creds, hT, hI, hiv, hins, rfl⟩

theorem sqlCredentialSet_ok {db db' : DB} {f : CredentialRow → CredentialRow}
    {hf : ∀ r, (f r).id = r.id} {tenantID id : String} {rows : List Unit}
    (h : sqlCredentialSet db f hf tenantID id = .ok (rows, db')) :
    ∃ T I, UUID.ofText? tenantID = some T ∧ UUID.ofText? id = some I ∧
      db' = { db with credentials := db.credentials.update (credentialAt T I) f hf } := by
  simp only [sqlCredentialSet, bind_eq_ok, uuidParam_ok, pure_eq_ok, Prod.mk.injEq] at h
  obtain ⟨T, hT, I, hI, -, rfl⟩ := h
  exact ⟨T, I, hT, hI, rfl⟩

/-- What a row of the table keeps of a credential for the library. -/
structure StoredAs (cred : Credential) (row : CredentialRow) : Prop where
  credentialID : row.credentialID = cred.credentialID
  data : cred.data = some row.data
  signCount : row.signCount = cred.signCount

theorem credentialStep_insert {α : Type} {cred : Credential}
    {finish : Except PgError (List (Query.credentialInsert cred).Row) → Except Error α} (T : String)
    (es : Nat → Choice) (db : DB) (hfin : ∀ pe, ∃ e, finish (.error pe) = .error e) :
    CredentialStep (.repo (.credentials (.create cred)) : Op Attrs) db.credentials
      (perform (withTenantConn T (ask (.credentialInsert cred) finish)) es db).2.credentials := by
  have hout := outcome_withTenantConn hfin T es db
  generalize perform (withTenantConn T (ask (.credentialInsert cred) finish)) es db = out at hout ⊢
  obtain ⟨r, db'⟩ := out
  cases hout with
  | failed e => exact .quiet _ _
  | answered st rows _ heval =>
    obtain ⟨row, creds, hT, hI, hiv, hins, rfl⟩ := sqlCredentialInsert_ok heval
    exact .created cred row _ creds hT hI hiv hins

theorem credentialStep_create (es : Nat → Choice) (db : DB) (cred : Credential) :
    CredentialStep (.repo (.credentials (.create cred)) : Op Attrs) db.credentials
      (perform (CredentialRepo.create cred) es db).2.credentials := by
  unfold CredentialRepo.create
  rw [perform_mapError]
  exact credentialStep_insert _ es db fun _ => ⟨_, rfl⟩

theorem credentialStep_update {c : CredentialCall} {tenantID id : String}
    {f : CredentialRow → CredentialRow} {hf : ∀ r, (f r).id = r.id} {q : Query}
    {finish : Except PgError (List q.Row) → Except Error c.Result} (es : Nat → Choice) (db : DB)
    (hc : CredentialUpdate c tenantID id f) (hfin : ∀ pe, ∃ e, finish (.error pe) = .error e)
    (hq : ∀ st rows db', q.eval st db = .ok (rows, db') →
      ∃ rows' : List Unit, sqlCredentialSet db f hf tenantID id = .ok (rows', db')) :
    CredentialStep (.repo (.credentials c) : Op Attrs) db.credentials
      (perform (viaPool q finish) es db).2.credentials := by
  have hout := outcome_viaPool hfin es db
  generalize perform (viaPool q finish) es db = out at hout ⊢
  obtain ⟨r, db'⟩ := out
  cases hout with
  | failed e => exact .quiet _ _
  | answered st rows _ heval =>
    obtain ⟨rows', hset⟩ := hq st rows db' heval
    obtain ⟨T, I, hT, hI, rfl⟩ := sqlCredentialSet_ok hset
    exact .updated c tenantID id f hf T I _ hc hT hI

theorem exec_credentialStep (P : Primitives Attrs) (c : Op Attrs) (e : Env) (w : World) :
    CredentialStep c w.db.credentials (exec P c e w).2.db.credentials := by
  cases c with
  | repo c =>
    by_cases htarget : c.target = some .credentials
    · cases c with
      | credentials c =>
        cases c with
        | create cred => exact credentialStep_create e.statements w.db cred
        | updateSignCount tenantID id n =>
          exact credentialStep_update e.statements w.db (.counted tenantID id n) (fun _ => ⟨_, rfl⟩)
            fun _ rows _ h => ⟨rows, h⟩
        | updateLastUsed tenantID id at_ =>
          exact credentialStep_update e.statements w.db (.used tenantID id at_) (fun _ => ⟨_, rfl⟩)
            fun _ rows _ h => ⟨rows, h⟩
        | revoke tenantID id =>
          exact credentialStep_update e.statements w.db (.revoked tenantID id) (fun _ => ⟨_, rfl⟩)
            fun _ rows _ h => ⟨rows, h⟩
        | _ => cases htarget
      | tenants c => cases c <;> cases htarget
      | identities c => cases c <;> cases htarget
      | keys c => cases c <;> cases htarget
      | audit c => cases c <;> cases htarget
    · refine .of_eq ?_
      by_cases hcreate : ∃ ident, c = .identities (.create ident)
      · obtain ⟨ident, rfl⟩ := hcreate
        rcases perform_create e.now ident e.statements w.db with
          ⟨err, h⟩ | ⟨_, _, _, _, _, _, -, -, -, -, h⟩
        · exact congrArg (fun r => r.2.credentials) h
        · exact congrArg (fun r => r.2.credentials) h
      · refine (agreeOff_perform c ?_ e.now e.statements w.db).credentials htarget
        exact fun ident h => hcreate ⟨ident, h⟩
  | _ => exact .of_eq (congrArg DB.credentials (exec_db P _ (fun _ h => by cases h) e w))

/-- A credential is one of before, or is inserted by the call. -/
theorem CredentialStep.origin {c : Op Attrs} {creds creds' : Credentials} {k : UUID}
    {row : CredentialRow} (h : CredentialStep c creds creds') (hrow : creds'.get? k = some row) :
    (∃ old, creds.get? k = some old ∧ row.identityID = old.identityID ∧
      row.tenantID = old.tenantID) ∨
    ∃ cred, c = .repo (.credentials (.create cred)) ∧ creds.get? k = none ∧
      UUID.ofText? cred.identityID = some row.identityID ∧
      UUID.ofText? cred.tenantID = some row.tenantID := by
  cases h with
  | quiet => exact .inl ⟨row, hrow, rfl, rfl⟩
  | created cred new _ _ hT hI _ hins =>
    rw [Table.get?_insert? hins] at hrow
    split at hrow
    · rename_i hk
      cases hrow
      exact .inr ⟨cred, rfl, hk ▸ (Table.insert?_eq_some.mp hins).1, hI, hT⟩
    · exact .inl ⟨row, hrow, rfl, rfl⟩
  | updated c tenantID id f hf T I _ hc hT hI =>
    rw [Table.get?_update] at hrow
    obtain ⟨old, hold, rfl⟩ := Option.map_eq_some_iff.mp hrow
    refine .inl ⟨old, hold, ?_, ?_⟩ <;> split <;> first | rfl | (cases hc <;> rfl)

/-- A credential stays where it is, and only an update of its own counter moves the counter. -/
theorem CredentialStep.count {c : Op Attrs} {creds creds' : Credentials} {k : UUID}
    {row : CredentialRow} (h : CredentialStep c creds creds') (hrow : creds.get? k = some row) :
    ∃ row', creds'.get? k = some row' ∧ row'.tenantID = row.tenantID ∧
      (row'.signCount = row.signCount ∨ ∃ tenantID id,
        c = .repo (.credentials (.updateSignCount tenantID id row'.signCount)) ∧
        UUID.ofText? id = some k) := by
  cases h with
  | quiet => exact ⟨row, hrow, rfl, .inl rfl⟩
  | created cred new _ _ _ _ _ hins =>
    exact ⟨row, Table.get?_insert?_of_some hins hrow, rfl, .inl rfl⟩
  | updated c tenantID id f hf T I _ hc hT hI =>
    refine ⟨_, Table.get?_update_of_some hrow, ?_⟩
    by_cases hat : credentialAt T I row = true
    · rw [if_pos hat]
      have hk : I = k := by
        have hid : row.id = k := Table.key_of_get? hrow
        simp only [credentialAt, Bool.and_eq_true, decide_eq_true_eq] at hat
        exact hat.2.symm.trans hid
      cases hc with
      | counted _ _ n => exact ⟨rfl, .inr ⟨_, _, rfl, hk ▸ hI⟩⟩
      | used => exact ⟨rfl, .inl rfl⟩
      | revoked => exact ⟨rfl, .inl rfl⟩
    · rw [if_neg hat]
      exact ⟨rfl, .inl rfl⟩

/-- What the authenticator made is never written again. -/
theorem CredentialStep.material {c : Op Attrs} {creds creds' : Credentials} {k : UUID}
    {row : CredentialRow} (h : CredentialStep c creds creds') (hrow : creds.get? k = some row) :
    ∃ row', creds'.get? k = some row' ∧ row'.credentialID = row.credentialID ∧
      row'.data = row.data := by
  cases h with
  | quiet => exact ⟨row, hrow, rfl, rfl⟩
  | created cred new _ _ _ _ _ hins =>
    exact ⟨row, Table.get?_insert?_of_some hins hrow, rfl, rfl⟩
  | updated c tenantID id f hf T I _ hc hT hI =>
    refine ⟨_, Table.get?_update_of_some hrow, ?_, ?_⟩ <;> split <;>
      first | rfl | (cases hc <;> rfl)

/-- With the database at hand the counter is set. -/
theorem exec_updateSignCount {P : Primitives Attrs} {tenantID id : String} {n : Int} {e : Env}
    {w : World} {k : UUID} {row : CredentialRow} (hrow : w.db.credentials.get? k = some row)
    (hT : UUID.ofText? tenantID = some row.tenantID) (hid : UUID.ofText? id = some k)
    (h0 : (e.statements 0).available = true) (h1 : (e.statements 1).available = true) :
    (exec P (.repo (.credentials (.updateSignCount tenantID id n))) e w).2.db.credentials.get? k =
      some { row with signCount := n } := by
  have hrun := run_viaPool (.credentialUpdateSignCount tenantID id n)
    (done (.wrap "credential repo: update sign count")) e.statements ⟨none, none⟩ w.db h0
  have heval : (Query.credentialUpdateSignCount tenantID id n).eval (e.statements 1).stamp w.db =
      .ok ([], { w.db with
        credentials := w.db.credentials.update (credentialAt row.tenantID k)
          (fun r => { r with signCount := n }) (fun _ => rfl) }) := by
    simp only [Query.eval, sqlCredentialUpdateSignCount, sqlCredentialSet, uuidParam, hT, hid]
    rfl
  have hdb : (exec P (.repo (.credentials (.updateSignCount tenantID id n))) e w).2.db =
      (answer (.credentialUpdateSignCount tenantID id n) w.db (e.statements 1)).2 :=
    congrArg (fun r => r.2.db) hrun
  rw [hdb]
  simp only [answer, h1, if_true, heval]
  have hat : credentialAt row.tenantID k row = true := by
    simp [credentialAt, show row.id = k from Table.key_of_get? hrow]
  exact (Table.get?_update_of_some hrow).trans (by rw [if_pos hat])

theorem exec_updateSignCount_lost {P : Primitives Attrs} {tenantID id : String} {n : Int} {e : Env}
    {w : World}
    (h : ¬ ((e.statements 0).available = true ∧ (e.statements 1).available = true)) :
    (exec P (.repo (.credentials (.updateSignCount tenantID id n))) e w).2.db = w.db :=
  viaPool_lost _ _ e.statements ⟨none, none⟩ w.db h

theorem listCredentials_ok {P : Primitives Attrs} {tenantID identityID : String}
    {status : Option CredentialStatus} {e : Env} {w : World} {creds : List Credential}
    (h : (exec P (.repo (.credentials (.listByIdentity tenantID identityID status))) e w).1 =
      .ok creds) :
    ∃ T, UUID.ofText? tenantID = some T ∧ ∀ cred ∈ creds, ∃ row ∈ w.db.credentials.rows,
      row.tenantID = T ∧ cred = scanCredential row := by
  have hout : Outcome (.credentialListByIdentity tenantID identityID status) _ w.db
      (exec P (.repo (.credentials (.listByIdentity tenantID identityID status))) e w).1
      (exec P (.repo (.credentials (.listByIdentity tenantID identityID status))) e w).2.db :=
    outcome_viaPool (fun _ => ⟨_, rfl⟩) e.statements w.db
  rw [h] at hout
  obtain ⟨st, rows, heval, hfin⟩ := hout.ok
  simp only [Query.eval, sqlCredentialListByIdentity, bind_eq_ok, uuidParam_ok, pure_eq_ok,
    Prod.mk.injEq] at heval
  obtain ⟨T, hT, I, hI, rfl, -⟩ := heval
  obtain ⟨rows, hrows, rfl⟩ := many_ok hfin
  cases hrows
  refine ⟨T, hT, fun cred hcred => ?_⟩
  obtain ⟨row, hrow, rfl⟩ := List.mem_map.mp hcred
  obtain ⟨hmem, hat⟩ := List.mem_filter.mp hrow
  simp only [Bool.and_eq_true, decide_eq_true_eq] at hat
  exact ⟨row, hmem, hat.1, rfl⟩

end Verion.Service
