import Verion.Postgres.Frame

/-!
# The rows of other tenants

Every statement on a tenant-scoped table selects, inserts or changes rows of the
tenant whose identifier it was sent with. A repository call that was given the
identifier of `A` therefore leaves the rows of all other tenants, and so does one
that the server refuses for its parameters.
-/

namespace Verion.Postgres

open Calls

variable {Attrs : Type} {A : Option UUID}

/-- The rows of the tenants other than `A`. -/
def DB.outside (A : Option UUID) (db : DB) :
    List TenantRow × List IdentityRow × List KeyRow × List AuditRow :=
  (db.tenants.rows.filter fun r => decide (some r.id ≠ A),
    db.identities.rows.filter fun r => decide (some r.tenantID ≠ A),
    db.identityKeys.rows.filter fun r => decide (some r.tenantID ≠ A),
    db.auditEvents.rows.filter fun r => decide (some r.tenantID ≠ A))

/-- A text that is the identifier of no tenant other than `A`. -/
def Own (A : Option UUID) (text : String) : Prop :=
  ∀ T, UUID.ofText? text = some T → A = some T

/-- The calls that leave the rows of all other tenants, by their parameters. -/
def RepoCall.Keeps (A : Option UUID) : RepoCall Attrs → Prop
  | .tenants (.updateStatus id _) => Own A id
  | .tenants (.create _) | .tenants (.update _) => False
  | .identities (.create ident) => Own A ident.tenantID
  | .identities (.update ident) =>
    Own A ident.tenantID ∨ hasNul ident.displayName = true ∨ ident.attributes = none ∨
      maxBigint ≤ ident.version
  | .identities (.updateStatus tenantID ..) | .identities (.setPrimaryKey tenantID ..) =>
    Own A tenantID
  | .keys (.create k) =>
    Own A k.tenantID ∨ UUID.ofText? k.identityID = none ∨ isKeyPurpose k.purpose = false
  | .keys (.rotate tenantID ..) | .keys (.revoke tenantID _)
  | .keys (.markCompromised tenantID _) => Own A tenantID
  | .audit (.insert event) => Own A event.tenantID
  | _ => True

/-! ### Statements -/

section Statements

variable {db db' : DB} {st : Stamp}

theorem outside_of_agreeOff {t : Option TableName} (h : db.AgreeOff t db')
    (ht : t = none ∨ t = some .credentials) : db'.outside A = db.outside A := by
  unfold DB.outside
  rcases ht with rfl | rfl
  all_goals rw [h.tenants (by simp), h.identities (by simp), h.identityKeys (by simp),
    h.auditEvents (by simp)]

theorem Outcome.outside {α : Type} {q : Query} {f : List q.Row → Except Error α}
    {r : Except Error α} (h : Outcome q f db r db')
    (hq : ∀ st rows db', q.eval st db = .ok (rows, db') → db'.outside A = db.outside A) :
    db'.outside A = db.outside A := by
  cases h with
  | failed e => rfl
  | answered st rows _ heval => exact hq st rows db' heval

theorem outside_updateTenants {T : UUID} {f : TenantRow → TenantRow}
    {hf : ∀ r, (f r).id = r.id} (hA : A = some T) :
    ({ db with tenants := db.tenants.update (fun r => decide (r.id = T)) f hf } : DB).outside A =
      db.outside A := by
  unfold DB.outside
  rw [Table.filter_update]
  intro r hr
  have hT : r.id = T := of_decide_eq_true hr
  simp [hf, hT, hA]

theorem outside_updateIdentities {T : UUID} {p : IdentityRow → Bool} {f : IdentityRow → IdentityRow}
    {hf : ∀ r, (f r).id = r.id} (hA : A = some T) (hp : ∀ r, p r = true → r.tenantID = T)
    (ht : ∀ r, (f r).tenantID = r.tenantID) :
    ({ db with identities := db.identities.update p f hf } : DB).outside A = db.outside A := by
  unfold DB.outside
  rw [Table.filter_update]
  intro r hr
  simp [ht, hp r hr, hA]

theorem outside_updateKeys {T : UUID} {p : KeyRow → Bool} {f : KeyRow → KeyRow}
    {hf : ∀ r, (f r).id = r.id} (hA : A = some T) (hp : ∀ r, p r = true → r.tenantID = T)
    (ht : ∀ r, (f r).tenantID = r.tenantID) :
    ({ db with identityKeys := db.identityKeys.update p f hf } : DB).outside A = db.outside A := by
  unfold DB.outside
  rw [Table.filter_update]
  intro r hr
  simp [ht, hp r hr, hA]

theorem tenant_of_identityAt {T I : UUID} {r : IdentityRow} (h : identityAt T I r = true) :
    r.tenantID = T := by
  simp only [identityAt, Bool.and_eq_true, decide_eq_true_eq] at h
  exact h.1

theorem tenant_of_keyAt {T K : UUID} {r : KeyRow} (h : keyAt T K r = true) : r.tenantID = T := by
  simp only [keyAt, Bool.and_eq_true, decide_eq_true_eq] at h
  exact h.1

theorem outside_identityUpdate {tenantID id displayName : String}
    {attributes attributesIV : Option Bytes} {version : Int} {rows : List IdentityRow}
    (h : sqlIdentityUpdate st db tenantID id displayName attributes attributesIV version =
      .ok (rows, db'))
    (hk : Own A tenantID ∨ hasNul displayName = true ∨ attributes = none ∨ maxBigint ≤ version) :
    db'.outside A = db.outside A := by
  have hnul : hasNul displayName = false := by
    simp only [sqlIdentityUpdate, bind_eq_ok, textParam_ok] at h
    obtain ⟨_, -, _, -, _, ⟨hnul, -⟩, -⟩ := h
    exact hnul
  rcases sqlIdentityUpdate_ok h with ⟨-, rfl⟩ | ⟨T, I, a, iv, row, hT, -, ha, -, hlt, -, -,
    -, -, rfl⟩
  · rfl
  · rcases hk with hown | hn | hnone | hmax
    · refine outside_updateIdentities (hown T hT) (fun r hr => ?_) fun _ => rfl
      exact tenant_of_identityAt (Bool.and_eq_true _ _ ▸ hr).1
    · exact absurd (hn.symm.trans hnul) Bool.noConfusion
    · exact absurd (hnone.symm.trans ha) (Option.some_ne_none a).symm
    · omega

theorem outside_keyInsert {k : IdentityKey} {rows : List KeyRow}
    (h : sqlKeyInsert st db k = .ok (rows, db'))
    (hk : Own A k.tenantID ∨ UUID.ofText? k.identityID = none ∨ isKeyPurpose k.purpose = false) :
    db'.outside A = db.outside A := by
  have hpurpose : isKeyPurpose k.purpose = true := by
    simp only [sqlKeyInsert, bind_eq_ok, labelParam_ok] at h
    obtain ⟨_, -, _, -, _, -, _, ⟨hpurpose, -⟩, -⟩ := h
    exact hpurpose
  obtain ⟨I, T, keys, hI, hT, -, hins, -, rfl⟩ := sqlKeyInsert_ok h
  rcases hk with hown | hnone | hp
  · unfold DB.outside
    rw [Table.filter_insert? hins (by simp [insertedKey, hown T hT])]
  · exact absurd (hnone.symm.trans hI) (Option.some_ne_none I).symm
  · exact absurd (hp.symm.trans hpurpose) Bool.noConfusion

theorem outside_auditInsert {tenantID eventType entityType entityID : String}
    {actorID : Option String} {afterState : Option AfterState} {success : Bool}
    {occurredAt : Time} {rows : List UUID}
    (h : sqlAuditInsert st db tenantID eventType entityType entityID actorID afterState success
      occurredAt = .ok (rows, db')) (hown : Own A tenantID) : db'.outside A = db.outside A := by
  obtain ⟨T, row, events, hT, hrow, hins, rfl⟩ := sqlAuditInsert_ok h
  unfold DB.outside
  rw [Table.filter_insert? hins (by simp [hrow, hown T hT])]

end Statements

/-! ### Calls -/

section Calls

variable {α : Type} {q : Query} {finish : Except PgError (List q.Row) → Except Error α}

theorem outside_conn (T : String) (es : Nat → Choice) (db : DB)
    (hf : ∀ pe, ∃ e, finish (.error pe) = .error e)
    (hq : ∀ st rows db', q.eval st db = .ok (rows, db') → db'.outside A = db.outside A) :
    (perform (withTenantConn T (ask q finish)) es db).2.outside A = db.outside A :=
  (outcome_withTenantConn hf T es db).outside hq

theorem outside_pool (es : Nat → Choice) (db : DB)
    (hf : ∀ pe, ∃ e, finish (.error pe) = .error e)
    (hq : ∀ st rows db', q.eval st db = .ok (rows, db') → db'.outside A = db.outside A) :
    (perform (viaPool q finish) es db).2.outside A = db.outside A :=
  (outcome_viaPool hf es db).outside hq

/-- The call's parameters decide whether other tenants are left alone. -/
theorem outside_perform (c : RepoCall Attrs) (hc : c.Keeps A) (now : Time) (es : Nat → Choice)
    (db : DB) : (perform (c.script now) es db).2.outside A = db.outside A := by
  have read : (∀ ident, c ≠ .identities (.create ident)) →
      c.target = none ∨ c.target = some .credentials →
      (perform (c.script now) es db).2.outside A = db.outside A :=
    fun hne ht => outside_of_agreeOff (agreeOff_perform c hne now es db) ht
  cases c with
  | credentials c =>
    refine read (fun _ h => nomatch h) ?_
    cases c <;> first | exact .inl rfl | exact .inr rfl
  | tenants c =>
    cases c with
    | create t => exact absurd hc id
    | update t => exact absurd hc id
    | updateStatus id status =>
      refine outside_pool es db (fun _ => ⟨_, rfl⟩) fun st rows db' h => ?_
      obtain ⟨T, hT, rfl⟩ := sqlTenantUpdateStatus_ok h
      exact outside_updateTenants (hc T hT)
    | getByID | getBySlug | list => exact read (fun _ h => nomatch h) (.inl rfl)
  | identities c =>
    cases c with
    | create ident =>
      rcases perform_create now ident es db with ⟨e, h⟩ | ⟨st, T, by_, ids, events, entry, hT, hins,
        hentry, hins', h⟩
      · exact congrArg (fun r => r.2.outside A) h
      · refine (congrArg (fun r => r.2.outside A) h).trans ?_
        unfold DB.outside
        have hA := hc T hT
        rw [Table.filter_insert? hins (by simp [insertedIdentity, hA]),
          Table.filter_insert? hins' (by simp [hentry, hA])]
    | update ident =>
      exact outside_conn _ es db (fun _ => ⟨_, rfl⟩) fun st rows db' h =>
        outside_identityUpdate h hc
    | updateStatus tenantID id status =>
      refine outside_conn _ es db (fun _ => ⟨_, rfl⟩) fun st rows db' h => ?_
      obtain ⟨T, I, hT, -, rfl⟩ := sqlIdentityUpdateStatus_ok h
      exact outside_updateIdentities (hc T hT) (fun _ hr => tenant_of_identityAt hr) fun _ => rfl
    | setPrimaryKey tenantID id keyID =>
      refine outside_conn _ es db (fun _ => ⟨_, rfl⟩) fun st rows db' h => ?_
      obtain ⟨T, I, K, hT, -, -, rfl⟩ := sqlIdentitySetPrimaryKey_ok h
      exact outside_updateIdentities (hc T hT) (fun _ hr => tenant_of_identityAt hr) fun _ => rfl
    | getByID | getByHandle | list | count => exact read (fun _ h => nomatch h) (.inl rfl)
  | keys c =>
    cases c with
    | create k =>
      exact outside_conn _ es db (fun _ => ⟨_, rfl⟩) fun st rows db' h => outside_keyInsert h hc
    | rotate tenantID oldKeyID newKeyID =>
      refine outside_conn _ es db (fun _ => ⟨_, rfl⟩) fun st rows db' h => ?_
      rcases sqlKeyRotate_ok h with rfl | ⟨T, K, N, hT, -, -, rfl⟩
      · rfl
      · exact outside_updateKeys (hc T hT) (fun _ hr => tenant_of_keyAt hr) fun _ => rfl
    | revoke tenantID keyID | markCompromised tenantID keyID =>
      refine outside_conn _ es db (fun _ => ⟨_, rfl⟩) fun st rows db' h => ?_
      obtain ⟨T, K, hT, -, rfl⟩ := sqlKeySetStatus_ok h
      exact outside_updateKeys (hc T hT) (fun _ hr => tenant_of_keyAt hr) fun _ => rfl
    | getByID | getByFingerprint | getActiveByPurpose | listByIdentity =>
      exact read (fun _ h => nomatch h) (.inl rfl)
  | audit c =>
    cases c with
    | insert event =>
      exact outside_conn _ es db (fun _ => ⟨_, rfl⟩) fun st rows db' h => outside_auditInsert h hc
    | getByID | listByEntity | listByActor | listByTenant =>
      exact read (fun _ h => nomatch h) (.inl rfl)

end Calls

end Verion.Postgres
