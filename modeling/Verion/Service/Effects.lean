import Verion.Postgres.Frame
import Verion.Library.CheckThenAct
import Verion.Service.Requests

/-!
# What one call of a service can do

`IdentityStep` and `KeyStep` say, for the table of identities and the table of
keys, everything a call with its reply can have done to it. Each invariant over
interleaved requests is proved by cases on them.
-/

namespace Verion.Service

open Calls Postgres

variable {Attrs : Type}

/-- Any number of requests over one world. -/
abbrev Requests (ι Attrs : Type) := Pool ι World (@Op.Reply Attrs) Error (Response Attrs)

def starting {ι : Type} (P : Primitives Attrs) (w : World) (req : ι → Request Attrs) :
    Requests ι Attrs :=
  Pool.start w fun i => (req i).program P

abbrev Ev (Attrs : Type) := Event (@Op.Reply Attrs)

abbrev Identities := Table IdentityRow.id

abbrev Keys := Table KeyRow.id

abbrev Tenants := Table TenantRow.id

/-! ### Identities -/

inductive IdentityStep : Ev Attrs → Identities → Identities → Prop where
  | quiet (ev : Ev Attrs) (ids : Identities)
      (hc : ∀ ident x, ev ≠ ⟨.repo (.identities (.create ident)), .ok x⟩)
      (hu : ∀ ident x, ev ≠ ⟨.repo (.identities (.update ident)), .ok x⟩) :
      IdentityStep ev ids ids
  | created (ident : Identity Attrs) (st : Stamp) (T : UUID) (by_ : Option UUID)
      (ids ids' : Identities) (hT : UUID.ofText? ident.tenantID = some T)
      (hins : ids.insert? (insertedIdentity st T ident.type ident.displayName ident.handle
        ident.status (ident.attributes.getD []) [] by_) = some ids') :
      IdentityStep ⟨.repo (.identities (.create ident)),
        .ok (scanIdentity (insertedIdentity st T ident.type ident.displayName ident.handle
          ident.status (ident.attributes.getD []) [] by_))⟩ ids ids'
  | updated (ident : Identity Attrs) (now : Time) (T I : UUID) (a : Bytes) (row : IdentityRow)
      (ids : Identities) (hT : UUID.ofText? ident.tenantID = some T)
      (hI : UUID.ofText? ident.id = some I) (ha : ident.attributes = some a)
      (hlt : ident.version < maxBigint) (hget : ids.get? I = some row) (hrT : row.tenantID = T)
      (hrv : row.version = ident.version) :
      IdentityStep ⟨.repo (.identities (.update ident)),
        .ok (scanIdentity (row.updated ident.displayName a [] now))⟩ ids
        (ids.update (fun r => identityAt T I r && decide (r.version = ident.version))
          (IdentityRow.updated ident.displayName a [] now) fun _ => rfl)
  | statusWritten (tenantID id : String) (status : IdentityStatus) (now : Time) (T I : UUID)
      (ids : Identities) (hT : UUID.ofText? tenantID = some T) (hI : UUID.ofText? id = some I) :
      IdentityStep ⟨.repo (.identities (.updateStatus tenantID id status)), .ok ()⟩ ids
        (ids.update (identityAt T I) (IdentityRow.withStatus status now) fun _ => rfl)
  | primaryKeySet (tenantID id keyID : String) (now : Time) (T I K : UUID) (ids : Identities)
      (hT : UUID.ofText? tenantID = some T) (hI : UUID.ofText? id = some I)
      (hK : UUID.ofText? keyID = some K) :
      IdentityStep ⟨.repo (.identities (.setPrimaryKey tenantID id keyID)), .ok ()⟩ ids
        (ids.update (identityAt T I) (IdentityRow.withPrimaryKey K now) fun _ => rfl)

/-- A call that is neither `Create` nor `Update` is quiet when it leaves the table. -/
theorem IdentityStep.of_eq {c : Op Attrs} {r : c.Reply} {ids ids' : Identities}
    (h : ids' = ids) (hc : ∀ ident, c ≠ .repo (.identities (.create ident)))
    (hu : ∀ ident, c ≠ .repo (.identities (.update ident))) : IdentityStep ⟨c, r⟩ ids ids' := by
  subst h
  refine .quiet _ _ (fun ident x heq => ?_) (fun ident x heq => ?_)
  · exact hc ident (congrArg Event.op heq)
  · exact hu ident (congrArg Event.op heq)

theorem identityStep_create (now : Time) (es : Nat → Choice) (db : DB) (ident : Identity Attrs) :
    IdentityStep ⟨.repo (.identities (.create ident)),
      (perform (IdentityRepo.create now ident) es db).1⟩ db.identities
      (perform (IdentityRepo.create now ident) es db).2.identities := by
  rcases perform_create now ident es db with ⟨e, h⟩ | ⟨st, T, by_, ids, _, _, hT, hins, -, -, h⟩
  · rw [h]
    refine .quiet _ _ (fun ident x heq => ?_) (fun ident x heq => ?_)
    · cases heq
    · cases heq
  · rw [h]
    exact .created ident st T by_ _ ids hT hins

theorem identityStep_update (es : Nat → Choice) (db : DB) (ident : Identity Attrs) :
    IdentityStep ⟨.repo (.identities (.update ident)),
      (perform (IdentityRepo.update ident) es db).1⟩
      db.identities (perform (IdentityRepo.update ident) es db).2.identities := by
  have hout : Outcome (.identityUpdate ident.tenantID ident.id ident.displayName ident.attributes
      (some []) ident.version) _ db (perform (IdentityRepo.update ident) es db).1
      (perform (IdentityRepo.update ident) es db).2 :=
    outcome_withTenantConn (fun _ => ⟨_, rfl⟩) ident.tenantID es db
  generalize perform (IdentityRepo.update ident) es db = out at hout ⊢
  obtain ⟨r, db'⟩ := out
  have quiet : ∀ e, IdentityStep (⟨.repo (.identities (.update ident)), .error e⟩ : Ev Attrs)
      db.identities db.identities := by
    intro e
    refine .quiet _ _ (fun ident x heq => ?_) (fun ident x heq => ?_)
    · cases heq
    · cases heq
  cases hout with
  | failed e => exact quiet e
  | answered st rows _ heval =>
    rcases sqlIdentityUpdate_ok heval with ⟨rfl, rfl⟩ |
      ⟨T, I, a, iv, row, hT, hI, ha, hiv, hlt, hget, hrT, hrv, rfl, rfl⟩
    · exact quiet _
    · cases hiv
      exact .updated ident st.now T I a row _ hT hI ha hlt hget hrT hrv

theorem identityStep_updateStatus (es : Nat → Choice) (db : DB) (tenantID id : String)
    (status : IdentityStatus) :
    IdentityStep (⟨.repo (.identities (.updateStatus tenantID id status)),
      (perform (IdentityRepo.updateStatus tenantID id status) es db).1⟩ : Ev Attrs) db.identities
      (perform (IdentityRepo.updateStatus tenantID id status) es db).2.identities := by
  have hout : Outcome (.identityUpdateStatus tenantID id status) _ db
      (perform (IdentityRepo.updateStatus tenantID id status) es db).1
      (perform (IdentityRepo.updateStatus tenantID id status) es db).2 :=
    outcome_withTenantConn (fun _ => ⟨_, rfl⟩) tenantID es db
  generalize perform (IdentityRepo.updateStatus tenantID id status) es db = out at hout ⊢
  obtain ⟨r, db'⟩ := out
  cases hout with
  | failed e => exact .of_eq rfl (fun _ h => by cases h) (fun _ h => by cases h)
  | answered st rows _ heval =>
    obtain ⟨T, I, hT, hI, rfl⟩ := sqlIdentityUpdateStatus_ok heval
    exact .statusWritten tenantID id status st.now T I _ hT hI

theorem identityStep_setPrimaryKey (es : Nat → Choice) (db : DB) (tenantID id keyID : String) :
    IdentityStep (⟨.repo (.identities (.setPrimaryKey tenantID id keyID)),
      (perform (IdentityRepo.setPrimaryKey tenantID id keyID) es db).1⟩ : Ev Attrs) db.identities
      (perform (IdentityRepo.setPrimaryKey tenantID id keyID) es db).2.identities := by
  have hout : Outcome (.identitySetPrimaryKey tenantID id keyID) _ db
      (perform (IdentityRepo.setPrimaryKey tenantID id keyID) es db).1
      (perform (IdentityRepo.setPrimaryKey tenantID id keyID) es db).2 :=
    outcome_withTenantConn (fun _ => ⟨_, rfl⟩) tenantID es db
  generalize perform (IdentityRepo.setPrimaryKey tenantID id keyID) es db = out at hout ⊢
  obtain ⟨r, db'⟩ := out
  cases hout with
  | failed e => exact .of_eq rfl (fun _ h => by cases h) (fun _ h => by cases h)
  | answered st rows _ heval =>
    obtain ⟨T, I, K, hT, hI, hK, rfl⟩ := sqlIdentitySetPrimaryKey_ok heval
    exact .primaryKeySet tenantID id keyID st.now T I K _ hT hI hK

theorem generateAndStore_db (P : Primitives Attrs) (algorithm : KeyAlgorithm) (keyID : String)
    (secret : Option Bytes) (w : World) :
    (generateAndStore P algorithm keyID secret w).2.db = w.db := by
  cases secret with
  | none => rfl
  | some bytes =>
    simp only [generateAndStore, store]
    by_cases hid : keyID = ""
    · simp [hid]
    · simp [hid]

theorem delete_db (keyRef : String) (w : World) : (delete keyRef w).2.db = w.db := by
  unfold delete
  split <;> rfl

/-- Calls other than repository calls do not reach the database. -/
theorem exec_db (P : Primitives Attrs) (c : Op Attrs) (hc : ∀ r, c ≠ .repo r) (e : Env)
    (w : World) : (exec P c e w).2.db = w.db := by
  cases c with
  | repo r => exact absurd rfl (hc r)
  | generateKey algorithm keyID => cases algorithm <;> exact generateAndStore_db ..
  | deleteKey keyRef => exact delete_db keyRef w
  | encrypt plaintext => rfl
  | now => rfl

theorem exec_identityStep (P : Primitives Attrs) (c : Op Attrs) (e : Env) (w : World) :
    IdentityStep ⟨c, (exec P c e w).1⟩ w.db.identities (exec P c e w).2.db.identities := by
  cases c with
  | repo c =>
    by_cases htarget : c.target = some .identities
    · cases c with
      | identities c =>
        cases c with
        | create ident => exact identityStep_create e.now e.statements w.db ident
        | update ident => exact identityStep_update e.statements w.db ident
        | updateStatus t i s => exact identityStep_updateStatus e.statements w.db t i s
        | setPrimaryKey t i k => exact identityStep_setPrimaryKey e.statements w.db t i k
        | _ => cases htarget
      | tenants c => cases c <;> cases htarget
      | keys c => cases c <;> cases htarget
      | credentials c => cases c <;> cases htarget
      | audit c => cases c <;> cases htarget
    · refine .of_eq ?_ ?_ ?_
      · refine (agreeOff_perform c ?_ e.now e.statements w.db).identities htarget
        rintro ident rfl
        exact htarget rfl
      · rintro ident ⟨⟩
        exact htarget rfl
      · rintro ident ⟨⟩
        exact htarget rfl
  | _ =>
    exact .of_eq (congrArg DB.identities (exec_db P _ (fun _ h => by cases h) e w))
      (fun _ h => by cases h) (fun _ h => by cases h)

/-- What a call can do to the row of identity `r`. -/
inductive IdentityRowStep (r : UUID) : Ev Attrs → IdentityRow → IdentityRow → Prop where
  | same (ev : Ev Attrs) (row : IdentityRow)
      (hu : ∀ ident x, ev = ⟨.repo (.identities (.update ident)), .ok x⟩ →
        UUID.ofText? ident.id ≠ some r) : IdentityRowStep r ev row row
  | updated (ident : Identity Attrs) (now : Time) (a : Bytes) (row : IdentityRow)
      (hT : UUID.ofText? ident.tenantID = some row.tenantID) (hI : UUID.ofText? ident.id = some r)
      (ha : ident.attributes = some a) (hlt : ident.version < maxBigint)
      (hv : row.version = ident.version) :
      IdentityRowStep r ⟨.repo (.identities (.update ident)),
        .ok (scanIdentity (row.updated ident.displayName a [] now))⟩ row
        (row.updated ident.displayName a [] now)
  | statusWritten (tenantID id : String) (status : IdentityStatus) (now : Time) (row : IdentityRow)
      (hT : UUID.ofText? tenantID = some row.tenantID) (hI : UUID.ofText? id = some r) :
      IdentityRowStep r ⟨.repo (.identities (.updateStatus tenantID id status)), .ok ()⟩ row
        (row.withStatus status now)
  | primaryKeySet (tenantID id keyID : String) (now : Time) (K : UUID) (row : IdentityRow)
      (hT : UUID.ofText? tenantID = some row.tenantID) (hI : UUID.ofText? id = some r)
      (hK : UUID.ofText? keyID = some K) :
      IdentityRowStep r ⟨.repo (.identities (.setPrimaryKey tenantID id keyID)), .ok ()⟩ row
        (row.withPrimaryKey K now)

theorem identityAt_iff {T I : UUID} {row : IdentityRow} :
    identityAt T I row = true ↔ row.tenantID = T ∧ row.id = I := by
  simp [identityAt]

/-- A row that is in the table stays in it. -/
theorem IdentityStep.row {ev : Ev Attrs} {ids ids' : Identities} {r : UUID} {row : IdentityRow}
    (h : IdentityStep ev ids ids') (hrow : ids.get? r = some row) :
    ∃ row', ids'.get? r = some row' ∧ IdentityRowStep r ev row row' := by
  have hid : row.id = r := Table.key_of_get? hrow
  cases h with
  | quiet _ _ _ hu => exact ⟨row, hrow, .same _ _ fun ident x heq => absurd heq (hu ident x)⟩
  | created ident st T by_ _ _ hT hins =>
    exact ⟨row, Table.get?_insert?_of_some hins hrow, .same _ _ fun _ _ heq => by cases heq⟩
  | updated ident now T I a row0 _ hT hI ha hlt hget hrT hrv =>
    refine ⟨_, Table.get?_update_of_some hrow, ?_⟩
    by_cases hIr : I = r
    · subst hIr
      obtain rfl : row = row0 := Option.some.inj (hrow.symm.trans hget)
      subst hrT
      have hat : identityAt row.tenantID I row = true := identityAt_iff.mpr ⟨rfl, hid⟩
      rw [hat, Bool.true_and, if_pos (decide_eq_true hrv)]
      exact .updated ident now a row hT hI ha hlt hrv
    · have hat : identityAt T I row = false := by simp [identityAt, hid, Ne.symm hIr]
      rw [hat, Bool.false_and, if_neg Bool.false_ne_true]
      refine .same _ _ fun ident' x heq h' => ?_
      cases heq
      exact hIr (Option.some.inj (hI.symm.trans h'))
  | statusWritten tenantID id status now T I _ hT hI =>
    refine ⟨_, Table.get?_update_of_some hrow, ?_⟩
    split
    · obtain ⟨rfl, rfl⟩ := identityAt_iff.mp ‹_›
      rw [hid] at hI
      exact .statusWritten tenantID id status now row hT hI
    · exact .same _ _ fun _ _ heq => by cases heq
  | primaryKeySet tenantID id keyID now T I K _ hT hI hK =>
    refine ⟨_, Table.get?_update_of_some hrow, ?_⟩
    split
    · obtain ⟨rfl, rfl⟩ := identityAt_iff.mp ‹_›
      rw [hid] at hI
      exact .primaryKeySet tenantID id keyID now K row hT hI hK
    · exact .same _ _ fun _ _ heq => by cases heq

theorem IdentityRowStep.tenant {r : UUID} {ev : Ev Attrs} {row row' : IdentityRow}
    (h : IdentityRowStep r ev row row') : row'.tenantID = row.tenantID := by
  cases h <;> rfl

/-- A row that is new in the table was inserted by this call. -/
theorem IdentityStep.new_row {ev : Ev Attrs} {ids ids' : Identities} {r : UUID} {row : IdentityRow}
    (h : IdentityStep ev ids ids') (hnone : ids.get? r = none) (hrow : ids'.get? r = some row) :
    ∃ ident st T by_, UUID.ofText? ident.tenantID = some T ∧ st.newID = r ∧
      row = insertedIdentity st T ident.type ident.displayName ident.handle ident.status
        (ident.attributes.getD []) [] by_ ∧
      ev = ⟨.repo (.identities (.create ident)), .ok (scanIdentity row)⟩ := by
  cases h with
  | quiet => exact absurd (hnone.symm.trans hrow) (Option.some_ne_none _).symm
  | created ident st T by_ _ _ hT hins =>
    rw [Table.get?_insert? hins, hnone] at hrow
    split at hrow
    · rename_i hid
      cases hrow
      exact ⟨ident, st, T, by_, hT, hid, rfl, rfl⟩
    · cases hrow
  | updated =>
    exact absurd ((Table.get?_update_of_none hnone).symm.trans hrow) (Option.some_ne_none _).symm
  | statusWritten =>
    exact absurd ((Table.get?_update_of_none hnone).symm.trans hrow) (Option.some_ne_none _).symm
  | primaryKeySet =>
    exact absurd ((Table.get?_update_of_none hnone).symm.trans hrow) (Option.some_ne_none _).symm

/-- A successful `Create` returns the row it adds, under an identifier that was free. -/
theorem IdentityStep.create_ok {ident x : Identity Attrs} {ids ids' : Identities}
    (h : IdentityStep ⟨.repo (.identities (.create ident)), .ok x⟩ ids ids') :
    ∃ st T by_, UUID.ofText? ident.tenantID = some T ∧ ids.get? st.newID = none ∧
      ids'.get? st.newID = some (insertedIdentity st T ident.type ident.displayName ident.handle
        ident.status (ident.attributes.getD []) [] by_) ∧
      x = scanIdentity (insertedIdentity st T ident.type ident.displayName ident.handle
        ident.status (ident.attributes.getD []) [] by_) := by
  generalize hev : (⟨.repo (.identities (.create ident)), .ok x⟩ : Ev Attrs) = ev at h
  cases h with
  | quiet _ _ hc _ => exact absurd hev.symm (hc ident x)
  | created ident st T by_ _ _ hT hins =>
    cases hev
    exact ⟨st, T, by_, hT, (Table.insert?_eq_some.mp hins).1, Table.get?_insert?_self hins, rfl⟩
  | _ => cases hev

/-- A successful `Update` returns the row it leaves. -/
theorem IdentityStep.update_ok {ident x : Identity Attrs} {ids ids' : Identities}
    (h : IdentityStep ⟨.repo (.identities (.update ident)), .ok x⟩ ids ids') :
    ∃ I row a now, UUID.ofText? ident.id = some I ∧ ids.get? I = some row ∧
      UUID.ofText? ident.tenantID = some row.tenantID ∧ ident.attributes = some a ∧
      row.version = ident.version ∧
      ids'.get? I = some (row.updated ident.displayName a [] now) ∧
      x = scanIdentity (row.updated ident.displayName a [] now) := by
  generalize hev : (⟨.repo (.identities (.update ident)), .ok x⟩ : Ev Attrs) = ev at h
  cases h with
  | quiet _ _ _ hu => exact absurd hev.symm (hu ident x)
  | updated ident now T I a row _ hT hI ha hlt hget hrT hrv =>
    cases hev
    subst hrT
    refine ⟨I, row, a, now, hI, hget, hT, ha, hrv, ?_, rfl⟩
    have hat : identityAt row.tenantID I row = true :=
      identityAt_iff.mpr ⟨rfl, Table.key_of_get? hget⟩
    refine (Table.get?_update_of_some hget).trans ?_
    rw [hat, Bool.true_and, if_pos (decide_eq_true hrv)]
  | _ => cases hev

/-! ### Keys -/

inductive KeyStep : Ev Attrs → Keys → Keys → Prop where
  | quiet (ev : Ev Attrs) (keys : Keys)
      (hc : ∀ k x, ev ≠ ⟨.repo (.keys (.create k)), .ok x⟩) : KeyStep ev keys keys
  | created (k : IdentityKey) (st : Stamp) (I T : UUID) (keys keys' : Keys)
      (hI : UUID.ofText? k.identityID = some I) (hT : UUID.ofText? k.tenantID = some T)
      (hins : keys.insert? (insertedKey st I T k) = some keys') :
      KeyStep ⟨.repo (.keys (.create k)), .ok (scanKey (insertedKey st I T k))⟩ keys keys'
  | rotated (tenantID oldKeyID newKeyID : String) (now : Time) (T K N : UUID) (keys : Keys)
      (hT : UUID.ofText? tenantID = some T) (hK : UUID.ofText? oldKeyID = some K)
      (hN : UUID.ofText? newKeyID = some N) :
      KeyStep ⟨.repo (.keys (.rotate tenantID oldKeyID newKeyID)), .ok ()⟩ keys
        (keys.update (keyAt T K) (KeyRow.rotated N now) fun _ => rfl)
  | revoked (tenantID keyID : String) (T K : UUID) (keys : Keys)
      (hT : UUID.ofText? tenantID = some T) (hK : UUID.ofText? keyID = some K) :
      KeyStep ⟨.repo (.keys (.revoke tenantID keyID)), .ok ()⟩ keys
        (keys.update (keyAt T K) (fun r => { r with status := .revoked }) fun _ => rfl)
  | compromised (tenantID keyID : String) (T K : UUID) (keys : Keys)
      (hT : UUID.ofText? tenantID = some T) (hK : UUID.ofText? keyID = some K) :
      KeyStep ⟨.repo (.keys (.markCompromised tenantID keyID)), .ok ()⟩ keys
        (keys.update (keyAt T K) (fun r => { r with status := .compromised }) fun _ => rfl)

theorem KeyStep.of_eq {c : Op Attrs} {r : c.Reply} {keys keys' : Keys} (h : keys' = keys)
    (hc : ∀ k, c ≠ .repo (.keys (.create k))) : KeyStep ⟨c, r⟩ keys keys' := by
  subst h
  exact .quiet _ _ fun k x heq => hc k (congrArg Event.op heq)

theorem keyStep_create (es : Nat → Choice) (db : DB) (k : IdentityKey) :
    KeyStep (⟨.repo (.keys (.create k)), (perform (KeyRepo.create k) es db).1⟩ : Ev Attrs)
      db.identityKeys (perform (KeyRepo.create k) es db).2.identityKeys := by
  have hout : Outcome (.keyInsert k) _ db (perform (KeyRepo.create k) es db).1
      (perform (KeyRepo.create k) es db).2 :=
    outcome_withTenantConn (fun _ => ⟨_, rfl⟩) k.tenantID es db
  generalize perform (KeyRepo.create k) es db = out at hout ⊢
  obtain ⟨r, db'⟩ := out
  cases hout with
  | failed e => exact .quiet _ _ fun k x heq => by cases heq
  | answered st rows _ heval =>
    obtain ⟨I, T, keys, hI, hT, -, hins, rfl, rfl⟩ := sqlKeyInsert_ok heval
    exact .created k st I T _ keys hI hT hins

theorem keyStep_rotate (es : Nat → Choice) (db : DB) (tenantID oldKeyID newKeyID : String) :
    KeyStep (⟨.repo (.keys (.rotate tenantID oldKeyID newKeyID)),
      (perform (KeyRepo.rotate tenantID oldKeyID newKeyID) es db).1⟩ : Ev Attrs) db.identityKeys
      (perform (KeyRepo.rotate tenantID oldKeyID newKeyID) es db).2.identityKeys := by
  have hout : Outcome (.keyRotate tenantID oldKeyID newKeyID) _ db
      (perform (KeyRepo.rotate tenantID oldKeyID newKeyID) es db).1
      (perform (KeyRepo.rotate tenantID oldKeyID newKeyID) es db).2 :=
    outcome_withTenantConn (fun _ => ⟨_, rfl⟩) tenantID es db
  generalize perform (KeyRepo.rotate tenantID oldKeyID newKeyID) es db = out at hout ⊢
  obtain ⟨r, db'⟩ := out
  cases hout with
  | failed e => exact .of_eq rfl fun _ h => by cases h
  | answered st rows _ heval =>
    rcases sqlKeyRotate_ok heval with rfl | ⟨T, K, N, hT, hK, hN, rfl⟩
    · exact .of_eq rfl fun _ h => by cases h
    · exact .rotated tenantID oldKeyID newKeyID st.now T K N _ hT hK hN

theorem keyStep_revoke (es : Nat → Choice) (db : DB) (tenantID keyID : String) :
    KeyStep (⟨.repo (.keys (.revoke tenantID keyID)),
      (perform (KeyRepo.revoke tenantID keyID) es db).1⟩ : Ev Attrs) db.identityKeys
      (perform (KeyRepo.revoke tenantID keyID) es db).2.identityKeys := by
  have hout : Outcome (.keyRevoke tenantID keyID) _ db
      (perform (KeyRepo.revoke tenantID keyID) es db).1
      (perform (KeyRepo.revoke tenantID keyID) es db).2 :=
    outcome_withTenantConn (fun _ => ⟨_, rfl⟩) tenantID es db
  generalize perform (KeyRepo.revoke tenantID keyID) es db = out at hout ⊢
  obtain ⟨r, db'⟩ := out
  cases hout with
  | failed e => exact .of_eq rfl fun _ h => by cases h
  | answered st rows _ heval =>
    obtain ⟨T, K, hT, hK, rfl⟩ := sqlKeySetStatus_ok heval
    exact .revoked tenantID keyID T K _ hT hK

theorem keyStep_markCompromised (es : Nat → Choice) (db : DB) (tenantID keyID : String) :
    KeyStep (⟨.repo (.keys (.markCompromised tenantID keyID)),
      (perform (KeyRepo.markCompromised tenantID keyID) es db).1⟩ : Ev Attrs) db.identityKeys
      (perform (KeyRepo.markCompromised tenantID keyID) es db).2.identityKeys := by
  have hout : Outcome (.keyMarkCompromised tenantID keyID) _ db
      (perform (KeyRepo.markCompromised tenantID keyID) es db).1
      (perform (KeyRepo.markCompromised tenantID keyID) es db).2 :=
    outcome_withTenantConn (fun _ => ⟨_, rfl⟩) tenantID es db
  generalize perform (KeyRepo.markCompromised tenantID keyID) es db = out at hout ⊢
  obtain ⟨r, db'⟩ := out
  cases hout with
  | failed e => exact .of_eq rfl fun _ h => by cases h
  | answered st rows _ heval =>
    obtain ⟨T, K, hT, hK, rfl⟩ := sqlKeySetStatus_ok heval
    exact .compromised tenantID keyID T K _ hT hK

theorem exec_keyStep (P : Primitives Attrs) (c : Op Attrs) (e : Env) (w : World) :
    KeyStep ⟨c, (exec P c e w).1⟩ w.db.identityKeys (exec P c e w).2.db.identityKeys := by
  cases c with
  | repo c =>
    by_cases htarget : c.target = some .identityKeys
    · cases c with
      | keys c =>
        cases c with
        | create k => exact keyStep_create e.statements w.db k
        | rotate t o n => exact keyStep_rotate e.statements w.db t o n
        | revoke t k => exact keyStep_revoke e.statements w.db t k
        | markCompromised t k => exact keyStep_markCompromised e.statements w.db t k
        | _ => cases htarget
      | tenants c => cases c <;> cases htarget
      | identities c => cases c <;> cases htarget
      | credentials c => cases c <;> cases htarget
      | audit c => cases c <;> cases htarget
    · refine .of_eq ?_ ?_
      · by_cases hcreate : ∃ ident, c = .identities (.create ident)
        · obtain ⟨ident, rfl⟩ := hcreate
          rcases perform_create e.now ident e.statements w.db with
            ⟨err, h⟩ | ⟨_, _, _, _, _, _, -, -, -, -, h⟩
          · exact congrArg (fun r => r.2.identityKeys) h
          · exact congrArg (fun r => r.2.identityKeys) h
        · refine (agreeOff_perform c ?_ e.now e.statements w.db).identityKeys htarget
          exact fun ident h => hcreate ⟨ident, h⟩
      · rintro k ⟨⟩
        exact htarget rfl
  | _ =>
    exact .of_eq (congrArg DB.identityKeys (exec_db P _ (fun _ h => by cases h) e w))
      fun _ h => by cases h

/-- What a call can do to the row of key `k`. -/
inductive KeyRowStep (k : UUID) : Ev Attrs → KeyRow → KeyRow → Prop where
  | same (ev : Ev Attrs) (row : KeyRow) : KeyRowStep k ev row row
  | rotated (tenantID oldKeyID newKeyID : String) (now : Time) (N : UUID) (row : KeyRow)
      (hT : UUID.ofText? tenantID = some row.tenantID) (hK : UUID.ofText? oldKeyID = some k)
      (hN : UUID.ofText? newKeyID = some N) :
      KeyRowStep k ⟨.repo (.keys (.rotate tenantID oldKeyID newKeyID)), .ok ()⟩ row
        (row.rotated N now)
  | revoked (tenantID keyID : String) (row : KeyRow)
      (hT : UUID.ofText? tenantID = some row.tenantID) (hK : UUID.ofText? keyID = some k) :
      KeyRowStep k ⟨.repo (.keys (.revoke tenantID keyID)), .ok ()⟩ row
        { row with status := .revoked }
  | compromised (tenantID keyID : String) (row : KeyRow)
      (hT : UUID.ofText? tenantID = some row.tenantID) (hK : UUID.ofText? keyID = some k) :
      KeyRowStep k ⟨.repo (.keys (.markCompromised tenantID keyID)), .ok ()⟩ row
        { row with status := .compromised }

theorem keyAt_iff {T K : UUID} {row : KeyRow} :
    keyAt T K row = true ↔ row.tenantID = T ∧ row.id = K := by
  simp [keyAt]

theorem KeyStep.row {ev : Ev Attrs} {keys keys' : Keys} {k : UUID} {row : KeyRow}
    (h : KeyStep ev keys keys') (hrow : keys.get? k = some row) :
    ∃ row', keys'.get? k = some row' ∧ KeyRowStep k ev row row' := by
  have hid : row.id = k := Table.key_of_get? hrow
  cases h with
  | quiet => exact ⟨row, hrow, .same _ _⟩
  | created key st I T _ _ hI hT hins =>
    exact ⟨row, Table.get?_insert?_of_some hins hrow, .same _ _⟩
  | rotated tenantID oldKeyID newKeyID now T K N _ hT hK hN =>
    refine ⟨_, Table.get?_update_of_some hrow, ?_⟩
    split
    · obtain ⟨rfl, rfl⟩ := keyAt_iff.mp ‹_›
      rw [hid] at hK
      exact .rotated tenantID oldKeyID newKeyID now N row hT hK hN
    · exact .same _ _
  | revoked tenantID keyID T K _ hT hK =>
    refine ⟨_, Table.get?_update_of_some hrow, ?_⟩
    split
    · obtain ⟨rfl, rfl⟩ := keyAt_iff.mp ‹_›
      rw [hid] at hK
      exact .revoked tenantID keyID row hT hK
    · exact .same _ _
  | compromised tenantID keyID T K _ hT hK =>
    refine ⟨_, Table.get?_update_of_some hrow, ?_⟩
    split
    · obtain ⟨rfl, rfl⟩ := keyAt_iff.mp ‹_›
      rw [hid] at hK
      exact .compromised tenantID keyID row hT hK
    · exact .same _ _

/-- A key stays with its identity; only a rotation names its successor. -/
theorem KeyRowStep.keeps {k : UUID} {ev : Ev Attrs} {row row' : KeyRow}
    (h : KeyRowStep k ev row row') :
    row'.identityID = row.identityID ∧ row'.tenantID = row.tenantID ∧ row'.keyType = row.keyType ∧
      row'.purpose = row.purpose ∧ (row'.rotatedTo = row.rotatedTo ∨
        ∃ tenantID oldKeyID newKeyID N, UUID.ofText? tenantID = some row.tenantID ∧
          UUID.ofText? oldKeyID = some k ∧ UUID.ofText? newKeyID = some N ∧
          row'.rotatedTo = some N ∧
          ev = ⟨.repo (.keys (.rotate tenantID oldKeyID newKeyID)), .ok ()⟩) := by
  cases h with
  | rotated tenantID oldKeyID newKeyID now N _ hT hK hN =>
    exact ⟨rfl, rfl, rfl, rfl, .inr ⟨tenantID, oldKeyID, newKeyID, N, hT, hK, hN, rfl, rfl⟩⟩
  | _ => exact ⟨rfl, rfl, rfl, rfl, .inl rfl⟩

theorem KeyStep.new_row {ev : Ev Attrs} {keys keys' : Keys} {k : UUID} {row : KeyRow}
    (h : KeyStep ev keys keys') (hnone : keys.get? k = none) (hrow : keys'.get? k = some row) :
    ∃ key st I T, UUID.ofText? key.identityID = some I ∧ UUID.ofText? key.tenantID = some T ∧
      st.newID = k ∧ row = insertedKey st I T key ∧
      ev = ⟨.repo (.keys (.create key)), .ok (scanKey row)⟩ := by
  cases h with
  | quiet => exact absurd (hnone.symm.trans hrow) (Option.some_ne_none _).symm
  | created key st I T _ _ hI hT hins =>
    rw [Table.get?_insert? hins, hnone] at hrow
    split at hrow
    · rename_i hid
      cases hrow
      exact ⟨key, st, I, T, hI, hT, hid, rfl, rfl⟩
    · cases hrow
  | rotated =>
    exact absurd ((Table.get?_update_of_none hnone).symm.trans hrow) (Option.some_ne_none _).symm
  | revoked =>
    exact absurd ((Table.get?_update_of_none hnone).symm.trans hrow) (Option.some_ne_none _).symm
  | compromised =>
    exact absurd ((Table.get?_update_of_none hnone).symm.trans hrow) (Option.some_ne_none _).symm

/-- A key is one of before, or is inserted by the call. -/
theorem KeyStep.origin {ev : Ev Attrs} {keys keys' : Keys} {k : UUID} {row : KeyRow}
    (h : KeyStep ev keys keys') (hrow : keys'.get? k = some row) :
    (∃ old, keys.get? k = some old ∧ row.identityID = old.identityID) ∨
    ∃ key, ev.op = .repo (.keys (.create key)) ∧ keys.get? k = none ∧
      UUID.ofText? key.identityID = some row.identityID := by
  cases hold : keys.get? k with
  | none =>
    obtain ⟨key, st, I, T, hI, -, -, rfl, rfl⟩ := h.new_row hold hrow
    exact .inr ⟨key, rfl, rfl, hI⟩
  | some old =>
    obtain ⟨row', hrow', hstep⟩ := h.row hold
    obtain rfl : row' = row := Option.some.inj (hrow'.symm.trans hrow)
    exact .inl ⟨old, rfl, hstep.keeps.1⟩

/-- A successful `Create` returns the row it adds. -/
theorem KeyStep.create_ok {key x : IdentityKey} {keys keys' : Keys}
    (h : KeyStep (⟨.repo (.keys (.create key)), .ok x⟩ : Ev Attrs) keys keys') :
    ∃ st I T, UUID.ofText? key.identityID = some I ∧ UUID.ofText? key.tenantID = some T ∧
      keys.insert? (insertedKey st I T key) = some keys' ∧
        x = scanKey (insertedKey st I T key) := by
  generalize hev : (⟨.repo (.keys (.create key)), .ok x⟩ : Ev Attrs) = ev at h
  cases h with
  | quiet _ _ hc => exact absurd hev.symm (hc key x)
  | created key st I T _ _ hI hT hins =>
    cases hev
    exact ⟨st, I, T, hI, hT, hins, rfl⟩
  | _ => cases hev

/-- The identifier of a created key was not in the table. -/
theorem KeyStep.create_fresh {key x : IdentityKey} {keys keys' : Keys} {k : UUID}
    (h : KeyStep (⟨.repo (.keys (.create key)), .ok x⟩ : Ev Attrs) keys keys')
    (hx : UUID.ofText? x.id = some k) : keys.get? k = none := by
  obtain ⟨st, I, T, -, -, hins, rfl⟩ := h.create_ok
  obtain rfl : st.newID = k := Option.some.inj ((UUID.ofText?_toText _).symm.trans hx)
  exact (Table.insert?_eq_some.mp hins).1

/-! ### Tenants -/

inductive TenantStep : Ev Attrs → Tenants → Tenants → Prop where
  | quiet (ev : Ev Attrs) (tenants : Tenants) : TenantStep ev tenants tenants
  | created (t : Tenant) (row : TenantRow) (tenants tenants' : Tenants)
      (hins : tenants.insert? row = some tenants') :
      TenantStep ⟨.repo (.tenants (.create t)), .ok (scanTenant row)⟩ tenants tenants'
  | edited (t x : Tenant) (p : TenantRow → Bool) (f : TenantRow → TenantRow) (tenants : Tenants)
      (hf : ∀ r, (f r).id = r.id) (hstatus : ∀ r, (f r).status = r.status) :
      TenantStep ⟨.repo (.tenants (.update t)), .ok x⟩ tenants (tenants.update p f hf)
  | statusSet (id : String) (status : TenantStatus) (now : Time) (T : UUID) (tenants : Tenants)
      (hT : UUID.ofText? id = some T) :
      TenantStep ⟨.repo (.tenants (.updateStatus id status)), .ok ()⟩ tenants
        (tenants.update (fun r => decide (r.id = T))
          (fun r => { r with status, updatedAt := now }) fun _ => rfl)

theorem TenantStep.of_eq {ev : Ev Attrs} {tenants tenants' : Tenants} (h : tenants' = tenants) :
    TenantStep ev tenants tenants' := by
  subst h
  exact .quiet _ _

theorem tenantStep_create (es : Nat → Choice) (db : DB) (t : Tenant) :
    TenantStep (⟨.repo (.tenants (.create t)), (perform (TenantRepo.create t) es db).1⟩ : Ev Attrs)
      db.tenants (perform (TenantRepo.create t) es db).2.tenants := by
  have hout : Outcome (.tenantInsert t.name t.slug t.tier t.status
      (t.settings.getD [0x7b, 0x7d]) t.dataRegion) _ db (perform (TenantRepo.create t) es db).1
      (perform (TenantRepo.create t) es db).2 :=
    outcome_viaPool (fun _ => ⟨_, rfl⟩) es db
  generalize perform (TenantRepo.create t) es db = out at hout ⊢
  obtain ⟨r, db'⟩ := out
  cases hout with
  | failed e => exact .quiet _ _
  | answered st rows _ heval =>
    obtain ⟨row, tenants, -, rfl, hins, rfl⟩ := sqlTenantInsert_ok heval
    exact .created t row _ tenants hins

theorem tenantStep_update (es : Nat → Choice) (db : DB) (t : Tenant) :
    TenantStep (⟨.repo (.tenants (.update t)), (perform (TenantRepo.update t) es db).1⟩ : Ev Attrs)
      db.tenants (perform (TenantRepo.update t) es db).2.tenants := by
  have hout : Outcome (.tenantUpdate t.id t.name t.tier t.settings t.dataRegion) _ db
      (perform (TenantRepo.update t) es db).1 (perform (TenantRepo.update t) es db).2 :=
    outcome_viaPool (fun _ => ⟨_, rfl⟩) es db
  have herror : ∀ x, (perform (TenantRepo.update t) es db).1 = .error x →
      (perform (TenantRepo.update t) es db).2 = db :=
    fun x h => perform_error (.tenants (.update t) : RepoCall Attrs) 0 h
  generalize perform (TenantRepo.update t) es db = out at hout herror ⊢
  obtain ⟨r, db'⟩ := out
  cases r with
  | error x => exact .of_eq (congrArg DB.tenants (herror x rfl))
  | ok x =>
    obtain ⟨st, rows, heval, -⟩ := hout.ok
    rcases sqlTenantUpdate_ok heval with rfl | ⟨p, f, hf, hstatus, rfl⟩
    · exact .quiet _ _
    · exact .edited t x p f _ hf hstatus

theorem tenantStep_updateStatus (es : Nat → Choice) (db : DB) (id : String)
    (status : TenantStatus) :
    TenantStep (⟨.repo (.tenants (.updateStatus id status)),
      (perform (TenantRepo.updateStatus id status) es db).1⟩ : Ev Attrs) db.tenants
      (perform (TenantRepo.updateStatus id status) es db).2.tenants := by
  have hout : Outcome (.tenantUpdateStatus id status) _ db
      (perform (TenantRepo.updateStatus id status) es db).1
      (perform (TenantRepo.updateStatus id status) es db).2 :=
    outcome_viaPool (fun _ => ⟨_, rfl⟩) es db
  generalize perform (TenantRepo.updateStatus id status) es db = out at hout ⊢
  obtain ⟨r, db'⟩ := out
  cases hout with
  | failed e => exact .quiet _ _
  | answered st rows _ heval =>
    obtain ⟨T, hT, rfl⟩ := sqlTenantUpdateStatus_ok heval
    exact .statusSet id status st.now T _ hT

theorem exec_tenantStep (P : Primitives Attrs) (c : Op Attrs) (e : Env) (w : World) :
    TenantStep ⟨c, (exec P c e w).1⟩ w.db.tenants (exec P c e w).2.db.tenants := by
  cases c with
  | repo c =>
    by_cases htarget : c.target = some .tenants
    · cases c with
      | tenants c =>
        cases c with
        | create t => exact tenantStep_create e.statements w.db t
        | update t => exact tenantStep_update e.statements w.db t
        | updateStatus id status => exact tenantStep_updateStatus e.statements w.db id status
        | _ => cases htarget
      | identities c => cases c <;> cases htarget
      | keys c => cases c <;> cases htarget
      | credentials c => cases c <;> cases htarget
      | audit c => cases c <;> cases htarget
    · refine .of_eq ?_
      by_cases hcreate : ∃ ident, c = .identities (.create ident)
      · obtain ⟨ident, rfl⟩ := hcreate
        rcases perform_create e.now ident e.statements w.db with
          ⟨err, h⟩ | ⟨_, _, _, _, _, _, -, -, -, -, h⟩
        · exact congrArg (fun r => r.2.tenants) h
        · exact congrArg (fun r => r.2.tenants) h
      · refine (agreeOff_perform c ?_ e.now e.statements w.db).tenants htarget
        exact fun ident h => hcreate ⟨ident, h⟩
  | _ => exact .of_eq (congrArg DB.tenants (exec_db P _ (fun _ h => by cases h) e w))

/-- A tenant stays, with its status unless the call sets it. -/
theorem TenantStep.row {ev : Ev Attrs} {tenants tenants' : Tenants} {T : UUID} {row : TenantRow}
    (h : TenantStep ev tenants tenants') (hrow : tenants.get? T = some row) :
    ∃ row', tenants'.get? T = some row' ∧ (row'.status = row.status ∨
      ∃ id status, UUID.ofText? id = some T ∧ row'.status = status ∧
        ev = ⟨.repo (.tenants (.updateStatus id status)), .ok ()⟩) := by
  cases h with
  | quiet => exact ⟨row, hrow, .inl rfl⟩
  | created t new _ _ hins => exact ⟨row, Table.get?_insert?_of_some hins hrow, .inl rfl⟩
  | edited t x p f _ hf hstatus =>
    refine ⟨_, Table.get?_update_of_some hrow, .inl ?_⟩
    split
    · exact hstatus row
    · rfl
  | statusSet id status now T' _ hT =>
    refine ⟨_, Table.get?_update_of_some hrow, ?_⟩
    split
    · rename_i hsel
      rw [← of_decide_eq_true hsel, Table.key_of_get? hrow] at hT
      exact .inr ⟨id, status, hT, rfl, rfl⟩
    · exact .inl rfl

theorem TenantStep.new_row {ev : Ev Attrs} {tenants tenants' : Tenants} {T : UUID}
    {row : TenantRow} (h : TenantStep ev tenants tenants') (hnone : tenants.get? T = none)
    (hrow : tenants'.get? T = some row) :
    ∃ t, ev = ⟨.repo (.tenants (.create t)), .ok (scanTenant row)⟩ := by
  cases h with
  | quiet => exact absurd (hnone.symm.trans hrow) (Option.some_ne_none _).symm
  | created t new _ _ hins =>
    rw [Table.get?_insert? hins, hnone] at hrow
    split at hrow
    · cases hrow
      exact ⟨t, rfl⟩
    · cases hrow
  | edited =>
    exact absurd ((Table.get?_update_of_none hnone).symm.trans hrow) (Option.some_ne_none _).symm
  | statusSet =>
    exact absurd ((Table.get?_update_of_none hnone).symm.trans hrow) (Option.some_ne_none _).symm

/-! ### Reads -/

/-- A call on the connection route that returns is its statement. -/
theorem conn_statement {P : Primitives Attrs} {c : RepoCall Attrs} {q : Query} {T : String}
    {e : Env} {w : World} {finish : Except PgError (List q.Row) → Except Error c.Result}
    {a : c.Result} (hscript : c.script e.now = withTenantConn T (ask q finish))
    (hf : ∀ pe, ∃ err, finish (.error pe) = .error err)
    (h : (exec P (.repo c) e w).1 = .ok a) :
    ∃ st rows, q.eval st w.db = .ok (rows, (exec P (.repo c) e w).2.db) ∧
      finish (.ok rows) = .ok a := by
  have hout := outcome_withTenantConn hf T e.statements w.db
  rw [← hscript, show (perform (c.script e.now) e.statements w.db).1 = .ok a from h] at hout
  exact hout.ok

theorem conn_ok {P : Primitives Attrs} {c : RepoCall Attrs} {q : Query} {T : String} {e : Env}
    {w : World} {finish : Except PgError (List q.Row) → Except Error c.Result} {a : c.Result}
    (hscript : c.script e.now = withTenantConn T (ask q finish))
    (hf : ∀ pe, ∃ err, finish (.error pe) = .error err)
    (h : (exec P (.repo c) e w).1 = .ok a) :
    ∃ st rows db', q.eval st w.db = .ok (rows, db') ∧ finish (.ok rows) = .ok a := by
  obtain ⟨st, rows, heval, hfin⟩ := conn_statement hscript hf h
  exact ⟨st, rows, _, heval, hfin⟩

/-- What `IdentityRepo.GetByID` returns is the row as it stands. -/
theorem getByID_ok {P : Primitives Attrs} {tenantID id : String} {e : Env} {w : World}
    {ident : Identity Attrs}
    (h : (exec P (.repo (.identities (.getByID tenantID id))) e w).1 = .ok ident) :
    ∃ T I row, UUID.ofText? tenantID = some T ∧ UUID.ofText? id = some I ∧
      w.db.identities.get? I = some row ∧ row.tenantID = T ∧ ident = scanIdentity row := by
  obtain ⟨st, rows, db', heval, hfin⟩ := conn_ok (q := .identityGetByID tenantID id) rfl
    (fun _ => ⟨_, rfl⟩) h
  obtain ⟨-, T, I, hT, hI, hrows⟩ := sqlIdentityGetByID_ok heval
  obtain ⟨row, rest, hrow, rfl⟩ := single_ok hfin
  cases hrow
  obtain ⟨hget, hrT⟩ := hrows row (List.mem_cons_self ..)
  exact ⟨T, I, row, hT, hI, hget, hrT, rfl⟩

theorem getByHandle_ok {P : Primitives Attrs} {tenantID handle : String} {e : Env} {w : World}
    {ident : Identity Attrs}
    (h : (exec P (.repo (.identities (.getByHandle tenantID handle))) e w).1 = .ok ident) :
    hasNul handle = false ∧ ∃ T, UUID.ofText? tenantID = some T ∧
      ∃ row ∈ w.db.identities.rows, row.tenantID = T ∧ citextEq row.handle handle = true ∧
        ident = scanIdentity row := by
  obtain ⟨st, rows, db', heval, hfin⟩ := conn_ok (q := .identityGetByHandle tenantID handle) rfl
    (fun _ => ⟨_, rfl⟩) h
  obtain ⟨-, hnul, T, hT, hrows⟩ := sqlIdentityGetByHandle_ok heval
  obtain ⟨row, rest, hrow, rfl⟩ := single_ok hfin
  cases hrow
  obtain ⟨hmem, hrT, hhandle⟩ := hrows row (List.mem_cons_self ..)
  exact ⟨hnul, T, hT, row, hmem, hrT, hhandle, rfl⟩

theorem list_ok {P : Primitives Attrs} {tenantID : String} {filter : IdentityFilter} {e : Env}
    {w : World} {idents : List (Identity Attrs)}
    (h : (exec P (.repo (.identities (.list tenantID filter))) e w).1 = .ok idents) :
    ∃ (T : UUID) (rows : List IdentityRow), UUID.ofText? tenantID = some T ∧
      (∀ row ∈ rows, row ∈ w.db.identities.rows ∧ row.tenantID = T) ∧
      idents = rows.map scanIdentity := by
  obtain ⟨st, rows, db', heval, hfin⟩ := conn_ok (q := .identityList tenantID filter) rfl
    (fun _ => ⟨_, rfl⟩) h
  obtain ⟨-, T, hT, hrows⟩ := sqlIdentityList_ok heval
  obtain ⟨rows', hrows', rfl⟩ := many_ok hfin
  cases hrows'
  exact ⟨T, rows, hT, hrows, rfl⟩

theorem getKeyByID_ok {P : Primitives Attrs} {tenantID id : String} {e : Env} {w : World}
    {key : IdentityKey} (h : (exec P (.repo (.keys (.getByID tenantID id))) e w).1 = .ok key) :
    ∃ T K row, UUID.ofText? tenantID = some T ∧ UUID.ofText? id = some K ∧
      w.db.identityKeys.get? K = some row ∧ row.tenantID = T ∧ key = scanKey row := by
  obtain ⟨st, rows, db', heval, hfin⟩ := conn_ok (q := .keyGetByID tenantID id) rfl
    (fun _ => ⟨_, rfl⟩) h
  obtain ⟨-, T, K, hT, hK, hrows⟩ := sqlKeyGetByID_ok heval
  obtain ⟨row, rest, hrow, rfl⟩ := single_ok hfin
  cases hrow
  obtain ⟨hget, hrT⟩ := hrows row (List.mem_cons_self ..)
  exact ⟨T, K, row, hT, hK, hget, hrT, rfl⟩

theorem getTenantByID_ok {P : Primitives Attrs} {id : String} {e : Env} {w : World} {t : Tenant}
    (h : (exec P (.repo (.tenants (.getByID id))) e w).1 = .ok t) :
    ∃ T row, UUID.ofText? id = some T ∧ w.db.tenants.get? T = some row ∧ t = scanTenant row := by
  have hout : Outcome (.tenantGetByID id) _ w.db (exec P (.repo (.tenants (.getByID id))) e w).1
      (exec P (.repo (.tenants (.getByID id))) e w).2.db :=
    outcome_viaPool (fun _ => ⟨_, rfl⟩) e.statements w.db
  rw [h] at hout
  obtain ⟨st, rows, heval, hfin⟩ := hout.ok
  obtain ⟨-, T, hT, hrows⟩ := sqlTenantGetByID_ok heval
  obtain ⟨row, rest, hrow, rfl⟩ := single_ok hfin
  cases hrow
  exact ⟨T, row, hT, hrows row (List.mem_cons_self ..), rfl⟩

theorem listKeys_ok {P : Primitives Attrs} {tenantID identityID : String}
    {status : Option KeyStatus} {e : Env} {w : World} {keys : List IdentityKey}
    (h : (exec P (.repo (.keys (.listByIdentity tenantID identityID status))) e w).1 = .ok keys) :
    ∃ T I, UUID.ofText? tenantID = some T ∧ UUID.ofText? identityID = some I ∧
      ∀ key ∈ keys, key.tenantID = T.toText := by
  obtain ⟨st, rows, db', heval, hfin⟩ := conn_ok
      (q := .keyListByIdentity tenantID identityID status)
    rfl (fun _ => ⟨_, rfl⟩) h
  obtain ⟨T, I, hT, hI, hrows⟩ := sqlKeyListByIdentity_ok heval
  obtain ⟨rows', hrows', rfl⟩ := many_ok hfin
  cases hrows'
  refine ⟨T, I, hT, hI, fun key hkey => ?_⟩
  obtain ⟨row, hrow, rfl⟩ := List.mem_map.mp hkey
  exact congrArg UUID.toText (hrows row hrow)

/-! ### Insertions -/

theorem exec_createTenant_ok {P : Primitives Attrs} {t created : Tenant} {e : Env} {w : World}
    (h : (exec P (.repo (.tenants (.create t))) e w).1 = .ok created) :
    ∃ row tenants, w.db.tenants.insert? row = some tenants ∧ created = scanTenant row ∧
      (exec P (.repo (.tenants (.create t))) e w).2.db = { w.db with tenants := tenants } := by
  have hout : Outcome (.tenantInsert t.name t.slug t.tier t.status (t.settings.getD [0x7b, 0x7d])
      t.dataRegion) _ w.db (exec P (.repo (.tenants (.create t))) e w).1
      (exec P (.repo (.tenants (.create t))) e w).2.db :=
    outcome_viaPool (fun _ => ⟨_, rfl⟩) e.statements w.db
  rw [h] at hout
  obtain ⟨st, rows, heval, hfin⟩ := hout.ok
  obtain ⟨row, tenants, -, rfl, hins, hdb⟩ := sqlTenantInsert_ok heval
  exact ⟨row, tenants, hins, (Except.ok.inj hfin).symm, hdb⟩

theorem exec_createIdentity_ok {P : Primitives Attrs} {ident created : Identity Attrs} {e : Env}
    {w : World} (h : (exec P (.repo (.identities (.create ident))) e w).1 = .ok created) :
    ∃ st T by_, UUID.ofText? ident.tenantID = some T ∧ w.db.identities.get? st.newID = none ∧
      (exec P (.repo (.identities (.create ident))) e w).2.db.identities.get? st.newID =
        some (insertedIdentity st T ident.type ident.displayName ident.handle ident.status
          (ident.attributes.getD []) [] by_) ∧
      created = scanIdentity (insertedIdentity st T ident.type ident.displayName ident.handle
        ident.status (ident.attributes.getD []) [] by_) := by
  have hstep := exec_identityStep P (.repo (.identities (.create ident))) e w
  rw [h] at hstep
  exact hstep.create_ok

theorem exec_update_ok {P : Primitives Attrs} {ident updated : Identity Attrs} {e : Env} {w : World}
    (h : (exec P (.repo (.identities (.update ident))) e w).1 = .ok updated) :
    ∃ I row a, UUID.ofText? ident.id = some I ∧ w.db.identities.get? I = some row ∧
      UUID.ofText? ident.tenantID = some row.tenantID ∧ ident.attributes = some a ∧
      row.version = ident.version := by
  have hstep := exec_identityStep P (.repo (.identities (.update ident))) e w
  rw [h] at hstep
  obtain ⟨I, row, a, now, hI, hget, hT, ha, hversion, -⟩ := hstep.update_ok
  exact ⟨I, row, a, hI, hget, hT, ha, hversion⟩

theorem exec_createKey_ok {P : Primitives Attrs} {key created : IdentityKey} {e : Env} {w : World}
    (h : (exec P (.repo (.keys (.create key))) e w).1 = .ok created) :
    ∃ st I T, UUID.ofText? key.identityID = some I ∧ UUID.ofText? key.tenantID = some T ∧
      w.db.identityKeys.insert? (insertedKey st I T key) =
        some (exec P (.repo (.keys (.create key))) e w).2.db.identityKeys ∧
      created = scanKey (insertedKey st I T key) := by
  have hstep := exec_keyStep P (.repo (.keys (.create key))) e w
  rw [h] at hstep
  exact hstep.create_ok

/-- What the constraints ask of a new key: its purpose is one of the enumeration, its
identity is stored, and no active key of the identity has the purpose of a new active one. -/
theorem exec_createKey_checks {P : Primitives Attrs} {key created : IdentityKey} {e : Env}
    {w : World} (h : (exec P (.repo (.keys (.create key))) e w).1 = .ok created) :
    ∃ I, UUID.ofText? key.identityID = some I ∧ isKeyPurpose key.purpose = true ∧
      (w.db.identities.get? I).isSome ∧
      (key.status = .active → ∀ r ∈ w.db.identityKeys.rows, r.status = .active →
        r.identityID = I → r.purpose ≠ key.purpose) := by
  obtain ⟨st, rows, heval, -⟩ := conn_statement (q := .keyInsert key) rfl (fun _ => ⟨_, rfl⟩) h
  obtain ⟨I, T, keys, hI, -, hlabels, -, hunique, -, hident, -⟩ := sqlKeyInsert_eq_ok.mp heval
  exact ⟨I, hI, hlabels.2, hident, hunique⟩

theorem exec_setPrimaryKey_ok {P : Primitives Attrs} {tenantID id keyID : String} {e : Env}
    {w : World} {I : UUID} {row : IdentityRow}
    (h : (exec P (.repo (.identities (.setPrimaryKey tenantID id keyID))) e w).1 = .ok ())
    (hT : UUID.ofText? tenantID = some row.tenantID) (hI : UUID.ofText? id = some I)
    (hrow : w.db.identities.get? I = some row) :
    ∃ K now, UUID.ofText? keyID = some K ∧
      (exec P (.repo (.identities (.setPrimaryKey tenantID id keyID))) e w).2.db.identities.get? I =
        some (row.withPrimaryKey K now) := by
  obtain ⟨st, rows, heval, -⟩ := conn_statement (q := .identitySetPrimaryKey tenantID id keyID) rfl
    (fun _ => ⟨_, rfl⟩) h
  obtain ⟨T', I', K, hT', hI', hK, hdb⟩ := sqlIdentitySetPrimaryKey_ok heval
  obtain rfl : row.tenantID = T' := Option.some.inj (hT.symm.trans hT')
  obtain rfl : I = I' := Option.some.inj (hI.symm.trans hI')
  refine ⟨K, st.now, hK, ?_⟩
  have hat : identityAt row.tenantID I row = true :=
      identityAt_iff.mpr ⟨rfl, Table.key_of_get? hrow⟩
  have hget : (w.db.identities.update (identityAt row.tenantID I)
      (IdentityRow.withPrimaryKey K st.now) fun _ => rfl).get? I =
      some (row.withPrimaryKey K st.now) :=
    (Table.get?_update_of_some hrow).trans (congrArg some (if_pos hat))
  rw [hdb]
  exact hget

/-! ### Calls that get through -/

section Calm

variable {P : Primitives Attrs} {c : RepoCall Attrs} {q : Query} {w : World} {db' : DB}
  {rows : List q.Row} {finish : Except PgError (List q.Row) → Except Error c.Result}

theorem answer_calm {n k : Nat} (heval : q.eval ⟨n, UUID.ofNat n⟩ w.db = .ok (rows, db')) :
    answer q w.db ((calm n).statements k) = (.ok rows, db') := by
  unfold answer
  rw [show q.eval ((calm n).statements k).stamp w.db = .ok (rows, db') from heval]
  rfl

/-- With everything available a method on the connection route is its statement. -/
theorem exec_conn_calm {n : Nat} {T : String}
    (hscript : c.script (calm n).now = withTenantConn T (ask q finish)) (hn : hasNul T = false)
    (heval : q.eval ⟨n, UUID.ofNat n⟩ w.db = .ok (rows, db')) :
    exec P (.repo c) (calm n) w = (finish (.ok rows), { w with db := db' }) := by
  have hrun := run_withTenantConn_ask q finish (calm n).statements ⟨none, none⟩ w.db T rfl rfl hn
  rw [answer_calm heval] at hrun
  unfold exec perform
  simp only [hscript, hrun]

theorem exec_pool_calm {n : Nat} (hscript : c.script (calm n).now = viaPool q finish)
    (heval : q.eval ⟨n, UUID.ofNat n⟩ w.db = .ok (rows, db')) :
    exec P (.repo c) (calm n) w = (finish (.ok rows), { w with db := db' }) := by
  have hrun := run_viaPool q finish (calm n).statements ⟨none, none⟩ w.db rfl
  rw [answer_calm heval] at hrun
  unfold exec perform
  simp only [hscript, hrun]

/-- With everything available, reading an identity under its own tenant succeeds. -/
theorem exec_getByID_calm {tenantID id : String} {r : UUID} {row : IdentityRow}
    (hT : UUID.ofText? tenantID = some row.tenantID) (hI : UUID.ofText? id = some r)
    (hrow : w.db.identities.get? r = some row) (n : Nat) :
    exec P (.repo (.identities (.getByID tenantID id)))
    (calm n) w = (.ok (scanIdentity row), w) := by
  have hexec := exec_conn_calm (P := P) (c := .identities (.getByID tenantID id))
    (q := .identityGetByID tenantID id) (n := n) rfl (hasNul_of_ofText? hT)
    (sqlIdentityGetByID_of_get? hT hI hrow)
  exact hexec

theorem exec_getKey_calm {tenantID id : String} {K : UUID} {row : KeyRow}
    (hT : UUID.ofText? tenantID = some row.tenantID) (hK : UUID.ofText? id = some K)
    (hrow : w.db.identityKeys.get? K = some row) (n : Nat) :
    exec P (.repo (.keys (.getByID tenantID id))) (calm n) w = (.ok (scanKey row), w) := by
  have hexec := exec_conn_calm (P := P) (c := .keys (.getByID tenantID id))
    (q := .keyGetByID tenantID id) (n := n) rfl (hasNul_of_ofText? hT)
    (sqlKeyGetByID_of_get? hT hK hrow)
  exact hexec

theorem exec_getTenant_calm {id : String} {T : UUID} {row : TenantRow}
    (hT : UUID.ofText? id = some T) (hrow : w.db.tenants.get? T = some row) (n : Nat) :
    exec P (.repo (.tenants (.getByID id))) (calm n) w = (.ok (scanTenant row), w) := by
  have hexec := exec_pool_calm (P := P) (c := .tenants (.getByID id)) (q := .tenantGetByID id)
    (n := n) rfl (sqlTenantGetByID_of_get? hT hrow)
  exact hexec

theorem exec_update_calm (ident : Identity Attrs) (row : IdentityRow) {I : UUID} {a : Bytes}
    (hT : UUID.ofText? ident.tenantID = some row.tenantID) (hI : UUID.ofText? ident.id = some I)
    (hnul : hasNul ident.displayName = false) (ha : ident.attributes = some a)
    (hv : ident.version = row.version) (hrow : w.db.identities.get? I = some row)
    (hlt : row.version < maxBigint) (n : Nat) :
    exec P (.repo (.identities (.update ident))) (calm n) w =
      (.ok (scanIdentity (row.updated ident.displayName a [] n)), { w with db := { w.db with
        identities := w.db.identities.update
          (fun r => identityAt row.tenantID I r && decide (r.version = row.version))
          (IdentityRow.updated ident.displayName a [] n) fun _ => rfl } }) := by
  have heval := sqlIdentityUpdate_of_get? ⟨n, UUID.ofNat n⟩ a [] hT hI hnul hrow hlt
  rw [← ha, ← hv] at heval
  have hexec := exec_conn_calm (P := P) (c := .identities (.update ident)) (n := n)
    (q := .identityUpdate ident.tenantID ident.id ident.displayName ident.attributes (some [])
      ident.version) rfl (hasNul_of_ofText? hT) heval
  rw [hv] at hexec
  exact hexec

end Calm

end Verion.Service
