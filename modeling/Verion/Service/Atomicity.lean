import Verion.Service.Audit
import Verion.Service.KeyTrust

/-!
# Calls that fail half way

Every write of a service method is committed on its own, so a method that fails
after its first write leaves it behind. Here: which calls that return an error
leave the tables as they found them.
-/

namespace Verion.Service

open Calls Postgres

variable {Attrs α : Type} {P : Primitives Attrs}

/-- The tables agree in what the insertion of an event looks at. -/
def SameLog (db db' : DB) : Prop :=
  db'.auditEvents = db.auditEvents ∧
    ∀ T, (db'.tenants.get? T).isSome = (db.tenants.get? T).isSome

theorem SameLog.auditable_iff {db db' : DB} (h : SameLog db db') {event : AuditEvent} {e : Env} :
    Auditable event e db' ↔ Auditable event e db := by
  obtain ⟨hlog, htenants⟩ := h
  constructor
  · rintro ⟨hconn, hent, hact, ⟨T, hT, hrow⟩, hfresh⟩
    exact ⟨hconn, hent, hact, ⟨T, hT, htenants T ▸ hrow⟩, hlog ▸ hfresh⟩
  · rintro ⟨hconn, hent, hact, ⟨T, hT, hrow⟩, hfresh⟩
    exact ⟨hconn, hent, hact, ⟨T, hT, (htenants T).symm ▸ hrow⟩, hlog.symm ▸ hfresh⟩

/-- Calls that write no event and create no tenant keep what an event refers to. -/
theorem sameLog_exec {c : RepoCall Attrs} (hc : isQuiet c = true)
    (hcreate : ∀ t, c ≠ .tenants (.create t)) (e : Env) (w : World) :
    SameLog w.db (exec P (.repo c) e w).2.db := by
  have hstep := exec_tenantStep P (.repo c) e w
  refine ⟨exec_quiet hc e w, fun T => ?_⟩
  cases hrow : w.db.tenants.get? T with
  | some row =>
    obtain ⟨row', hrow', -⟩ := hstep.row hrow
    rw [hrow']
    rfl
  | none =>
    cases hrow' : (exec P (.repo c) e w).2.db.tenants.get? T with
    | none => rfl
    | some row' =>
      obtain ⟨t, hev⟩ := hstep.new_row hrow hrow'
      have hop := congrArg Event.op hev
      cases hop
      exact absurd rfl (hcreate t)

theorem exec_audit_cases (event : AuditEvent) (e : Env) (w : World) :
    (Auditable event e w.db ∧ (exec P (.repo (.audit (.insert event))) e w).1 = .ok ()) ∨
    (¬ Auditable event e w.db ∧ ∃ x, (exec P (.repo (.audit (.insert event))) e w).1 =
      .error x) := by
  cases h : (exec P (.repo (.audit (.insert event))) e w).1 with
  | ok _ => exact .inl ⟨(exec_audit_ok h).1, rfl⟩
  | error x =>
    refine .inr ⟨fun haud => ?_, x, rfl⟩
    cases h.symm.trans (exec_audit_of haud)

/-! ### Changes of status -/

/-- The five operations that check, write a status and record it. -/
inductive StatusChange where
  | deactivateIdentity (tenantID id actorID : String)
  | suspendIdentity (tenantID id actorID : String)
  | reactivateIdentity (tenantID id actorID : String)
  | revokeKey (tenantID keyID actorID : String)
  | suspendTenant (id : String)

namespace StatusChange

def program : StatusChange → Svc Attrs Unit
  | .deactivateIdentity tenantID id actorID => Service.deactivateIdentity tenantID id actorID
  | .suspendIdentity tenantID id actorID => Service.suspendIdentity tenantID id actorID
  | .reactivateIdentity tenantID id actorID => Service.reactivateIdentity tenantID id actorID
  | .revokeKey tenantID keyID actorID => Service.revokeKey tenantID keyID actorID
  | .suspendTenant id => Service.suspendTenant id

def read : StatusChange → RepoCall Attrs
  | .deactivateIdentity tenantID id _ | .suspendIdentity tenantID id _
  | .reactivateIdentity tenantID id _ => .identities (.getByID tenantID id)
  | .revokeKey tenantID keyID _ => .keys (.getByID tenantID keyID)
  | .suspendTenant id => .tenants (.getByID id)

def refuses : (op : StatusChange) → (op.read : RepoCall Attrs).Result → Bool
  | .deactivateIdentity .., ident | .suspendIdentity .., ident
  | .reactivateIdentity .., ident => ident.status.isTerminal
  | .revokeKey .., _ => false
  | .suspendTenant _, tenant => decide (tenant.status ≠ .active)

def write : StatusChange → RepoCall Attrs
  | .deactivateIdentity tenantID id _ => .identities (.updateStatus tenantID id .deactivated)
  | .suspendIdentity tenantID id _ => .identities (.updateStatus tenantID id .suspended)
  | .reactivateIdentity tenantID id _ => .identities (.updateStatus tenantID id .active)
  | .revokeKey tenantID keyID _ => .keys (.revoke tenantID keyID)
  | .suspendTenant id => .tenants (.updateStatus id .suspended)

def event : StatusChange → AuditEvent
  | .deactivateIdentity tenantID id actorID =>
    { tenantID, eventType := "identity.deactivated", entityType := "identity", entityID := id,
      actorID := if actorID ≠ "" then some actorID else none, success := true }
  | .suspendIdentity tenantID id actorID =>
    { tenantID, eventType := "identity.suspended", entityType := "identity", entityID := id,
      actorID := if actorID ≠ "" then some actorID else none, success := true }
  | .reactivateIdentity tenantID id actorID =>
    { tenantID, eventType := "identity.activated", entityType := "identity", entityID := id,
      actorID := if actorID ≠ "" then some actorID else none, success := true }
  | .revokeKey tenantID keyID actorID =>
    { tenantID, eventType := "key.revoked", entityType := "key", entityID := keyID,
      actorID := some actorID, success := true }
  | .suspendTenant id =>
    { tenantID := id, eventType := "tenant.suspended", entityType := "tenant", entityID := id,
      success := true }

end StatusChange

/-- A call that returns an error leaves every table as it was. -/
def Atomic (P : Primitives Attrs) (p : Svc Attrs α) (es : Nat → Env) (w : World) : Prop :=
  ∀ x, (p.run (exec P) es w).1 = .error x → (p.run (exec P) es w).2.db = w.db

/-- If the checks pass and the status write changes a table, the event can be inserted. -/
def AuditSure (P : Primitives Attrs) (op : StatusChange) (es : Nat → Env) (w : World) : Prop :=
  (∃ a, (exec P (.repo op.read) (es 0) w).1 = .ok a ∧ op.refuses a = false) →
    (exec P (.repo op.write) (es 1) w).2.db ≠ w.db → Auditable op.event (es 2) w.db

theorem StatusChange.read_target (op : StatusChange) :
    (op.read : RepoCall Attrs).target = none := by
  cases op <;> rfl

theorem StatusChange.sameLog_write (op : StatusChange) (e : Env) (w : World) :
    SameLog w.db (exec P (.repo op.write) e w).2.db := by
  refine sameLog_exec ?_ ?_ e w
  · cases op <;> rfl
  · intro t h
    cases op <;> cases h

/-- The common shape of the five. -/
def StatusChange.guarded (op : StatusChange) (readContext writeContext : Error → Error)
    (refusal : Error) : Svc Attrs Unit := do
  let found ← repo op.read readContext
  refuseIf (op.refuses found) refusal
  let _ ← repo op.write writeContext
  writeAudit op.event

theorem StatusChange.program_eq (op : StatusChange) :
    ∃ f g x, (op.program : Svc Attrs Unit) = op.guarded f g x := by
  cases op with
  | deactivateIdentity => exact ⟨_, _, _, rfl⟩
  | suspendIdentity => exact ⟨_, _, _, rfl⟩
  | reactivateIdentity => exact ⟨_, _, _, rfl⟩
  | revokeKey => exact ⟨_, _, .text "", rfl⟩
  | suspendTenant id =>
    refine ⟨(wrapRepoError · "get tenant for suspend"), (wrapRepoError · "suspend tenant"),
      .sentinel .tenantInactive, ?_⟩
    unfold program guarded Service.suspendTenant
    simp only [refuses, decide_eq_true_eq]
    rfl

theorem atomic_iff_auditSure (P : Primitives Attrs) (op : StatusChange) (es : Nat → Env)
    (w : World) : Atomic P op.program es w ↔ AuditSure P op es w := by
  obtain ⟨f, g, x, (hprog : (op.program : Svc Attrs Unit) = _)⟩ := op.program_eq
  have hread0 := exec_read (P := P) op.read_target (es 0) w
  have hlog := op.sameLog_write (P := P) (es 1) w
  unfold Atomic AuditSure
  rw [hprog]
  unfold StatusChange.guarded
  -- in the order of the calls: a failed read and a refusal leave the tables at once
  cases h0 : (exec P (.repo op.read) (es 0) w).1 with
  | error y =>
    rw [run_repo_bind_error _ h0]
    exact ⟨fun _ ⟨a, ha, _⟩ => (nomatch ha), fun _ _ _ => rfl⟩
  | ok a =>
    rw [run_repo_bind_of _ (Prod.ext h0 hread0)]
    cases hr : op.refuses a with
    | true =>
      refine ⟨fun _ ⟨b, hb, hgo⟩ => ?_, fun _ _ _ => rfl⟩
      cases hb
      cases hr.symm.trans hgo
    | false =>
      rw [run_refuseIf_bind _ (by simp)]
      cases h1 : (exec P (.repo op.write) (es 1) w).1 with
      | error y =>
        rw [run_repo_bind_error (fun n => es (n + 1)) h1, exec_repo_error h1]
        exact ⟨fun _ _ h => absurd rfl h, fun _ _ _ => rfl⟩
      | ok b =>
        rw [run_repo_bind_of (fun n => es (n + 1)) (Prod.ext h1 rfl)]
        rcases exec_audit_cases (P := P) op.event (es 2) (exec P (.repo op.write) (es 1) w).2 with
          ⟨haud, hok⟩ | ⟨hnot, y, herr⟩
        · rw [writeAudit, run_repo_of (fun n => es (n + 1 + 1)) (Prod.ext hok rfl)]
          exact ⟨fun _ _ _ => hlog.auditable_iff.mp haud, fun _ _ h => (nomatch h)⟩
        · rw [writeAudit, run_repo_error (fun n => es (n + 1 + 1)) herr]
          refine ⟨fun h _ hne => absurd (h _ rfl) hne, fun h _ _ => ?_⟩
          by_contra hne
          exact hnot (hlog.auditable_iff.mpr (h ⟨a, rfl, hr⟩ hne))

/-- The key of `keyedWorld` is revoked without an actor. -/
def revokeUnattended : StatusChange :=
  .revokeKey (UUID.ofNat 1).toText (UUID.ofNat 9).toText ""

/-- The event with the actor `""` is refused; the key stays revoked. -/
theorem revokeKey_keeps_write :
    ¬ Atomic plainPrimitives revokeUnattended.program (fun n => calm (n + 10)) keyedWorld := by
  intro h
  have hfails : ((revokeUnattended.program : Svc Bytes Unit).run (exec plainPrimitives)
      (fun n => calm (n + 10)) keyedWorld).1.toOption = none := by decide +kernel
  have hwritten : (((revokeUnattended.program : Svc Bytes Unit).run (exec plainPrimitives)
      (fun n => calm (n + 10)) keyedWorld).2.db.identityKeys.get? (.ofNat 9)).map KeyRow.status =
        some .revoked := by decide +kernel
  have hbefore : (keyedWorld.db.identityKeys.get? (.ofNat 9)).map KeyRow.status =
      some .active := by decide +kernel
  cases hr : ((revokeUnattended.program : Svc Bytes Unit).run (exec plainPrimitives)
      (fun n => calm (n + 10)) keyedWorld).1 with
  | ok a => rw [hr] at hfails; cases hfails
  | error x =>
    rw [h x hr] at hwritten
    cases hbefore.symm.trans hwritten

/-! ### Creation of an identity -/

section Creation

variable {input : CreateIdentityInput Attrs} {created : Identity Attrs} {es : Nat → Env}
  {w w' : World}

/-- The identity as `CreateIdentity` inserts it. -/
def pendingIdentity (input : CreateIdentityInput Attrs) (attrs : Option Bytes) : Identity Attrs :=
  { tenantID := input.tenantID, type := input.type, displayName := input.displayName,
    handle := input.handle, status := .pending, createdBy := input.createdBy,
    attributes := attrs }

/-- The key `CreateIdentity` makes for an identity. -/
def signingKey (input : CreateIdentityInput Attrs) (created : Identity Attrs)
    (generated : GeneratedKey) : IdentityKey :=
  { tenantID := input.tenantID, identityID := created.id, keyType := .ed25519,
    purpose := .signing, algorithm := "EdDSA", publicKey := some generated.publicKeyDER,
    publicKeyJWK := some generated.jwk, keyRef := generated.keyRef,
    fingerprint := generated.fingerprint, status := .active }

/-- The event of `CreateIdentity` itself; its type is left empty. -/
def creationEvent (input : CreateIdentityInput Attrs) (created : Identity Attrs) : AuditEvent :=
  { tenantID := input.tenantID, entityType := "identity", entityID := created.id,
    actorID := input.createdBy, success := true }

/-- The four writes after the pair is generated (`identity_service.go:127-174`). -/
def bindGenerated (input : CreateIdentityInput Attrs) (created : Identity Attrs)
    (generated : GeneratedKey) : Svc Attrs (IdentityWithKeys Attrs) := do
  let createdKey ← repo (.keys (.create (signingKey input created generated)))
    (wrapRepoError · "create identity key")
  repo (.identities (.setPrimaryKey input.tenantID created.id createdKey.id))
    (wrapRepoError · "set primary key")
  repo (.identities (.updateStatus input.tenantID created.id .active))
    (wrapRepoError · "activate identity")
  writeAudit (creationEvent input created)
  .ret ⟨{ created with primaryKeyID := some createdKey.id, status := .active }, [createdKey]⟩

/-- What follows the insertion. -/
def bindKey (input : CreateIdentityInput Attrs) (created : Identity Attrs) :
    Svc Attrs (IdentityWithKeys Attrs) := do
  let generated ← .call (.generateKey .ed25519 created.id) (orFail (.wrap "generate ed25519 key"))
  bindGenerated input created generated

/-- Calls made for the attributes; the identity is inserted by call `encryptCalls + 1`. -/
def encryptCalls (P : Primitives Attrs) (input : CreateIdentityInput Attrs) (es : Nat → Env)
    (w : World) : Nat :=
  ((encryptAttributes P input.attributes).trace (exec P) (fun n => es (n + 1)) w).length

/-- The checks pass and the identity is inserted. -/
structure Inserted (P : Primitives Attrs) (input : CreateIdentityInput Attrs) (es : Nat → Env)
    (w : World) (attrs : Option Bytes) (created : Identity Attrs) : Prop where
  valid : validateCreateIdentityInput input = .ok ()
  tenant : ∃ tenant, (exec P (.repo (.tenants (.getByID input.tenantID))) (es 0) w).1 = .ok tenant ∧
    tenant.status = .active
  encrypted : (encryptAttributes P input.attributes).run (exec P) (fun n => es (n + 1)) w =
    (.ok (.ok attrs), w)
  stored : (exec P (.repo (.identities (.create (pendingIdentity input attrs))))
    (es (encryptCalls P input es w + 1)) w).1 = .ok created

/-- The identifier drawn for a signing key is new and no active one stands in its way. -/
structure KeySlot (I : UUID) (e : Env) (db : DB) : Prop where
  connected : Connected e.statements
  fresh : db.identityKeys.get? (e.statements 2).stamp.newID = none
  only : ∀ r ∈ db.identityKeys.rows, r.status = .active → r.identityID = I → r.purpose ≠ .signing

/-- What the rest of the call needs: randomness, connections and fresh identifiers. -/
structure KeyBound (I : UUID) (es : Nat → Env) (db : DB) : Prop where
  secret : (es 0).secret.isSome
  key : KeySlot I (es 1) db
  primary : Connected (es 2).statements
  status : Connected (es 3).statements
  audit : Connected (es 4).statements
  auditFresh : db.auditEvents.get? ((es 4).statements 2).stamp.newID = none

theorem run_encryptAttributes (attrs : Attrs) (es : Nat → Env) (w : World) :
    ∃ r, (encryptAttributes P attrs).run (exec P) es w = (.ok r, w) := by
  unfold encryptAttributes
  split
  · exact ⟨_, rfl⟩
  · split
    · exact ⟨_, rfl⟩
    · rw [Program.run_call]
      split
      · exact ⟨_, rfl⟩
      · exact ⟨_, rfl⟩

/-- Why nothing is inserted, with the error that is returned. -/
inductive NotInserted (P : Primitives Attrs) (input : CreateIdentityInput Attrs) (es : Nat → Env)
    (w : World) : Error → Prop where
  | invalid {x : Error} (h : validateCreateIdentityInput input = .error x) :
    NotInserted P input es w x
  | tenant {x : Error} (hvalid : validateCreateIdentityInput input = .ok ())
    (h : (exec P (.repo (.tenants (.getByID input.tenantID))) (es 0) w).1 = .error x) :
    NotInserted P input es w (wrapRepoError x "get tenant")
  | inactive {tenant : Tenant} (hvalid : validateCreateIdentityInput input = .ok ())
    (h : (exec P (.repo (.tenants (.getByID input.tenantID))) (es 0) w).1 = .ok tenant)
    (hstatus : tenant.status ≠ .active) : NotInserted P input es w (.sentinel .tenantInactive)
  | encryption {tenant : Tenant} {x : Error} (hvalid : validateCreateIdentityInput input = .ok ())
    (htenant : (exec P (.repo (.tenants (.getByID input.tenantID))) (es 0) w).1 = .ok tenant)
    (hactive : tenant.status = .active)
    (h : (encryptAttributes P input.attributes).run (exec P) (fun n => es (n + 1)) w =
      (.ok (.error x), w)) : NotInserted P input es w (.wrap "encrypt attributes" x)
  | insertion {tenant : Tenant} {attrs : Option Bytes} {x : Error}
    (hvalid : validateCreateIdentityInput input = .ok ())
    (htenant : (exec P (.repo (.tenants (.getByID input.tenantID))) (es 0) w).1 = .ok tenant)
    (hactive : tenant.status = .active)
    (hattrs : (encryptAttributes P input.attributes).run (exec P) (fun n => es (n + 1)) w =
      (.ok (.ok attrs), w))
    (h : (exec P (.repo (.identities (.create (pendingIdentity input attrs))))
      (es (encryptCalls P input es w + 1)) w).1 = .error x) :
    NotInserted P input es w (wrapRepoError x "create identity")

theorem NotInserted.not_inserted {x : Error} (h : NotInserted P input es w x) {attrs : Option Bytes}
    {created : Identity Attrs} : ¬ Inserted P input es w attrs created := by
  intro hins
  obtain ⟨_, htenant, hactive⟩ := hins.tenant
  cases h with
  | invalid h => cases h.symm.trans hins.valid
  | tenant _ h => cases h.symm.trans htenant
  | inactive _ h hstatus =>
    cases h.symm.trans htenant
    exact hstatus hactive
  | encryption _ _ _ h => cases h.symm.trans hins.encrypted
  | insertion _ _ _ hattrs h =>
    cases hattrs.symm.trans hins.encrypted
    cases h.symm.trans hins.stored

theorem createIdentity_cases (P : Primitives Attrs) (input : CreateIdentityInput Attrs)
    (es : Nat → Env) (w : World) :
    (∃ x, (createIdentity P input).run (exec P) es w = (.error x, w) ∧ NotInserted P input es w x) ∨
    ∃ attrs created, Inserted P input es w attrs created ∧
      (createIdentity P input).run (exec P) es w =
        (bindKey input created).run (exec P) (fun n => es (encryptCalls P input es w + n + 2))
          (exec P (.repo (.identities (.create (pendingIdentity input attrs))))
            (es (encryptCalls P input es w + 1)) w).2 := by
  unfold createIdentity
  cases hvalid : validateCreateIdentityInput input with
  | error x => exact .inl ⟨x, rfl, .invalid hvalid⟩
  | ok _ =>
    rw [run_orFail_bind]
    have hsame := exec_read (P := P) (c := .tenants (.getByID input.tenantID)) rfl (es 0) w
    cases htenant : (exec P (.repo (.tenants (.getByID input.tenantID))) (es 0) w).1 with
    | error x => exact .inl ⟨_, run_repo_bind_error _ htenant, .tenant hvalid htenant⟩
    | ok tenant =>
      rw [run_repo_bind_of _ (Prod.ext htenant hsame)]
      by_cases hactive : tenant.status ≠ .active
      · refine .inl ⟨.sentinel .tenantInactive, ?_, .inactive hvalid htenant hactive⟩
        rw [refuseIf, if_pos hactive]
        rfl
      · rw [run_refuseIf_bind _ hactive]
        have hactive := not_not.mp hactive
        obtain ⟨r, henc⟩ := run_encryptAttributes (P := P) input.attributes (fun n => es (n + 1)) w
        rw [Program.run_bind_of_ok henc]
        cases r with
        | error x => exact .inl ⟨_, rfl, .encryption hvalid htenant hactive henc⟩
        | ok attrs =>
          rw [run_orFail_bind]
          cases hins : (exec P (.repo (.identities (.create (pendingIdentity input attrs))))
            (es (encryptCalls P input es w + 1)) w).1 with
          | error x =>
            exact .inl ⟨_, run_repo_bind_error _ hins, .insertion hvalid htenant hactive henc hins⟩
          | ok created =>
            exact .inr ⟨attrs, created, ⟨hvalid, ⟨tenant, htenant, hactive⟩, henc, hins⟩,
              run_repo_bind_of _ (Prod.ext hins rfl)⟩

theorem exec_setPrimaryKey_cases {tenantID id keyID : String} {T I K : UUID} (e : Env)
    (hT : UUID.ofText? tenantID = some T) (hI : UUID.ofText? id = some I)
    (hK : UUID.ofText? keyID = some K) (hkey : (w.db.identityKeys.get? K).isSome) :
    (Connected e.statements ∧ ∃ ids, exec P (.repo (.identities (.setPrimaryKey tenantID id keyID)))
      e w = (.ok (), { w with db := { w.db with identities := ids } })) ∨
    (¬ Connected e.statements ∧
      ∃ x, (exec P (.repo (.identities (.setPrimaryKey tenantID id keyID))) e w).1 = .error x) := by
  have hcases := conn_cases (P := P) (c := .identities (.setPrimaryKey tenantID id keyID)) (e := e)
    rfl (fun _ => ⟨_, rfl⟩) (hasNul_of_ofText? hT) (sqlIdentitySetPrimaryKey_of hT hI hK hkey) rfl
  exact hcases.imp_left fun h => ⟨h.1, _, h.2⟩

theorem exec_updateStatus_cases {tenantID id : String} {T I : UUID} (status : IdentityStatus)
    (e : Env) (hT : UUID.ofText? tenantID = some T) (hI : UUID.ofText? id = some I) :
    (Connected e.statements ∧ ∃ ids, exec P (.repo (.identities (.updateStatus tenantID id status)))
      e w = (.ok (), { w with db := { w.db with identities := ids } })) ∨
    (¬ Connected e.statements ∧
      ∃ x, (exec P (.repo (.identities (.updateStatus tenantID id status))) e w).1 = .error x) := by
  have heval : sqlIdentityUpdateStatus (e.statements 2).stamp w.db tenantID id status = .ok _ :=
    bind_eq_ok.mpr ⟨T, uuidParam_ok.mpr hT, bind_eq_ok.mpr ⟨I, uuidParam_ok.mpr hI, rfl⟩⟩
  have hcases := conn_cases (P := P) (c := .identities (.updateStatus tenantID id status)) (e := e)
    rfl (fun _ => ⟨_, rfl⟩) (hasNul_of_ofText? hT) heval rfl
  exact hcases.imp_left fun h => ⟨h.1, _, h.2⟩

theorem exec_signingKey_cases (generated : GeneratedKey) {T I : UUID} (e : Env)
    (hT : UUID.ofText? input.tenantID = some T) (hI : UUID.ofText? created.id = some I)
    (hident : (w.db.identities.get? I).isSome) (htenant : (w.db.tenants.get? T).isSome) :
    (KeySlot I e w.db ∧ ∃ keys key,
      exec P (.repo (.keys (.create (signingKey input created generated)))) e w =
        (.ok key, { w with db := { w.db with identityKeys := keys } }) ∧
      ∃ K, UUID.ofText? key.id = some K ∧ (keys.get? K).isSome) ∨
    (¬ KeySlot I e w.db ∧
      ∃ x, (exec P (.repo (.keys (.create (signingKey input created generated)))) e w).1 =
        .error x) := by
  by_cases hslot : KeySlot I e w.db
  · obtain ⟨keys, hins⟩ : ∃ keys, w.db.identityKeys.insert? (insertedKey (e.statements 2).stamp I T
        (signingKey input created generated)) = some keys := Table.insert?_of_fresh hslot.fresh
    have heval : sqlKeyInsert (e.statements 2).stamp w.db (signingKey input created generated) =
        .ok (_, { w.db with identityKeys := keys }) :=
      sqlKeyInsert_eq_ok.mpr ⟨I, T, keys, hI, hT, ⟨rfl, rfl⟩, ⟨rfl, rfl⟩, fun _ => hslot.only, hins,
        hident, htenant, rfl, rfl⟩
    have hcases := conn_cases (P := P) (c := .keys (.create (signingKey input created generated)))
      (e := e) rfl (fun _ => ⟨_, rfl⟩) (hasNul_of_ofText? hT) heval rfl
    obtain ⟨-, hexec⟩ | ⟨hnot, -⟩ := hcases
    · refine .inl ⟨hslot, keys, _, hexec, _, UUID.ofText?_toText _, ?_⟩
      rw [Table.get?_insert? hins]
      simp [insertedKey]
    · exact absurd hslot.connected hnot
  · refine .inr ⟨hslot, ?_⟩
    cases h : (exec P (.repo (.keys (.create (signingKey input created generated)))) e w).1 with
    | error x => exact ⟨x, rfl⟩
    | ok key =>
      have hrun : perform (KeyRepo.create (signingKey input created generated)) e.statements w.db =
          (.ok key, _) := Prod.ext h rfl
      obtain ⟨hconn, -, rows, heval, -⟩ := (conn_eq_ok fun _ => ⟨_, rfl⟩).mp hrun
      obtain ⟨I', T', keys, hI', -, -, -, honly, hins, -⟩ := sqlKeyInsert_eq_ok.mp heval
      obtain rfl : I' = I := Option.some.inj (hI'.symm.trans hI)
      exact absurd ⟨hconn, (Table.insert?_eq_some.mp hins).1, honly rfl⟩ hslot

theorem exec_generateEd25519 {keyID : String} (hne : keyID ≠ "") (e : Env) :
    (∃ generated w', exec P (.generateKey .ed25519 keyID) e w = (.ok generated, w') ∧
      e.secret.isSome ∧ w'.db = w.db) ∨
    (e.secret = none ∧ ∃ x, exec P (.generateKey .ed25519 keyID) e w = (.error x, w)) := by
  simp only [exec, generateEd25519Key, generateAndStore, store, if_neg hne]
  cases hs : e.secret with
  | none => exact .inr ⟨rfl, _, rfl⟩
  | some bytes => exact .inl ⟨_, _, rfl, rfl, rfl⟩

def Succeeds (P : Primitives Attrs) (p : Svc Attrs α) (es : Nat → Env) (w : World) : Prop :=
  ∃ a, (p.run (exec P) es w).1 = .ok a

theorem succeeds_call_bind {c : RepoCall Attrs} {a : c.Result} {f : Error → Error}
    {g : c.Result → Svc Attrs α} (es : Nat → Env)
    (h : exec P (.repo c) (es 0) w = (.ok a, w')) :
    Succeeds P (repo c f >>= g) es w ↔ Succeeds P (g a) (fun n => es (n + 1)) w' := by
  unfold Succeeds
  rw [run_repo_bind_of es h]

theorem not_succeeds_call {c : RepoCall Attrs} {x : Error} {f : Error → Error}
    {g : c.Result → Svc Attrs α} (es : Nat → Env)
    (h : (exec P (.repo c) (es 0) w).1 = .error x) : ¬ Succeeds P (repo c f >>= g) es w := by
  rintro ⟨a, ha⟩
  rw [run_repo_bind_error es h] at ha
  cases ha

theorem bindKey_succeeds_iff (es : Nat → Env) {T I : UUID}
    (hT : UUID.ofText? input.tenantID = some T)
    (hI : UUID.ofText? created.id = some I) (hident : (w.db.identities.get? I).isSome)
    (htenant : (w.db.tenants.get? T).isSome)
    (hby : ∃ by_, uuidParam? input.createdBy = .ok by_) :
    Succeeds P (bindKey input created) es w ↔ KeyBound I es w.db := by
  -- each call gets through, or fails together with its field on the right
  rcases exec_generateEd25519 (P := P) (w := w) (UUID.ne_empty_of_ofText? hI) (es 0) with
    ⟨generated, w1, hgen, hsecret, hdb⟩ | ⟨hsecret, x, hgen⟩
  swap
  · refine iff_of_false ?_ fun h => ?_
    · rintro ⟨out, hout⟩
      rw [bindKey, Program.call_bind, Program.run_call, hgen] at hout
      cases hout
    · cases hsecret ▸ h.secret
  have hfirst : Succeeds P (bindKey input created) es w ↔ Succeeds P (bindGenerated input created
      generated) (fun n => es (n + 1)) w1 := by
    unfold Succeeds
    rw [bindKey, Program.call_bind, Program.run_call, hgen]
    rfl
  rw [hfirst, ← hdb]
  rw [← hdb] at hident htenant
  rcases exec_signingKey_cases (P := P) generated (es 1) hT hI hident htenant with
    ⟨hslot, keys, key, hexec, K, hK, hkey⟩ | ⟨hslot, x, herr⟩
  swap
  · exact iff_of_false (not_succeeds_call _ herr) fun h => hslot h.key
  rw [bindGenerated, succeeds_call_bind (fun n => es (n + 1)) hexec]
  rcases exec_setPrimaryKey_cases (P := P)
      (w := { w1 with db := { w1.db with identityKeys := keys } })
    (es 2) hT hI hK hkey with ⟨hprimary, ids, hexec⟩ | ⟨hprimary, x, herr⟩
  swap
  · exact iff_of_false (not_succeeds_call _ herr) fun h => hprimary h.primary
  rw [succeeds_call_bind (fun n => es (n + 2)) hexec]
  rcases exec_updateStatus_cases (P := P) (w := { w1 with db := { w1.db with
    identities := ids, identityKeys := keys } }) .active (es 3) hT hI with
    ⟨hstatus, ids', hexec⟩ | ⟨hstatus, x, herr⟩
  swap
  · exact iff_of_false (not_succeeds_call _ herr) fun h => hstatus h.status
  rw [succeeds_call_bind (fun n => es (n + 3)) hexec]
  rcases exec_audit_cases (P := P) (creationEvent input created) (es 4)
    { w1 with db := { w1.db with identities := ids', identityKeys := keys } } with
    ⟨haud, hok⟩ | ⟨haud, x, herr⟩
  swap
  · refine iff_of_false (not_succeeds_call (fun n => es (n + 4)) herr) fun h => haud ?_
    exact ⟨h.audit, Option.isSome_of_eq_some hI, uuidParam?_isOk.mp hby, ⟨T, hT, htenant⟩,
      h.auditFresh⟩
  refine iff_of_true ?_ ⟨hsecret, hslot, hprimary, hstatus, haud.connected, haud.fresh⟩
  exact (succeeds_call_bind (fun n => es (n + 4)) (Prod.ext hok rfl)).mpr ⟨_, rfl⟩

/-- A failed call has changed none of the three tables, and a second call ends as it would
have without the first. -/
def AllOrNothing (P : Primitives Attrs) (input : CreateIdentityInput Attrs) (es : Nat → Env)
    (w : World) : Prop :=
  ∀ x w', (createIdentity P input).run (exec P) es w = (.error x, w') →
    (w'.db.identities = w.db.identities ∧ w'.db.identityKeys = w.db.identityKeys ∧
      w'.db.auditEvents = w.db.auditEvents) ∧
    ∀ es', ((createIdentity P input).run (exec P) es' w').1 =
      ((createIdentity P input).run (exec P) es' w).1

/-- If the identity is inserted, everything after it goes through. -/
def BindsKey (P : Primitives Attrs) (input : CreateIdentityInput Attrs) (es : Nat → Env)
    (w : World) : Prop :=
  ∀ attrs created I, Inserted P input es w attrs created → UUID.ofText? created.id = some I →
    KeyBound I (fun n => es (encryptCalls P input es w + n + 2))
      (exec P (.repo (.identities (.create (pendingIdentity input attrs))))
        (es (encryptCalls P input es w + 1)) w).2.db

/-- No call removes an identity. -/
theorem identity_stays {I : UUID} (c : Op Attrs) (e : Env) (w : World)
    (h : (w.db.identities.get? I).isSome) : ((exec P c e w).2.db.identities.get? I).isSome := by
  obtain ⟨row, hrow⟩ := Option.isSome_iff_exists.mp h
  obtain ⟨row', hrow', -⟩ := (exec_identityStep P c e w).row hrow
  exact Option.isSome_of_eq_some hrow'

/-- What a successful insertion of the pending identity leaves. -/
theorem exec_create_ok {ident : Identity Attrs} {e : Env}
    (h : (exec P (.repo (.identities (.create ident))) e w).1 = .ok created) :
    ∃ T I, UUID.ofText? ident.tenantID = some T ∧ UUID.ofText? created.id = some I ∧
      w.db.identities.get? I = none ∧
      ((exec P (.repo (.identities (.create ident))) e w).2.db.identities.get? I).isSome ∧
      ((exec P (.repo (.identities (.create ident))) e w).2.db.tenants.get? T).isSome ∧
      ∃ by_, uuidParam? ident.createdBy = .ok by_ := by
  obtain ⟨hby, T, hT, htenant⟩ := perform_create_refs e.now e.statements h
  rcases perform_create e.now ident e.statements w.db with
    ⟨x, hrun⟩ | ⟨st, T', by_, ids, events, entry, hT', hins, -, -, hrun⟩
  · have hreply : (exec P (.repo (.identities (.create ident))) e w).1 = .error x :=
      congrArg Prod.fst hrun
    cases h.symm.trans hreply
  · have hreply : (exec P (.repo (.identities (.create ident))) e w).1 = .ok (scanIdentity _) :=
      congrArg Prod.fst hrun
    cases h.symm.trans hreply
    have hdb : (exec P (.repo (.identities (.create ident))) e w).2.db = _ :=
      congrArg Prod.snd hrun
    refine ⟨T, st.newID, hT, UUID.ofText?_toText _, (Table.insert?_eq_some.mp hins).1, ?_, ?_, hby⟩
    · rw [hdb]
      simp only [Table.get?_insert? hins]
      simp [insertedIdentity]
    · rw [hdb]
      exact htenant

theorem allOrNothing_iff_bindsKey (P : Primitives Attrs) (input : CreateIdentityInput Attrs)
    (es : Nat → Env) (w : World) : AllOrNothing P input es w ↔ BindsKey P input es w := by
  rcases createIdentity_cases P input es w with ⟨x, hrun, hnot⟩ | ⟨attrs, created, hins, hrun⟩
  · refine iff_of_true (fun y w' h => ?_) fun attrs created I h => absurd h hnot.not_inserted
    cases hrun.symm.trans h
    exact ⟨⟨rfl, rfl, rfl⟩, fun _ => rfl⟩
  · obtain ⟨T, I, hT, hI, hfresh, hident, htenant, hby⟩ := exec_create_ok hins.stored
    have hiff := bindKey_succeeds_iff (P := P)
        (fun n => es (encryptCalls P input es w + n + 2)) hT hI
      hident htenant hby
    constructor
    · intro hall attrs' created' I' hins' hI'
      cases hins.encrypted.symm.trans hins'.encrypted
      cases hins.stored.symm.trans hins'.stored
      cases hI.symm.trans hI'
      refine hiff.mp ?_
      cases hend : ((createIdentity P input).run (exec P) es w).1 with
      | ok out => exact ⟨out, hrun ▸ hend⟩
      | error x =>
        -- the inserted row is still there, so the tables cannot be the old ones
        have hfail : (createIdentity P input).run (exec P) es w = (.error x, _) := Prod.ext hend rfl
        have hleads := Program.run_leads (hrun.symm.trans hfail)
        have hthere := hleads.invariant (fun c e w => identity_stays c e w) hident
        rw [(hall x _ hfail).1.1, hfresh] at hthere
        cases hthere
    · intro hbinds x w' herr
      obtain ⟨out, hout⟩ := hiff.mpr (hbinds attrs created I hins hI)
      rw [← hrun, herr] at hout
      cases hout

end Creation

/-- The random source is exhausted when the key pair is to be drawn. -/
def noSecret (n : Nat) : Env :=
  if n = 2 then { calm (n + 3) with secret := none } else calm (n + 3)

def failsWith (s : Sentinel) : Except Error α → Bool
  | .error e => e.is s
  | .ok _ => false

/-- Creation fails after the insertion; the handle is taken from then on. -/
theorem failed_creation_takes_handle :
    let out := (createIdentity plainPrimitives graceInput).run (exec plainPrimitives) noSecret
      smallWorld
    let again := (createIdentity plainPrimitives graceInput).run (exec plainPrimitives)
      (fun n => calm (n + 10)) out.2
    out.1.toOption.isNone ∧ out.2.db.identities.rows.length = 2 ∧
      failsWith .handleTaken again.1 = true ∧
      ¬ AllOrNothing plainPrimitives graceInput noSecret smallWorld := by
  intro out again
  have hfails : out.1.toOption.isNone := by decide +kernel
  have hleft : out.2.db.identities.rows.length = 2 := by decide +kernel
  refine ⟨hfails, hleft, by decide +kernel, fun h => ?_⟩
  cases hr : out.1 with
  | ok a => rw [hr] at hfails; cases hfails
  | error x =>
    have hkept := (h x out.2 (Prod.ext hr rfl)).1.1
    rw [hkept] at hleft
    exact absurd hleft (by decide)

end Verion.Service
