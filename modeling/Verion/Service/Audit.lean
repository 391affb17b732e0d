import Verion.Service.Runs

/-!
# The audit log

Which events a call appends. The service methods write their event last, on a
connection of its own; `IdentityRepo.Create` writes one inside its transaction.
-/

namespace Verion.Service

open Calls Postgres

variable {Attrs α : Type} {P : Primitives Attrs}

/-- The `AuditEvent` constants (`model.go:334-366`). -/
def auditEventTypes : List String :=
  ["tenant.created", "tenant.suspended", "tenant.deactivated",
    "identity.created", "identity.activated", "identity.suspended", "identity.deactivated",
    "identity.archived",
    "key.created", "key.rotated", "key.revoked", "key.compromised",
    "credential.created", "credential.revoked", "credential.expired",
    "auth.success", "auth.failure",
    "recovery.initiated", "recovery.completed", "recovery.failed"]

/-! ### One insertion -/

/-- What the insertion of an event needs of its parameters, the state of the tables and
the surroundings. -/
structure Auditable (event : AuditEvent) (e : Env) (db : DB) : Prop where
  connected : Connected e.statements
  entity : (UUID.ofText? event.entityID).isSome
  actor : ∀ a, event.actorID = some a → (UUID.ofText? a).isSome
  tenant : ∃ T, UUID.ofText? event.tenantID = some T ∧ (db.tenants.get? T).isSome
  fresh : db.auditEvents.get? (e.statements 2).stamp.newID = none

theorem uuidParam?_isOk {x : Option String} :
    (∃ u, uuidParam? x = .ok u) ↔ ∀ a, x = some a → (UUID.ofText? a).isSome := by
  cases x with
  | none => simp [uuidParam?]
  | some a =>
    simp only [uuidParam?, Option.some.injEq, forall_eq', Option.isSome_iff_exists]
    constructor
    · rintro ⟨u, hu⟩
      cases hp : uuidParam a with
      | error code => rw [hp] at hu; cases hu
      | ok v => exact ⟨v, uuidParam_ok.mp hp⟩
    · rintro ⟨v, hv⟩
      exact ⟨some v, by rw [uuidParam_ok.mpr hv]; rfl⟩

/-- The row an event becomes. -/
structure EventRow (event : AuditEvent) (row : AuditRow) : Prop where
  tenant : UUID.ofText? event.tenantID = some row.tenantID
  type : row.eventType = event.eventType
  entityType : row.entityType = event.entityType
  entity : UUID.ofText? event.entityID = some row.entityID

/-- Where `rows` stand in the log afterwards. -/
def Appended (w w' : World) (rows : List AuditRow) : Prop :=
  w'.db.auditEvents.rows = w.db.auditEvents.rows ++ rows

theorem exec_audit_ok {event : AuditEvent} {e : Env} {w : World}
    (h : (exec P (.repo (.audit (.insert event))) e w).1 = .ok ()) :
    Auditable event e w.db ∧ ∃ row, EventRow event row ∧
      Appended w (exec P (.repo (.audit (.insert event))) e w).2 [row] := by
  have hrun : perform (AuditRepo.insert e.now event) e.statements w.db =
      (.ok (), (exec P (.repo (.audit (.insert event))) e w).2.db) := Prod.ext h rfl
  obtain ⟨hconn, -, rows, heval, -⟩ := (conn_eq_ok fun _ => ⟨_, rfl⟩).mp hrun
  obtain ⟨T, I, by_, events, hT, hI, hby, hins, href, -, hdb⟩ := sqlAuditInsert_eq_ok.mp heval
  obtain ⟨hfresh, hrows⟩ := Table.insert?_eq_some.mp hins
  refine ⟨⟨hconn, Option.isSome_of_eq_some hI, uuidParam?_isOk.mp ⟨by_, hby⟩, ⟨T, hT, href⟩,
    hfresh⟩, ?_⟩
  refine ⟨{ id := (e.statements 2).stamp.newID, tenantID := T, eventType := event.eventType,
            entityType := event.entityType, entityID := I, actorID := by_,
            afterState := event.afterState, success := event.success,
            occurredAt := .ofTime (event.occurredAt.getD e.now) }, ⟨hT, rfl, rfl, hI⟩, ?_⟩
  unfold Appended
  rw [hdb]
  exact hrows

theorem exec_audit_of {event : AuditEvent} {e : Env} {w : World} (h : Auditable event e w.db) :
    (exec P (.repo (.audit (.insert event))) e w).1 = .ok () := by
  obtain ⟨I, hI⟩ := Option.isSome_iff_exists.mp h.entity
  obtain ⟨by_, hby⟩ := uuidParam?_isOk.mpr h.actor
  obtain ⟨T, hT, href⟩ := h.tenant
  obtain ⟨events, hins⟩ := Table.insert?_of_fresh (t := w.db.auditEvents)
    (r := { id := (e.statements 2).stamp.newID, tenantID := T, eventType := event.eventType,
            entityType := event.entityType, entityID := I, actorID := by_,
            afterState := event.afterState, success := event.success,
            occurredAt := .ofTime (event.occurredAt.getD e.now) }) h.fresh
  have hrun : perform (AuditRepo.insert e.now event) e.statements w.db =
      (.ok (), { w.db with auditEvents := events }) :=
    (conn_eq_ok fun _ => ⟨_, rfl⟩).mpr ⟨h.connected, hasNul_of_ofText? hT, _,
      sqlAuditInsert_eq_ok.mpr ⟨T, I, by_, events, hT, hI, hby, hins, href, rfl, rfl⟩, rfl⟩
  exact congrArg Prod.fst hrun

/-! ### Methods that end with an event -/

section Methods

variable {Q : Except Error α → World → Prop} {w : World} {log : Table AuditRow.id}

/-- The calls that write no event. -/
def isQuiet : RepoCall Attrs → Bool
  | .audit (.insert _) | .identities (.create _) => false
  | _ => true

theorem exec_quiet {c : RepoCall Attrs} (hc : isQuiet c = true) (e : Env) (w : World) :
    (exec P (.repo c) e w).2.db.auditEvents = w.db.auditEvents := by
  have hcreate : ∀ ident, c ≠ .identities (.create ident) := by
    rintro ident rfl
    cases hc
  refine (agreeOff_perform c hcreate e.now e.statements w.db).auditEvents fun htarget => ?_
  cases c with
  | audit c =>
    cases c with
    | insert event => cases hc
    | _ => cases htarget
  | tenants c => cases c <;> cases htarget
  | identities c => cases c <;> cases htarget
  | keys c => cases c <;> cases htarget
  | credentials c => cases c <;> cases htarget

theorem ends_quiet_bind {c : RepoCall Attrs} {f : Error → Error} {g : c.Result → Svc Attrs α}
    (hc : isQuiet c = true) (hlog : w.db.auditEvents = log)
    (hok : ∀ a w', w'.db.auditEvents = log → (g a).Ends (exec P) Q w')
    (herr : ∀ x w', w'.db.auditEvents = log → Q (.error x) w') :
    (repo c f >>= g).Ends (exec P) Q w :=
  ends_repo_bind (fun e a _ => hok a _ ((exec_quiet hc e w).trans hlog)) fun _ => herr _ w hlog

/-- What a method that writes `event` last leaves in the log. -/
def Logs (log : Table AuditRow.id) (event : α → AuditEvent) : Except Error α → World → Prop
  | .ok a, w => ∃ row, EventRow (event a) row ∧ w.db.auditEvents.rows = log.rows ++ [row]
  | .error _, w => w.db.auditEvents = log

theorem ends_writeAudit {event : AuditEvent} (hlog : w.db.auditEvents = log) (a : α)
    (f : α → AuditEvent) (hf : f a = event) :
    (writeAudit event >>= fun _ => .ret a).Ends (exec P) (Logs log f) w := by
  refine ends_repo_bind (fun e _ hok => ?_) fun _ => hlog
  obtain ⟨-, row, hrow, happ⟩ := exec_audit_ok hok
  refine ⟨row, hf ▸ hrow, ?_⟩
  rw [happ, hlog]

theorem ends_writeAudit_last {event : AuditEvent} (hlog : w.db.auditEvents = log) :
    (writeAudit event).Ends (exec P) (Logs log fun _ => event) w := by
  refine ends_repo (c := .audit (.insert event)) (fun e _ hok => ?_) fun _ => hlog
  obtain ⟨-, row, hrow, happ⟩ := exec_audit_ok hok
  exact ⟨row, hrow, by rw [happ, hlog]⟩

theorem changeStatus_logs {status : IdentityStatus} {event getContext writeContext : String}
    {tenantID id actorID : String} (hlog : w.db.auditEvents = log) :
    (changeStatus status event getContext writeContext tenantID id actorID).Ends (exec P)
      (Logs log fun _ => { tenantID, eventType := event, entityType := "identity", entityID := id,
                           actorID := if actorID ≠ "" then some actorID else none,
                           success := true }) w := by
  refine ends_quiet_bind rfl hlog (fun ident w' h' => ?_) fun _ _ h' => h'
  refine ends_refuseIf_bind h' fun _ => ?_
  refine ends_quiet_bind rfl h' (fun _ w'' h'' => ?_) fun _ _ h'' => h''
  exact ends_writeAudit_last h''

theorem generateKey_logs {input : GenerateKeyInput} (hlog : w.db.auditEvents = log) :
    (generateKey input).Ends (exec P) (Logs log fun key =>
      { tenantID := input.tenantID, eventType := "key.created", entityType := "key",
        entityID := key.id, actorID := input.actorID, success := true }) w := by
  refine ends_quiet_bind rfl hlog (fun ident w' h' => ?_) fun _ _ h' => h'
  refine ends_refuseIf_bind h' fun _ => ?_
  refine ends_generateKeyPair_bind (fun algorithm generated w'' hdb => ?_) fun _ _ hdb =>
    (congrArg DB.auditEvents hdb).trans h'
  refine ends_quiet_bind rfl ((congrArg DB.auditEvents hdb).trans h')
    (fun createdKey _ h'' => ?_) fun _ _ h'' => h''
  exact ends_writeAudit h'' createdKey _ rfl

theorem rotateKey_logs {tenantID identityID oldKeyID actorID : String}
    (hlog : w.db.auditEvents = log) :
    (rotateKey tenantID identityID oldKeyID actorID).Ends (exec P) (Logs log fun key =>
      { tenantID, eventType := "key.rotated", entityType := "key", entityID := key.id,
        actorID := some actorID, success := true }) w := by
  refine ends_quiet_bind rfl hlog (fun oldKey w' h' => ?_) fun _ _ h' => h'
  intro e _
  refine ends_refuseIf_bind h' fun _ => ?_
  refine ends_generateKeyPair_bind (fun algorithm generated w'' hdb => ?_) fun _ _ hdb =>
    (congrArg DB.auditEvents hdb).trans h'
  refine ends_quiet_bind rfl ((congrArg DB.auditEvents hdb).trans h')
    (fun createdKey _ h' => ?_) fun _ _ h' => h'
  refine ends_quiet_bind rfl h' (fun _ _ h' => ?_) fun _ _ h' => h'
  refine ends_quiet_bind rfl h' (fun ident _ h' => ?_) fun _ _ h' => h'
  split
  · refine ends_quiet_bind rfl h' (fun _ _ h' => ?_) fun _ _ h' => h'
    exact ends_writeAudit h' createdKey _ rfl
  · exact ends_writeAudit h' createdKey _ rfl

theorem revokeKey_logs {tenantID keyID actorID : String} (hlog : w.db.auditEvents = log) :
    (revokeKey tenantID keyID actorID).Ends (exec P) (Logs log fun _ =>
      { tenantID, eventType := "key.revoked", entityType := "key", entityID := keyID,
        actorID := some actorID, success := true }) w := by
  refine ends_quiet_bind rfl hlog (fun _ _ h' => ?_) fun _ _ h' => h'
  refine ends_quiet_bind rfl h' (fun _ _ h' => ?_) fun _ _ h' => h'
  exact ends_writeAudit_last h'

theorem createTenant_logs {input : CreateTenantInput} (hlog : w.db.auditEvents = log) :
    (createTenant input).Ends (exec P) (Logs log fun tenant =>
      { tenantID := tenant.id, eventType := "tenant.created", entityType := "tenant",
        entityID := tenant.id, success := true }) w := by
  refine ends_orFail_bind (fun _ _ => ?_) fun _ _ => hlog
  refine ends_quiet_bind rfl hlog (fun created _ h' => ?_) fun _ _ h' => h'
  exact ends_writeAudit h' created _ rfl

theorem suspendTenant_logs {id : String} (hlog : w.db.auditEvents = log) :
    (suspendTenant id).Ends (exec P) (Logs log fun _ =>
      { tenantID := id, eventType := "tenant.suspended", entityType := "tenant", entityID := id,
        success := true }) w := by
  refine ends_quiet_bind rfl hlog (fun _ _ h' => ?_) fun _ _ h' => h'
  refine ends_refuseIf_bind h' fun _ => ?_
  refine ends_quiet_bind rfl h' (fun _ _ h' => ?_) fun _ _ h' => h'
  exact ends_writeAudit_last h'

end Methods

/-! ### Runs -/

/-- The entity a state-changing call is about, with its type in the log. -/
def Request.principal : Request Attrs → Response Attrs → Option (String × String)
  | .createTenant _, .tenant t => some ("tenant", t.id)
  | .suspendTenant id, _ | .activateTenant id, _ => some ("tenant", id)
  | .createIdentity _, .identityWithKeys i => some ("identity", i.identity.id)
  | .updateIdentity input, _ => some ("identity", input.id)
  | .deactivateIdentity _ id _, _ | .suspendIdentity _ id _, _ | .reactivateIdentity _ id _, _ =>
    some ("identity", id)
  | .generateKey _, .key k | .rotateKey .., .key k => some ("key", k.id)
  | .revokeKey _ keyID _, _ => some ("key", keyID)
  | _, _ => none

/-- A successful state-changing call appends one event, for its principal entity, and all
events a call appends have types from the list. -/
structure AuditExact (P : Primitives Attrs) (req : Request Attrs) (es : Nat → Env) (w : World) :
    Prop where
  once : ∀ resp type id, ((req.program P).run (exec P) es w).1 = .ok resp →
    req.principal resp = some (type, id) → ∃ row,
      Appended w ((req.program P).run (exec P) es w).2 [row] ∧ row.entityType = type ∧
      UUID.ofText? id = some row.entityID
  types : ∃ rows, Appended w ((req.program P).run (exec P) es w).2 rows ∧
    ∀ row ∈ rows, row.eventType ∈ auditEventTypes

/-- All requests but the three whose methods write two events or none. -/
def Request.AuditsOnce : Request Attrs → Prop
  | .createIdentity _ | .updateIdentity _ | .activateTenant _ => False
  | _ => True

section Exact

variable {req : Request Attrs} {es : Nat → Env} {w : World}

theorem auditExact_of_logs {f : α → Response Attrs} {q : Svc Attrs α} {event : α → AuditEvent}
    (hprog : req.program P = respond f q)
    (hq : q.Ends (exec P) (Logs w.db.auditEvents event) w)
    (hprincipal : ∀ a, req.principal (f a) = some ((event a).entityType, (event a).entityID))
    (htype : ∀ a, (event a).eventType ∈ auditEventTypes) : AuditExact P req es w := by
  have hend := (ends_respond (f := f) (Q := fun r w' => (∀ resp, r = .ok resp →
      ∃ a row, resp = f a ∧ EventRow (event a) row ∧ Appended w w' [row]) ∧
      ((∃ x, r = .error x) → Appended w w' [])) (hq.mono fun r w' hr => ?_)).run es
  · rw [← hprog] at hend
    obtain ⟨hok, herr⟩ := hend
    constructor
    · intro resp type id hresp hprin
      obtain ⟨a, row, rfl, hrow, happ⟩ := hok resp hresp
      cases (hprincipal a).symm.trans hprin
      exact ⟨row, happ, hrow.entityType, hrow.entity⟩
    · cases hr : ((req.program P).run (exec P) es w).1 with
      | error x => exact ⟨[], herr ⟨x, hr⟩, fun _ h => nomatch h⟩
      | ok resp =>
        obtain ⟨a, row, rfl, hrow, happ⟩ := hok resp hr
        refine ⟨[row], happ, fun r hmem => ?_⟩
        rw [List.mem_singleton.mp hmem, hrow.type]
        exact htype a
  · cases r with
    | ok a =>
      obtain ⟨row, hrow, happ⟩ := hr
      refine ⟨fun resp hresp => ⟨a, row, ?_, hrow, happ⟩, fun h => nomatch h⟩
      cases hresp
      rfl
    | error x =>
      refine ⟨fun _ h => (nomatch h), fun _ => ?_⟩
      unfold Appended
      rw [show w'.db.auditEvents = w.db.auditEvents from hr, List.append_nil]

def quietOp : Op Attrs → Prop
  | .repo c => isQuiet c = true
  | _ => True

theorem only_quiet {c : RepoCall Attrs} (f : Error → Error) (hc : isQuiet c = true := by rfl) :
    (repo c f).Only quietOp :=
  only_repo hc f

theorem auditExact_of_quiet (h : (req.program P).Only quietOp)
    (hprincipal : ∀ resp, req.principal resp = none) : AuditExact P req es w := by
  have hkeep : ∀ (c : Op Attrs) (e : Env) (w : World), quietOp c →
      (exec P c e w).2.db.auditEvents = w.db.auditEvents := by
    intro c e w hc
    cases c with
    | repo c => exact exec_quiet hc e w
    | _ => exact congrArg DB.auditEvents (exec_db P _ (fun _ h => by cases h) e w)
  have hsame := h.run_keeps (f := fun w : World => w.db.auditEvents) hkeep es w
  constructor
  · intro resp type id _ hprin
    rw [hprincipal] at hprin
    cases hprin
  · refine ⟨[], ?_, fun _ h => nomatch h⟩
    unfold Appended
    rw [hsame, List.append_nil]

end Exact

theorem auditExact {req : Request Attrs} (hreq : req.AuditsOnce) (es : Nat → Env) (w : World) :
    AuditExact P req es w := by
  cases req with
  | createIdentity input => exact hreq.elim
  | updateIdentity input => exact hreq.elim
  | activateTenant id => exact hreq.elim
  | deactivateIdentity tenantID id actorID =>
    exact auditExact_of_logs rfl (changeStatus_logs rfl)
      (fun _ => rfl) fun _ => by simp [auditEventTypes]
  | suspendIdentity tenantID id actorID =>
    exact auditExact_of_logs rfl (changeStatus_logs rfl)
      (fun _ => rfl) fun _ => by simp [auditEventTypes]
  | reactivateIdentity tenantID id actorID =>
    exact auditExact_of_logs rfl (changeStatus_logs rfl)
      (fun _ => rfl) fun _ => by simp [auditEventTypes]
  | generateKey input =>
    exact auditExact_of_logs rfl (generateKey_logs rfl)
      (fun _ => rfl) fun _ => by simp [auditEventTypes]
  | rotateKey tenantID identityID oldKeyID actorID =>
    exact auditExact_of_logs rfl (rotateKey_logs rfl)
      (fun _ => rfl) fun _ => by simp [auditEventTypes]
  | revokeKey tenantID keyID actorID =>
    exact auditExact_of_logs rfl (revokeKey_logs rfl)
      (fun _ => rfl) fun _ => by simp [auditEventTypes]
  | createTenant input =>
    exact auditExact_of_logs rfl (createTenant_logs rfl)
      (fun _ => rfl) fun _ => by simp [auditEventTypes]
  | suspendTenant id =>
    exact auditExact_of_logs rfl (suspendTenant_logs rfl)
      (fun _ => rfl) fun _ => by simp [auditEventTypes]
  | getIdentity tenantID id =>
    exact auditExact_of_quiet (only_respond ((only_quiet _).bind fun _ => only_orFail _ _))
      fun _ => rfl
  | getIdentityByHandle tenantID handle =>
    exact auditExact_of_quiet (only_respond ((only_quiet _).bind fun _ => only_orFail _ _))
      fun _ => rfl
  | listIdentities tenantID filter =>
    exact auditExact_of_quiet (only_respond ((only_quiet _).bind fun _ => only_orFail _ _))
      fun _ => rfl
  | getKey tenantID keyID =>
    exact auditExact_of_quiet (only_respond (only_quiet _)) fun _ => rfl
  | listKeys tenantID identityID =>
    exact auditExact_of_quiet (only_respond (only_quiet _)) fun _ => rfl
  | markCompromised tenantID keyID =>
    exact auditExact_of_quiet (only_respond (only_quiet _)) fun _ => rfl
  | deleteKey keyRef =>
    exact auditExact_of_quiet (only_respond ⟨trivial, only_orFail _⟩) fun _ => rfl
  | getTenant id => exact auditExact_of_quiet (only_respond (only_quiet _)) fun _ => rfl
  | getTenantBySlug slug => exact auditExact_of_quiet (only_respond (only_quiet _)) fun _ => rfl

/-- In every run without those three, each call is audited exactly. -/
theorem run_auditExact (P : Primitives Attrs) (steps : List (Request Attrs × (Nat → Env)))
    (w : World) (hsteps : ∀ step ∈ steps, step.1.AuditsOnce) :
    ∀ call ∈ Program.trail (exec P) (Request.program P) steps w,
      AuditExact P call.1 call.2.1 call.2.2 := by
  rintro ⟨req, es, w'⟩ hcall
  exact auditExact (hsteps _ (Program.mem_of_mem_trail hcall)) es w'

/-! ### Fixed runs -/

def suspendAda : Request Bytes :=
  .suspendIdentity (UUID.ofNat 1).toText (UUID.ofNat 2).toText ""

def graceInput : CreateIdentityInput Bytes :=
  { tenantID := (UUID.ofNat 1).toText, type := .human, displayName := "Grace",
    handle := "grace", createdBy := none, attributes := [] }

def createGrace : Request Bytes := .createIdentity graceInput

/-- The types of the events after a request in `smallWorld`, if it succeeded. -/
def eventsAfter (req : Request Bytes) : Option (List String) :=
  let out := (req.program plainPrimitives).run (exec plainPrimitives) (fun n => calm (n + 3))
    smallWorld
  out.1.toOption.map fun _ => out.2.db.auditEvents.rows.map AuditRow.eventType

theorem eventsAfter_eq_some {req : Request Bytes} {types : List String}
    (h : eventsAfter req = some types) : ∃ resp,
      ((req.program plainPrimitives).run (exec plainPrimitives) (fun n => calm (n + 3))
        smallWorld).1 = .ok resp ∧
      ((req.program plainPrimitives).run (exec plainPrimitives) (fun n => calm (n + 3))
        smallWorld).2.db.auditEvents.rows.map AuditRow.eventType = types := by
  obtain ⟨resp, hresp, htypes⟩ := Option.map_eq_some_iff.mp h
  refine ⟨resp, ?_, htypes⟩
  cases hr : ((req.program plainPrimitives).run (exec plainPrimitives) (fun n => calm (n + 3))
    smallWorld).1 with
  | ok a => rw [hr] at hresp; cases hresp; rfl
  | error x => rw [hr] at hresp; cases hresp

/-- In `smallWorld` a tenant is created, ada gets a key, is suspended and reactivated, the key is
revoked, the tenant is read, ada is deactivated, and a last suspension is refused. -/
def severalKinds : List (Request Bytes × (Nat → Env)) :=
  let acme := (UUID.ofNat 1).toText
  let ada := (UUID.ofNat 2).toText
  [(.createTenant { name := "beta", slug := "beta", tier := .standard, dataRegion := "" },
    fun n => calm (10 + n)),
   (.generateKey
      { tenantID := acme, identityID := ada, keyType := .ed25519, purpose := .authentication,
        actorID := none },
    fun n => calm (20 + n)),
   (suspendAda, fun n => calm (30 + n)),
   (.reactivateIdentity acme ada "", fun n => calm (40 + n)),
   (.revokeKey acme (UUID.ofNat 22).toText ada, fun n => calm (50 + n)),
   (.getTenantBySlug "beta", fun n => calm (60 + n)),
   (.deactivateIdentity acme ada "", fun n => calm (70 + n)),
   (suspendAda, fun n => calm (80 + n))]

theorem severalKinds_audited :
    (Program.serve (exec plainPrimitives) (Request.program plainPrimitives) severalKinds
        smallWorld).db.auditEvents.rows.map AuditRow.eventType =
      ["tenant.created", "key.created", "identity.suspended", "identity.activated", "key.revoked",
        "identity.deactivated"] ∧
    ∀ call ∈ Program.trail (exec plainPrimitives) (Request.program plainPrimitives)
      severalKinds smallWorld, AuditExact plainPrimitives call.1 call.2.1 call.2.2 := by
  refine ⟨by decide +kernel, run_auditExact _ _ _ fun step hstep => ?_⟩
  simp only [severalKinds, List.mem_cons, List.not_mem_nil, or_false] at hstep
  rcases hstep with rfl | rfl | rfl | rfl | rfl | rfl | rfl | rfl <;> trivial

/-- `IdentityRepo.Create` writes an event and `CreateIdentity` one more, without a type;
`ActivateTenant` and `UpdateIdentity` write none. -/
theorem createIdentity_audited_twice :
    (eventsAfter createGrace = some ["identity.created", ""] ∧
      eventsAfter (.activateTenant (UUID.ofNat 1).toText) = some [] ∧
      eventsAfter (.updateIdentity sevenForAda) = some []) ∧
    ¬ AuditExact plainPrimitives createGrace (fun n => calm (n + 3)) smallWorld := by
  have hcreate : eventsAfter createGrace = some ["identity.created", ""] := by decide +kernel
  refine ⟨⟨hcreate, by decide +kernel, by decide +kernel⟩, fun hexact => ?_⟩
  obtain ⟨resp, -, htypes⟩ := eventsAfter_eq_some hcreate
  obtain ⟨rows, happ, hknown⟩ := hexact.types
  rw [happ, List.map_append] at htypes
  have hrows : rows.map AuditRow.eventType = ["identity.created", ""] := htypes
  have hmem : "" ∈ rows.map AuditRow.eventType := by simp [hrows]
  obtain ⟨row, hrow, htype⟩ := List.mem_map.mp hmem
  have hnone := hknown row hrow
  rw [htype] at hnone
  simp [auditEventTypes] at hnone

end Verion.Service
