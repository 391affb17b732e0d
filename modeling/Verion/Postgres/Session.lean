import Verion.Library.Program
import Verion.Postgres.Statements

/-!
# Connections and transactions (internal/identity/postgres/db.go)

A repository method is a program over the statements of one pooled connection.
The session keeps what PostgreSQL keeps for the connection: the value of
`app.current_tenant_id` between transactions and, inside a transaction, the
value set locally and the tables to return to on rollback.

`set_config(name, value, true)` lasts until the end of the current transaction,
and a statement outside an explicit transaction is a transaction of its own.
When the local value ends, the variable goes back to what it was before; one
that was never set is left as the empty text.
-/

namespace Verion.Postgres

open Calls

/-- The data statements, with the parameters they are sent with. -/
inductive Query where
  | tenantInsert (name slug : String) (tier : TenantTier) (status : TenantStatus)
      (settings : Bytes) (dataRegion : String)
  | tenantGetByID (id : String)
  | tenantGetBySlug (slug : String)
  | tenantUpdate (id name : String) (tier : TenantTier) (settings : Option Bytes)
      (dataRegion : String)
  | tenantUpdateStatus (id : String) (status : TenantStatus)
  | tenantList (filter : TenantFilter)
  | identityInsert (tenantID : String) (type : IdentityType) (displayName handle : String)
      (status : IdentityStatus) (attributes attributesIV : Option Bytes)
      (createdBy : Option String)
  | identityGetByID (tenantID id : String)
  | identityGetByHandle (tenantID handle : String)
  | identityUpdate (tenantID id displayName : String) (attributes attributesIV : Option Bytes)
      (version : Int)
  | identityUpdateStatus (tenantID id : String) (status : IdentityStatus)
  | identitySetPrimaryKey (tenantID id keyID : String)
  | identityList (tenantID : String) (filter : IdentityFilter)
  | identityCount (tenantID : String)
  | auditInsert (tenantID eventType entityType entityID : String) (actorID : Option String)
      (afterState : Option AfterState) (success : Bool) (occurredAt : Time)
  | auditGetByID (tenantID id : String)
  | auditListByEntity (tenantID entityType entityID : String) (limit offset : Int)
  | auditListByActor (tenantID actorID : String) (limit offset : Int)
  | auditListByTenant (tenantID : String) (filter : AuditFilter)
  | keyInsert (key : IdentityKey)
  | keyGetByID (tenantID id : String)
  | keyGetByFingerprint (tenantID fingerprint : String)
  | keyGetActiveByPurpose (tenantID identityID : String) (purpose : KeyPurpose)
  | keyListByIdentity (tenantID identityID : String) (status : Option KeyStatus)
  | keyRotate (tenantID oldKeyID newKeyID : String)
  | keyRevoke (tenantID keyID : String)
  | keyMarkCompromised (tenantID keyID : String)
  | credentialInsert (cred : Credential)
  | credentialGetByID (tenantID id : String)
  | credentialGetByCredentialID (tenantID : String) (credentialID : Option Bytes)
  | credentialListByIdentity (tenantID identityID : String) (status : Option CredentialStatus)
  | credentialUpdateSignCount (tenantID id : String) (count : Int)
  | credentialUpdateLastUsed (tenantID id : String) (at_ : Time)
  | credentialRevoke (tenantID id : String)

namespace Query

@[reducible] def Row : Query → Type
  | tenantInsert .. | tenantGetByID .. | tenantGetBySlug .. | tenantUpdate .. | tenantList .. =>
    TenantRow
  | identityInsert .. | identityGetByID .. | identityGetByHandle .. | identityUpdate ..
  | identityList .. => IdentityRow
  | identityCount .. => Nat
  | auditInsert .. => UUID
  | auditGetByID .. | auditListByEntity .. | auditListByActor .. | auditListByTenant .. => AuditRow
  | keyInsert .. | keyGetByID .. | keyGetByFingerprint .. | keyGetActiveByPurpose ..
  | keyListByIdentity .. => KeyRow
  | credentialInsert .. => UUID × Time
  | credentialGetByID .. | credentialGetByCredentialID .. | credentialListByIdentity .. =>
    CredentialRow
  | tenantUpdateStatus .. | identityUpdateStatus .. | identitySetPrimaryKey .. | keyRotate ..
  | keyRevoke .. | keyMarkCompromised .. | credentialUpdateSignCount ..
  | credentialUpdateLastUsed .. | credentialRevoke .. => Unit

def eval (st : Stamp) (db : DB) : (q : Query) → Except SqlState (Rows q.Row)
  | tenantInsert name slug tier status settings region =>
    sqlTenantInsert st db name slug tier status settings region
  | tenantGetByID id => sqlTenantGetByID db id
  | tenantGetBySlug slug => sqlTenantGetBySlug db slug
  | tenantUpdate id name tier settings region => sqlTenantUpdate st db id name tier settings region
  | tenantUpdateStatus id status => sqlTenantUpdateStatus st db id status
  | tenantList filter => sqlTenantList db filter
  | identityInsert tenantID type displayName handle status attributes attributesIV createdBy =>
    sqlIdentityInsert st db tenantID type displayName handle status attributes
      attributesIV createdBy
  | identityGetByID tenantID id => sqlIdentityGetByID db tenantID id
  | identityGetByHandle tenantID handle => sqlIdentityGetByHandle db tenantID handle
  | identityUpdate tenantID id displayName attributes attributesIV version =>
    sqlIdentityUpdate st db tenantID id displayName attributes attributesIV version
  | identityUpdateStatus tenantID id status => sqlIdentityUpdateStatus st db tenantID id status
  | identitySetPrimaryKey tenantID id keyID => sqlIdentitySetPrimaryKey st db tenantID id keyID
  | identityList tenantID filter => sqlIdentityList db tenantID filter
  | identityCount tenantID => sqlIdentityCount db tenantID
  | auditInsert tenantID eventType entityType entityID actorID afterState success occurredAt =>
    sqlAuditInsert st db tenantID eventType entityType entityID actorID afterState success
      occurredAt
  | auditGetByID tenantID id => sqlAuditGetByID db tenantID id
  | auditListByEntity tenantID entityType entityID limit offset =>
    sqlAuditListByEntity db tenantID entityType entityID limit offset
  | auditListByActor tenantID actorID limit offset =>
    sqlAuditListByActor db tenantID actorID limit offset
  | auditListByTenant tenantID filter => sqlAuditListByTenant db tenantID filter
  | keyInsert key => sqlKeyInsert st db key
  | keyGetByID tenantID id => sqlKeyGetByID db tenantID id
  | keyGetByFingerprint tenantID fingerprint => sqlKeyGetByFingerprint db tenantID fingerprint
  | keyGetActiveByPurpose tenantID identityID purpose =>
    sqlKeyGetActiveByPurpose db tenantID identityID purpose
  | keyListByIdentity tenantID identityID status =>
    sqlKeyListByIdentity db tenantID identityID status
  | keyRotate tenantID oldKeyID newKeyID => sqlKeyRotate st db tenantID oldKeyID newKeyID
  | keyRevoke tenantID keyID => sqlKeyRevoke db tenantID keyID
  | keyMarkCompromised tenantID keyID => sqlKeyMarkCompromised db tenantID keyID
  | credentialInsert cred => sqlCredentialInsert st db cred
  | credentialGetByID tenantID id => sqlCredentialGetByID db tenantID id
  | credentialGetByCredentialID tenantID credentialID =>
    sqlCredentialGetByCredentialID db tenantID credentialID
  | credentialListByIdentity tenantID identityID status =>
    sqlCredentialListByIdentity db tenantID identityID status
  | credentialUpdateSignCount tenantID id count =>
    sqlCredentialUpdateSignCount db tenantID id count
  | credentialUpdateLastUsed tenantID id at_ => sqlCredentialUpdateLastUsed db tenantID id at_
  | credentialRevoke tenantID id => sqlCredentialRevoke db tenantID id

end Query

/-- What is sent over one connection. -/
inductive Statement where
  | acquire
  | begin
  | setConfig (tenantID : String)   -- SELECT set_config('app.current_tenant_id', $1, true)
  | query (q : Query)
  | commit
  | rollback

@[reducible] def Statement.Reply : Statement → Type
  | .query q => Except PgError (List q.Row)
  | .rollback => Unit
  | _ => Except PgError Unit

/-! ### The server's side of a connection -/

structure Transaction where
  before : DB
  localSetting : Option String

structure Conn where
  setting : Option String
  tx : Option Transaction

namespace Conn

/-- `current_setting('app.current_tenant_id', true)`. -/
def currentSetting (c : Conn) : Option String :=
  match c.tx with
  | some ⟨_, some v⟩ => some v
  | _ => c.setting

/-- The value that stays when a locally set one ends. -/
def restored (c : Conn) : Option String :=
  some (c.setting.getD "")

def setLocal (c : Conn) (v : String) : Conn :=
  match c.tx with
  | some t => { c with tx := some { t with localSetting := some v } }
  | none => { c with setting := c.restored }

def endTx (c : Conn) : Conn :=
  match c.tx with
  | some ⟨_, some _⟩ => { setting := c.restored, tx := none }
  | _ => { c with tx := none }

end Conn

structure Session where
  conn : Conn
  db : DB

def Session.rolledBack (s : Session) : Session where
  conn := s.conn.endTx
  db := match s.conn.tx with
    | some t => t.before
    | none => s.db

/-- The choices of the surroundings for one statement: whether it gets through,
and what the server stamps it with. -/
structure Choice where
  available : Bool
  stamp : Stamp

namespace Statement

def exec : (c : Statement) → Choice → Session → c.Reply × Session
  | .acquire, e, s => (if e.available then .ok () else .error .unavailable, s)
  | .begin, e, s =>
    if e.available then (.ok (), { s with conn.tx := some ⟨s.db, none⟩ })
    else (.error .unavailable, s)
  | .setConfig tenantID, e, s =>
    if e.available then
      if hasNul tenantID then (.error (.server .characterNotInRepertoire), s)
      else (.ok (), { s with conn := s.conn.setLocal tenantID })
    else (.error .unavailable, s)
  | .query q, e, s =>
    if e.available then
      match q.eval e.stamp s.db with
      | .ok (rows, db) => (.ok rows, { s with db })
      | .error code => (.error (.server code), s)
    else (.error .unavailable, s)
  | .commit, e, s =>
    if e.available then (.ok (), { s with conn := s.conn.endTx })
    else (.error .unavailable, s.rolledBack)
  | .rollback, _, s => ((), s.rolledBack)

def isQuery : Statement → Prop
  | .query _ => True
  | _ => False

end Statement

/-! ### Routes to the database (db.go:57-94) -/

abbrev Script (α : Type) := Program Statement.Reply Error α

/-- Fail with the error a reply carries, made into a Go error by `f`. -/
def check {α : Type} (f : PgError → Error) : Except PgError α → Script α
  | .ok a => .ret a
  | .error e => .fail (f e)

def acquire : Script (Except PgError Unit) := .call .acquire .ret

def beginTx : Script (Except PgError Unit) := .call .begin .ret

def setConfig (tenantID : String) : Script (Except PgError Unit) :=
  .call (.setConfig tenantID) .ret

def commit : Script (Except PgError Unit) := .call .commit .ret

def rollback : Script Unit := .call .rollback .ret

/-- Acquire a connection, set the tenant, run `fn`; no transaction is open. -/
def withTenantConn {α : Type} (tenantID : String) (fn : Script α) : Script α := do
  check (fun e => .wrap "postgres: acquire connection" (.pg e)) (← acquire)
  check (fun e => .wrap "postgres: set tenant context" (.pg e)) (← setConfig tenantID)
  fn

/-- Begin a transaction, set the tenant, run `fn`; commit, or roll back on error. -/
def withTenantTx {α : Type} (tenantID : String) (fn : Script α) : Script α := do
  check (fun e => .wrap "postgres: acquire connection" (.pg e)) (← acquire)
  check (fun e => .wrap "postgres: begin transaction" (.pg e)) (← beginTx)
  match ← setConfig tenantID with
  | .error e =>
    rollback
    .fail (.wrap "postgres: set tenant context in tx" (.pg e))
  | .ok _ =>
    match ← fn.attempt with
    | .error e =>
      rollback
      .fail e
    | .ok a =>
      check (fun e => .wrap "postgres: commit" (.pg e)) (← commit)
      .ret a

/-- Send one data statement and turn its answer into the method's result. -/
def ask {α : Type} (q : Query) (finish : Except PgError (List q.Row) → Except Error α) :
    Script α :=
  .call (.query q) fun r => .ofExcept (finish r)

/-- `pool.Query`, `pool.QueryRow` and `pool.Exec` take any connection for one statement. -/
def viaPool {α : Type} (q : Query) (finish : Except PgError (List q.Row) → Except Error α) :
    Script α := do
  match ← acquire with
  | .error e => .ofExcept (finish (.error e))
  | .ok _ => ask q finish

/-! ### What the routes come to -/

section Runs

variable {α : Type} (q : Query) (finish : Except PgError (List q.Row) → Except Error α)
  (es : Nat → Choice) (c : Conn) (db : DB)

/-- The reply of a statement and the tables it leaves. -/
def answer (e : Choice) : Except PgError (List q.Row) × DB :=
  if e.available then
    match q.eval e.stamp db with
    | .ok (rows, db') => (.ok rows, db')
    | .error code => (.error (.server code), db)
  else (.error .unavailable, db)

theorem exec_query (e : Choice) (s : Session) :
    Statement.exec (.query q) e s = ((answer q s.db e).1,
      { s with db := (answer q s.db e).2 }) := by
  simp only [Statement.exec, answer]
  cases e.available with
  | false => rfl
  | true => cases q.eval e.stamp s.db <;> rfl

theorem conn_of_isQuery (c : Statement) (e : Choice) (s : Session) (h : c.isQuery) :
    (c.exec e s).2.conn = s.conn := by
  cases c with
  | query q => rw [exec_query]
  | acquire => exact absurd h id
  | begin => exact absurd h id
  | setConfig t => exact absurd h id
  | commit => exact absurd h id
  | rollback => exact absurd h id

theorem only_query_ask : (ask q finish).Only Statement.isQuery :=
  ⟨trivial, fun _ => .ofExcept _⟩

theorem run_ask (s : Session) :
    (ask q finish).run Statement.exec es s =
      (finish (answer q s.db (es 0)).1, { s with db := (answer q s.db (es 0)).2 }) := by
  unfold ask
  rw [Program.run_call, exec_query, Program.run_ofExcept]

/-- With the connection and the tenant setting in place the method is its statement. -/
theorem run_withTenantConn_ask (tenantID : String) (h0 : (es 0).available = true)
    (h1 : (es 1).available = true) (hn : hasNul tenantID = false) :
    (withTenantConn tenantID (ask q finish)).run Statement.exec es ⟨c, db⟩ =
      (finish (answer q db (es 2)).1, ⟨c.setLocal tenantID, (answer q db (es 2)).2⟩) := by
  simp only [withTenantConn, acquire, setConfig, Program.call_bind, Program.ret_bind,
    Program.run_call, Statement.exec, h0, h1, hn, if_true, Bool.false_eq_true, if_false,
    check, run_ask]

theorem run_viaPool (h0 : (es 0).available = true) :
    (viaPool q finish).run Statement.exec es ⟨c, db⟩ =
      (finish (answer q db (es 1)).1, ⟨c, (answer q db (es 1)).2⟩) := by
  simp only [viaPool, acquire, Program.call_bind, Program.ret_bind, Program.run_call,
    Statement.exec, h0, if_true, run_ask]

/-- Whatever happens on the way, a method on the connection route either fails
and leaves the tables, or is its statement. -/
theorem withTenantConn_ask_cases (tenantID : String) :
    (∃ e, ((withTenantConn tenantID (ask q finish)).run Statement.exec es ⟨c, db⟩).1 = .error e ∧
      ((withTenantConn tenantID (ask q finish)).run Statement.exec es ⟨c, db⟩).2.db = db) ∨
    (((withTenantConn tenantID (ask q finish)).run Statement.exec es ⟨c, db⟩).1 =
        finish (answer q db (es 2)).1 ∧
      ((withTenantConn tenantID (ask q finish)).run Statement.exec es ⟨c, db⟩).2.db =
        (answer q db (es 2)).2) := by
  cases h0 : (es 0).available with
  | false =>
    left
    simp [withTenantConn, acquire, Program.run_call, Statement.exec, h0, check]
  | true =>
    cases h1 : (es 1).available with
    | false =>
      left
      simp [withTenantConn, acquire, setConfig, Program.run_call, Statement.exec, h0, h1, check]
    | true =>
      cases hn : hasNul tenantID with
      | true =>
        left
        simp [withTenantConn, acquire, setConfig, Program.run_call, Statement.exec, h0, h1, hn,
          check]
      | false =>
        right
        rw [run_withTenantConn_ask q finish es c db tenantID h0 h1 hn]
        exact ⟨rfl, rfl⟩

theorem viaPool_cases :
    (((viaPool q finish).run Statement.exec es ⟨c, db⟩).1 = finish (.error .unavailable) ∧
      ((viaPool q finish).run Statement.exec es ⟨c, db⟩).2.db = db) ∨
    (((viaPool q finish).run Statement.exec es ⟨c, db⟩).1 = finish (answer q db (es 1)).1 ∧
      ((viaPool q finish).run Statement.exec es ⟨c, db⟩).2.db = (answer q db (es 1)).2) := by
  cases h0 : (es 0).available with
  | false =>
    left
    simp only [viaPool, acquire, Program.call_bind, Program.ret_bind, Program.run_call,
      Statement.exec, h0, Bool.false_eq_true, if_false, Program.run_ofExcept, and_self]
  | true =>
    right
    rw [run_viaPool q finish es c db h0]
    exact ⟨rfl, rfl⟩

/-- Without its connection or its statement, a method through the pool leaves the tables. -/
theorem viaPool_lost (h : ¬ ((es 0).available = true ∧ (es 1).available = true)) :
    ((viaPool q finish).run Statement.exec es ⟨c, db⟩).2.db = db := by
  cases h0 : (es 0).available with
  | false =>
    simp only [viaPool, acquire, Program.call_bind, Program.ret_bind, Program.run_call,
      Statement.exec, h0, Bool.false_eq_true, if_false, Program.run_ofExcept]
  | true =>
    have h1 : (es 1).available = false := by simpa [h0] using h
    simp only [run_viaPool q finish es c db h0, answer, h1, Bool.false_eq_true, if_false]

theorem run_ask_bind {β : Type} (g : α → Script β) (s : Session) :
    (ask q finish >>= g).run Statement.exec es s =
      (Program.ofExcept (finish (answer q s.db (es 0)).1) >>= g).run Statement.exec
        (fun n => es (n + 1)) { s with db := (answer q s.db (es 0)).2 } := by
  have hcall : (ask q finish >>= g) =
      .call (.query q) fun r => Program.ofExcept (finish r) >>= g := rfl
  rw [hcall, Program.run_call, exec_query]

/-- A statement followed by more ends well only if its own answer is good. -/
theorem run_ask_bind_ok {β : Type} {g : α → Script β} {s : Session} {b : β}
    (h : ((ask q finish >>= g).run Statement.exec es s).1 = .ok b) :
    ∃ a, finish (answer q s.db (es 0)).1 = .ok a ∧
      (ask q finish >>= g).run Statement.exec es s =
        (g a).run Statement.exec (fun n => es (n + 1))
        { s with db := (answer q s.db (es 0)).2 } := by
  rw [run_ask_bind] at h ⊢
  cases hf : finish (answer q s.db (es 0)).1 with
  | error e => rw [hf] at h; cases h
  | ok a => exact ⟨a, rfl, rfl⟩

/-- The connection as the data statements of the transaction route find it. -/
def Conn.inTenantTx (c : Conn) (db : DB) (T : String) : Conn :=
  ⟨c.setting, some ⟨db, some T⟩⟩

/-- Once the transaction is open, its data statements decide, and the commit. -/
theorem run_withTenantTx (T : String) {fn : Script α} (hfn : fn.Only Statement.isQuery)
    (h0 : (es 0).available = true) (h1 : (es 1).available = true) (h2 : (es 2).available = true)
    (hn : hasNul T = false) :
    ∃ n : Nat,
      let r := fn.run Statement.exec (fun n => es (n + 3)) ⟨c.inTenantTx db T, db⟩
      let out := (withTenantTx T fn).run Statement.exec es ⟨c, db⟩
      (∀ err, r.1 = .error err → out.1 = .error err ∧ out.2.db = db) ∧
      (∀ a, r.1 = .ok a → (es n).available = true → out.1 = .ok a ∧ out.2.db = r.2.db) ∧
      (∀ a, r.1 = .ok a → (es n).available = false → (∃ err, out.1 = .error err) ∧
        out.2.db = db) := by
  have hconn : (fn.run Statement.exec (fun n => es (n + 3)) ⟨c.inTenantTx db T, db⟩).2.conn =
      c.inTenantTx db T :=
    Program.Only.run_keeps conn_of_isQuery hfn _ _
  have hout : (withTenantTx T fn).run Statement.exec es ⟨c, db⟩ =
      (fn.attempt >>= fun
        | .error e => rollback >>= fun _ => .fail e
        | .ok a => commit >>= fun r =>
          check (fun e => .wrap "postgres: commit" (.pg e)) r >>= fun _ => .ret a).run
        Statement.exec (fun n => es (n + 3)) ⟨c.inTenantTx db T, db⟩ := by
    simp only [withTenantTx, acquire, beginTx, setConfig, Program.call_bind, Program.ret_bind,
      Program.run_call, Statement.exec, h0, h1, h2, hn, if_true, Bool.false_eq_true,
        if_false, check]
    rfl
  rw [Program.run_attempt_bind] at hout
  generalize fn.run Statement.exec (fun n => es (n + 3)) ⟨c.inTenantTx db T, db⟩ = r at hconn hout ⊢
  obtain ⟨res, s⟩ := r
  obtain ⟨cn, db'⟩ := s
  cases hconn
  refine ⟨0 + (fn.trace Statement.exec (fun n => es (n + 3)) ⟨c.inTenantTx db T, db⟩).length + 3,
    ?_⟩
  refine ⟨?_, ?_, ?_⟩
  · intro err herr
    cases herr
    rw [hout]
    exact ⟨rfl, rfl⟩
  · intro a ha hup
    cases ha
    rw [hout]
    simp only [commit, Program.call_bind, Program.ret_bind, Program.run_call, Statement.exec, hup,
      if_true, check, Program.run_ret, and_self]
  · intro a ha hdown
    cases ha
    rw [hout]
    simp only [commit, Program.call_bind, Program.ret_bind, Program.run_call, Statement.exec, hdown,
      Bool.false_eq_true, if_false, check, Program.fail_bind, Program.run_fail]
    exact ⟨⟨_, rfl⟩, rfl⟩

/-- A method on the transaction route either fails and leaves the tables, or is
what its data statements made of them. -/
theorem withTenantTx_cases (T : String) {fn : Script α} (hfn : fn.Only Statement.isQuery) :
    (∃ e, ((withTenantTx T fn).run Statement.exec es ⟨c, db⟩).1 = .error e ∧
      ((withTenantTx T fn).run Statement.exec es ⟨c, db⟩).2.db = db) ∨
    ∃ (a : α) (es' : Nat → Choice) (cn : Conn),
      (fn.run Statement.exec es' ⟨cn, db⟩).1 = .ok a ∧
      ((withTenantTx T fn).run Statement.exec es ⟨c, db⟩).1 = .ok a ∧
      ((withTenantTx T fn).run Statement.exec es ⟨c, db⟩).2.db =
        (fn.run Statement.exec es' ⟨cn, db⟩).2.db := by
  cases h0 : (es 0).available with
  | false =>
    left
    simp [withTenantTx, acquire, Program.run_call, Statement.exec, h0, check]
  | true =>
    cases h1 : (es 1).available with
    | false =>
      left
      simp [withTenantTx, acquire, beginTx, Program.run_call, Statement.exec, h0, h1, check]
    | true =>
      cases h2 : (es 2).available with
      | false =>
        left
        simp [withTenantTx, acquire, beginTx, setConfig, rollback, Program.run_call,
          Statement.exec, h0, h1, h2, check, Session.rolledBack]
      | true =>
        cases hn : hasNul T with
        | true =>
          left
          simp [withTenantTx, acquire, beginTx, setConfig, rollback, Program.run_call,
            Statement.exec, h0, h1, h2, hn, check, Session.rolledBack]
        | false =>
          obtain ⟨n, herr, hup, hdown⟩ := run_withTenantTx es c db T hfn h0 h1 h2 hn
          cases hr : (fn.run Statement.exec (fun n => es (n + 3)) ⟨c.inTenantTx db T, db⟩).1 with
          | error e => exact .inl ⟨e, herr e hr⟩
          | ok a =>
            cases hcommit : (es n).available with
            | false =>
              obtain ⟨⟨e, he⟩, hdb⟩ := hdown a hr hcommit
              exact .inl ⟨e, he, hdb⟩
            | true => exact .inr ⟨a, _, _, hr, hup a hr hcommit⟩

end Runs

end Verion.Postgres
