import Verion.Postgres.Calls

/-!
# The tenant setting the row-security policies read

Migration 007 filters every tenant-scoped table by
`tenant_id = current_setting('app.current_tenant_id', true)::UUID`. Here the
setting is followed along each repository method: `dataStatements` lists the
connection as each `SELECT`, `INSERT` or `UPDATE` of the method finds it.

`withTenantConn` sets the value with `is_local = true` outside a transaction, so
it is gone when the data statement runs, and the methods of `CredentialRepo`
that use the pool never set it. Only `IdentityRepo.Create` opens a transaction.
-/

namespace Verion.Postgres

open Calls

variable {Attrs α β : Type}

/-- The connections that the data statements of a script find. -/
def dataStatements (s : Script α) (es : Nat → Choice) (start : Session) : List Conn :=
  (s.trace Statement.exec es start).filterMap fun x => match x.1 with
    | .query _ => some x.2.conn
    | _ => none

/-- The policy of a tenant-scoped table for a row of tenant `u`. -/
def tenantPolicy (c : Conn) (u : UUID) : Prop :=
  c.currentSetting.bind UUID.ofText? = some u

/-- The setting is `T`, so the policies admit exactly the rows of `T`. -/
def InContext (T : String) (c : Conn) : Prop :=
  c.currentSetting = some T ∧ ∀ u, tenantPolicy c u ↔ UUID.ofText? T = some u

theorem inContext_iff {T : String} {c : Conn} : InContext T c ↔ c.currentSetting = some T := by
  constructor
  · exact fun h => h.1
  · intro h
    refine ⟨h, fun u => ?_⟩
    unfold tenantPolicy
    rw [h, Option.bind_some]

/-- The connections a pool can hand out: newly opened ones, and those that any
repository call was carried out on before. -/
inductive Used (Attrs : Type) : Conn → Prop where
  | opened : Used Attrs ⟨none, none⟩
  | after {c : Conn} (h : Used Attrs c) (call : RepoCall Attrs) (now : Time) (es : Nat → Choice)
      (db : DB) : Used Attrs ((call.script now).run Statement.exec es ⟨c, db⟩).2.conn

/-- The tenant a call is made with; the tenants table itself is not tenant-scoped. -/
def RepoCall.tenantID : RepoCall Attrs → Option String
  | .tenants _ => none
  | .identities c => some <| match c with
    | .create ident => ident.tenantID
    | .getByID t _ => t
    | .getByHandle t _ => t
    | .update ident => ident.tenantID
    | .updateStatus t _ _ => t
    | .setPrimaryKey t _ _ => t
    | .list t _ => t
    | .count t _ => t
  | .keys c => some <| match c with
    | .create key => key.tenantID
    | .getByID t _ => t
    | .getByFingerprint t _ => t
    | .getActiveByPurpose t _ _ => t
    | .listByIdentity t _ _ => t
    | .rotate t _ _ => t
    | .revoke t _ => t
    | .markCompromised t _ => t
  | .credentials c => some <| match c with
    | .create cred => cred.tenantID
    | .getByID t _ => t
    | .getWebAuthnByCredentialID t _ => t
    | .listByIdentity t _ _ => t
    | .updateSignCount t _ _ => t
    | .updateLastUsed t _ _ => t
    | .revoke t _ => t
  | .audit c => some <| match c with
    | .insert e => e.tenantID
    | .getByID t _ => t
    | .listByEntity t _ _ _ _ => t
    | .listByActor t _ _ _ => t
    | .listByTenant t _ => t

/-! ### Inside a transaction -/

theorem dataStatements_call (c : Statement) (k : c.Reply → Script α) (es : Nat → Choice)
    (s : Session) (d : Conn) :
    d ∈ dataStatements (.call c k) es s ↔
      (c.isQuery ∧ d = s.conn) ∨
        d ∈ dataStatements (k (c.exec (es 0) s).1) (fun n => es (n + 1)) (c.exec (es 0) s).2 := by
  cases c <;>
    simp [dataStatements, Program.trace, Statement.isQuery]

theorem dataStatements_of_no_query {s : Script α} (h : s.Only fun c => ¬ c.isQuery) :
    ∀ (es : Nat → Choice) (w : Session) (d : Conn), d ∉ dataStatements s es w := by
  induction s with
  | ret a => intro es w d hd; cases hd
  | fail e => intro es w d hd; cases hd
  | call c k ih =>
    intro es w d hd
    rcases (dataStatements_call c k es w d).mp hd with ⟨hq, -⟩ | hd
    · exact h.1 hq
    · exact ih _ (h.2 _) _ _ d hd

/-- Statements leave the setting to the next one, so a block of data statements
runs under the setting it started with. -/
theorem dataStatements_block {s : Script α} {g : α → Script β}
    (hs : s.Only Statement.isQuery) (hg : ∀ a, (g a).Only fun c => ¬ c.isQuery) :
    ∀ (es : Nat → Choice) (w : Session) (d : Conn), d ∈ dataStatements (s >>= g) es w →
      d = w.conn := by
  induction s with
  | ret a =>
    intro es w d hd
    exact absurd hd (dataStatements_of_no_query (hg a) es w d)
  | fail e => intro es w d hd; cases hd
  | call c k ih =>
    intro es w d hd
    rw [Program.call_bind, dataStatements_call] at hd
    rcases hd with ⟨-, rfl⟩ | hd
    · rfl
    · rw [← conn_of_isQuery c (es 0) w hs.1]
      exact ih _ (hs.2 _) _ _ d hd

/-- On the transaction route every data statement sees the tenant, whatever was
done on the connection before. -/
theorem dataStatements_withTenantTx {T : String} {fn : Script α} (hfn : fn.Only Statement.isQuery)
    (es : Nat → Choice) (c : Conn) (db : DB) :
    ∀ d ∈ dataStatements (withTenantTx T fn) es ⟨c, db⟩, d.currentSetting = some T := by
  intro d hd
  simp only [withTenantTx, acquire, beginTx, setConfig, commit, rollback, Program.call_bind,
    Program.ret_bind, dataStatements_call, Statement.isQuery, false_and, false_or] at hd
  cases h0 : (es 0).available with
  | false =>
    simp only [Statement.exec, h0, Bool.false_eq_true, if_false, check] at hd
    cases hd
  | true =>
    cases h1 : (es 1).available with
    | false =>
      simp only [Statement.exec, h0, h1, Bool.false_eq_true, if_false, if_true, check,
        Program.ret_bind, dataStatements_call, Statement.isQuery, false_and, false_or] at hd
      cases hd
    | true =>
      simp only [Statement.exec, h0, h1, if_true, check, Program.ret_bind, dataStatements_call,
        Statement.isQuery, false_and, false_or] at hd
      split at hd
      · -- the setting failed, and all that is left is the rollback
        simp only [dataStatements_call, Statement.isQuery, false_and, false_or] at hd
        cases hd
      · rename_i hset
        have hblock := dataStatements_block hfn.attempt (fun a => ?_) _ _ d hd
        · split at hset
          · split at hset
            · cases hset
            · rename_i h2 hn
              simp only [h2, if_true, hn, Bool.false_eq_true, if_false] at hblock
              rw [hblock]
              rfl
          · cases hset
        · cases a with
          | error e => exact ⟨id, fun _ => trivial⟩
          | ok a =>
            refine ⟨id, fun r => ?_⟩
            cases r <;> trivial

/-! ### Outside a transaction -/

/-- Every statement gets through. -/
def up : Nat → Choice := fun _ => ⟨true, ⟨0, default⟩⟩

/-- A connection nobody used yet, on an empty database. -/
def newSession : Session := ⟨⟨none, none⟩, DB.empty⟩

/-- The local value of `withTenantConn` ends with its own statement. -/
theorem not_inContext_withTenantConn {T : String} {t : UUID} (ht : UUID.ofText? T = some t)
    (q : Query) (finish : Except PgError (List q.Row) → Except Error α) :
    ∃ d ∈ dataStatements (withTenantConn T (ask q finish)) up newSession, ¬ InContext T d := by
  refine ⟨⟨some "", none⟩, ?_, ?_⟩
  · simp only [withTenantConn, acquire, setConfig, ask, Program.call_bind, Program.ret_bind,
      dataStatements_call, Statement.isQuery, Statement.exec, up, if_true, check,
      hasNul_of_ofText? ht, Bool.false_eq_true, if_false, false_and, false_or]
    exact .inl ⟨trivial, rfl⟩
  · intro h
    have hset : some "" = some T := h.1
    rw [← Option.some.inj hset, UUID.ofText?_empty] at ht
    cases ht

/-- A statement sent through the pool finds the connection as it is. -/
theorem not_inContext_viaPool (T : String) (q : Query)
    (finish : Except PgError (List q.Row) → Except Error α) :
    ∃ d ∈ dataStatements (viaPool q finish) up newSession, ¬ InContext T d := by
  refine ⟨⟨none, none⟩, ?_, ?_⟩
  · simp only [viaPool, acquire, ask, Program.call_bind, Program.ret_bind, dataStatements_call,
      Statement.isQuery, Statement.exec, up, if_true, false_and, false_or]
    exact .inl ⟨trivial, rfl⟩
  · intro h
    cases h.1

/-- Translating the error of a method does not change its statements. -/
theorem mem_dataStatements_mapError (f : Error → Error) (s : Script α) (d : Conn) :
    ∀ (es : Nat → Choice) (w : Session),
      d ∈ dataStatements s es w → d ∈ dataStatements (CredentialRepo.mapError f s) es w := by
  induction s with
  | ret a => intro es w hd; exact hd
  | fail e => intro es w hd; exact hd
  | call c k ih =>
    intro es w hd
    have hcall : CredentialRepo.mapError f (.call c k) =
        .call c fun r => CredentialRepo.mapError f (k r) := rfl
    rw [hcall, dataStatements_call]
    rcases (dataStatements_call c k es w d).mp hd with hd | hd
    · exact .inl hd
    · exact .inr (ih _ _ _ hd)

/-! ### The methods that run in the tenant's context -/

/-- Every data statement of the call runs in the context of `T`, on every
connection the pool can hand out. -/
def RunsInContext (call : RepoCall Attrs) (T : String) : Prop :=
  ∀ c, Used Attrs c → ∀ (now : Time) (es : Nat → Choice) (db : DB),
    ∀ d ∈ dataStatements (call.script now) es ⟨c, db⟩, InContext T d

theorem runsInContext_create (ident : Identity Attrs) :
    RunsInContext (.identities (.create ident)) ident.tenantID := by
  intro c _ now es db d hd
  exact inContext_iff.mpr
    (dataStatements_withTenantTx (IdentityRepo.createTx_only_query now ident) es c db d hd)

theorem not_runsInContext {call : RepoCall Attrs} {T : String}
    (h : ∃ d ∈ dataStatements (call.script 0) up newSession, ¬ InContext T d) :
    ¬ RunsInContext call T := by
  intro hall
  obtain ⟨d, hd, hout⟩ := h
  exact hout (hall _ .opened 0 up DB.empty d hd)

/-- A method called with tenant `T` runs its data statements in the context of
`T` exactly when it is `IdentityRepo.Create`. -/
theorem runsInContext_iff_create (call : RepoCall Attrs) (T : String) (t : UUID)
    (hT : call.tenantID = some T) (ht : UUID.ofText? T = some t) :
    RunsInContext call T ↔ ∃ ident, call = .identities (.create ident) := by
  constructor
  · intro hall
    have conn : ∀ {α : Type} (q : Query) (finish : Except PgError (List q.Row) → Except Error α),
        ∃ d ∈ dataStatements (withTenantConn T (ask q finish)) up newSession, ¬ InContext T d :=
      fun q finish => not_inContext_withTenantConn ht q finish
    have mapped : ∀ {α : Type} (f : Error → Error) (q : Query)
        (finish : Except PgError (List q.Row) → Except Error α),
        ∃ d ∈ dataStatements (CredentialRepo.mapError f (withTenantConn T (ask q finish))) up
          newSession, ¬ InContext T d := by
      intro α f q finish
      obtain ⟨d, hd, hout⟩ := conn q finish
      exact ⟨d, mem_dataStatements_mapError f _ d _ _ hd, hout⟩
    cases call with
    | tenants c => cases hT
    | identities c =>
      cases c with
      | create ident => exact ⟨ident, rfl⟩
      | update ident => cases hT; exact absurd hall (not_runsInContext (conn _ _))
      | _ => cases hT; exact absurd hall (not_runsInContext (conn _ _))
    | keys c => cases c <;> (cases hT; exact absurd hall (not_runsInContext (conn _ _)))
    | credentials c =>
      cases c with
      | create cred => cases hT; exact absurd hall (not_runsInContext (mapped _ _ _))
      | getByID _ _ => cases hT; exact absurd hall (not_runsInContext (mapped _ _ _))
      | getWebAuthnByCredentialID _ _ =>
        cases hT; exact absurd hall (not_runsInContext (mapped _ _ _))
      | _ => exact absurd hall (not_runsInContext (not_inContext_viaPool T _ _))
    | audit c => cases c <;> (cases hT; exact absurd hall (not_runsInContext (conn _ _)))
  · rintro ⟨ident, rfl⟩
    cases hT
    exact runsInContext_create ident

/-- Creating an identity is inside the context, reading the same tenant's identity is not. -/
theorem runsInContext_create_not_get :
    RunsInContext (.identities (.create
      { tenantID := "00000000-0000-0000-0000-000000000001" }) : RepoCall Unit)
      "00000000-0000-0000-0000-000000000001" ∧
    ¬ RunsInContext (.identities (.getByID "00000000-0000-0000-0000-000000000001"
      "00000000-0000-0000-0000-000000000002") : RepoCall Unit)
      "00000000-0000-0000-0000-000000000001" := by
  have ht : UUID.ofText? "00000000-0000-0000-0000-000000000001" = some (UUID.ofNat 1) := by
    decide +kernel
  constructor
  · exact (runsInContext_iff_create _ _ _ rfl ht).mpr ⟨_, rfl⟩
  · intro h
    obtain ⟨ident, hident⟩ := (runsInContext_iff_create _ _ _ rfl ht).mp h
    cases hident

/-- `GetByID` on a connection just opened: its `SELECT` finds the empty setting. -/
theorem getByID_selects_without_tenant :
    Used Unit newSession.conn ∧
    (dataStatements ((.identities (.getByID "00000000-0000-0000-0000-000000000001"
      "00000000-0000-0000-0000-000000000002") : RepoCall Unit).script 0) up newSession).map
        Conn.currentSetting = [some ""] :=
  ⟨.opened, by decide +kernel⟩

end Verion.Postgres
