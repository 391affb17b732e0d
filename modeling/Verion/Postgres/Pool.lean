import Verion.Postgres.RowSecurity

/-!
# The tenant setting of a pooled connection (internal/identity/postgres/db.go)

A connection of the pool is used by one caller after another. Here each statement
of a use may be carried out, be refused by the server, or be lost together with
the connection, and a use may break off after any statement, as a panic in its
callback makes it. `defer conn.Release()` then gives the connection back, and the
pool keeps it only if it is alive and outside a transaction.

What a variable goes back to when a locally set value ends is a parameter: PostgreSQL
leaves the empty text in one that was never set.
-/

namespace Verion.Postgres

open Calls

/-! ### One connection -/

namespace Conn

variable (undone : Option String → Option String)

def setLocalWith (c : Conn) (v : String) : Conn :=
  match c.tx with
  | some t => { c with tx := some { t with localSetting := some v } }
  | none => { c with setting := undone c.setting }

def endTxWith (c : Conn) : Conn :=
  match c.tx with
  | some ⟨_, some _⟩ => { setting := undone c.setting, tx := none }
  | _ => { c with tx := none }

/-- What PostgreSQL does. -/
def emptied (v : Option String) : Option String :=
  some (v.getD "")

theorem setLocalWith_emptied (c : Conn) (v : String) : c.setLocalWith emptied v = c.setLocal v := by
  unfold setLocalWith setLocal
  cases c.tx <;> rfl

theorem endTxWith_emptied (c : Conn) : c.endTxWith emptied = c.endTx := by
  unfold endTxWith endTx
  rfl

end Conn

/-- A connection taken from the pool, until it breaks. -/
structure Lease where
  session : Session
  alive : Bool

/-- What becomes of a statement. A refused `COMMIT` or `ROLLBACK` may have ended its
transaction all the same. -/
inductive Fate where
  | done
  | refused (ended : Bool)
  | lost

namespace Statement

/-- The reply to a statement that is not carried out; the error of `Rollback` is dropped. -/
def failed : (c : Statement) → c.Reply
  | .query _ => .error .unavailable
  | .acquire => .error .unavailable
  | .begin => .error .unavailable
  | .setConfig _ => .error .unavailable
  | .commit => .error .unavailable
  | .rollback => ()

variable (undone : Option String → Option String)

def endWith (s : Session) : Session where
  conn := s.conn.endTxWith undone
  db := match s.conn.tx with
    | some t => t.before
    | none => s.db

/-- The statement carried out. -/
def effect (st : Stamp) (s : Session) : (c : Statement) → c.Reply × Session
  | .acquire => (.ok (), s)
  | .begin => (.ok (), { s with conn.tx := some ⟨s.db, none⟩ })
  | .setConfig tenantID =>
    if hasNul tenantID then (.error (.server .characterNotInRepertoire), s)
    else (.ok (), { s with conn := s.conn.setLocalWith undone tenantID })
  | .query q =>
    match q.eval st s.db with
    | .ok (rows, db) => (.ok rows, { s with db })
    | .error code => (.error (.server code), s)
  | .commit => (.ok (), { s with conn := s.conn.endTxWith undone })
  | .rollback => ((), endWith undone s)

/-- With PostgreSQL's rule this is the statement of the repositories. -/
theorem effect_emptied (st : Stamp) (s : Session) (c : Statement) :
    c.effect Conn.emptied st s = c.exec ⟨true, st⟩ s := by
  cases c with
  | setConfig T => simp only [effect, exec, Conn.setLocalWith_emptied, if_true]
  | commit => simp only [effect, exec, Conn.endTxWith_emptied, if_true]
  | rollback =>
    exact congrArg (fun conn => ((), (⟨conn, _⟩ : Session))) (Conn.endTxWith_emptied s.conn)
  | _ => rfl

/-- A refused statement changes nothing, unless it was to end the transaction. -/
def refuse (ended : Bool) (s : Session) : Statement → Session
  | .commit | .rollback => if ended then endWith undone s else s
  | _ => s

def onWire (c : Statement) (e : Fate × Stamp) (l : Lease) : c.Reply × Lease :=
  if l.alive then
    match e.1 with
    | .done =>
      ((c.effect undone e.2 l.session).1, { l with session := (c.effect undone e.2 l.session).2 })
    | .refused ended => (c.failed, { l with session := c.refuse undone ended l.session })
    | .lost => (c.failed, { l with alive := false })
  else (c.failed, l)

end Statement

/-! ### One use after another -/

/-- A use of the connection for tenant `T`, with any callback. -/
inductive Use (T : String) {α : Type} : Script α → Prop where
  | conn (fn : Script α) : Use T (withTenantConn T fn)
  | tx (fn : Script α) : Use T (withTenantTx T fn)

/-- The connection as it is next acquired, after uses by the callers listed. -/
inductive Leased (undone : Option String → Option String) : List String → Conn → Prop where
  | opened : Leased undone [] ⟨none, none⟩
  | again {callers : List String} {c c' : Conn} {T : String} {α : Type} {p : Script α}
      (h : Leased undone callers c) (hp : Use T p) (n : Nat) (es : Nat → Fate × Stamp) (db db' : DB)
      (hrelease : p.runFor (Statement.onWire undone) n es ⟨⟨c, db⟩, true⟩ = ⟨⟨c', db'⟩, true⟩)
      (hidle : c'.tx = none) : Leased undone (T :: callers) c'

section Setting

variable {undone : Option String → Option String}

/-- A use that runs to its end is one that breaks off after its last statement. -/
theorem Leased.run {callers : List String} {c c' : Conn} {T : String} {α : Type} {p : Script α}
    (h : Leased undone callers c) (hp : Use T p) (es : Nat → Fate × Stamp) (db db' : DB)
    (hrelease : (p.run (Statement.onWire undone) es ⟨⟨c, db⟩, true⟩).2 = ⟨⟨c', db'⟩, true⟩)
    (hidle : c'.tx = none) : Leased undone (T :: callers) c' := by
  obtain ⟨n, hn⟩ := p.exists_runFor es (Lease.mk ⟨c, db⟩ true)
  exact .again h hp n es db db' (hn.trans hrelease) hidle

/-- The value between transactions only ever changes by a local value ending. -/
def Reverted (undone : Option String → Option String) (c : Conn) : Prop :=
  ∃ n, c.setting = undone^[n] none

theorem Reverted.next {c c' : Conn} (h : Reverted undone c) (hc : c'.setting = undone c.setting) :
    Reverted undone c' := by
  obtain ⟨n, hn⟩ := h
  refine ⟨n + 1, ?_⟩
  rw [hc, hn, Function.iterate_succ_apply']

theorem Reverted.setLocal {c : Conn} (h : Reverted undone c) (v : String) :
    Reverted undone (c.setLocalWith undone v) := by
  unfold Conn.setLocalWith
  cases c.tx with
  | none => exact h.next rfl
  | some t => exact h

theorem Reverted.endTx {c : Conn} (h : Reverted undone c) :
    Reverted undone (c.endTxWith undone) := by
  unfold Conn.endTxWith
  split
  · exact h.next rfl
  · exact h

theorem Reverted.effect {s : Session} (h : Reverted undone s.conn) (st : Stamp) (c : Statement) :
    Reverted undone (c.effect undone st s).2.conn := by
  cases c with
  | acquire => exact h
  | begin => exact h
  | setConfig T =>
    simp only [Statement.effect]
    split
    · exact h
    · exact h.setLocal T
  | query q =>
    simp only [Statement.effect]
    split
    · exact h
    · exact h
  | commit => exact h.endTx
  | rollback => exact h.endTx

theorem Reverted.refuse {s : Session} (h : Reverted undone s.conn) (ended : Bool) (c : Statement) :
    Reverted undone (c.refuse undone ended s).conn := by
  unfold Statement.refuse
  split
  · split
    · exact h.endTx
    · exact h
  · split
    · exact h.endTx
    · exact h
  · exact h

/-- Every statement of a use keeps it, carried out or not. -/
theorem Reverted.onWire (c : Statement) (e : Fate × Stamp) (l : Lease)
    (h : Reverted undone l.session.conn) : Reverted undone
      (c.onWire undone e l).2.session.conn := by
  unfold Statement.onWire
  split
  · split
    · exact h.effect e.2 c
    · exact h.refuse _ c
    · exact h
  · exact h

theorem Leased.reverted {callers : List String} {c : Conn} (h : Leased undone callers c) :
    c.tx = none ∧ Reverted undone c := by
  induction h with
  | opened => exact ⟨rfl, 0, rfl⟩
  | @again callers c c' T α p _ _ n es db db' hrelease hidle ih =>
    have hkept :
        Reverted undone (p.runFor (Statement.onWire undone) n es ⟨⟨c, db⟩, true⟩).session.conn :=
      Program.runFor_keeps (J := fun l : Lease => Reverted undone l.session.conn)
        Reverted.onWire n p
        ih.2
    rw [hrelease] at hkept
    exact ⟨hidle, hkept⟩

end Setting

/-- Where a locally set value is undone at the end of its transaction, the next caller
finds the setting of none of the callers before. -/
theorem no_tenant_survives (undone : Option String → Option String) (hundone : ∀ v, undone v = v)
    (callers : List String) (c : Conn) (h : Leased undone callers c) :
    ∀ T ∈ callers, c.currentSetting ≠ some T := by
  obtain ⟨htx, n, hn⟩ := h.reverted
  have hset : c.setting = none := by
    rw [hn, show undone = id from funext hundone, Function.iterate_id]
    rfl
  intro T _
  unfold Conn.currentSetting
  rw [htx, hset]
  exact (Option.some_ne_none T).symm

/-- Two uses: a transaction whose commit is refused, then a connection that breaks off
after the tenant is set. -/
theorem two_callers_leave_nothing :
    ∃ c, Leased id ["b", "a"] c ∧ ∀ T ∈ ["b", "a"], c.currentSetting ≠ some T := by
  have hfirst : Leased id ["a"] ⟨none, none⟩ :=
    .again .opened (.tx (.ret ())) 4 (fun n =>
      (if n = 3 then .refused true else .done, ⟨0, .ofNat 0⟩))
      .empty .empty rfl rfl
  have hsecond : Leased id ["b", "a"] ⟨none, none⟩ :=
    .again hfirst (.conn (.ret ())) 2 (fun _ => (.done, ⟨0, .ofNat 0⟩)) .empty .empty rfl rfl
  exact ⟨_, hsecond, no_tenant_survives id (fun _ => rfl) _ _ hsecond⟩

/-- Under PostgreSQL's own rule the value that is left is the empty text at most. -/
theorem Leased.setting_emptied {callers : List String} {c : Conn}
    (h : Leased Conn.emptied callers c) : c.setting = none ∨ c.setting = some "" := by
  obtain ⟨-, n, hn⟩ := h.reverted
  cases n with
  | zero => exact .inl hn
  | succ n =>
    right
    rw [hn]
    clear hn
    induction n with
    | zero => rfl
    | succ n ih => rw [Function.iterate_succ_apply', ih]; rfl

/-- Under PostgreSQL's own rule, which leaves the empty text in a variable that was set locally,
the next caller finds the setting of no caller before that named a tenant, and the policies
admit no row of any tenant. -/
theorem no_tenant_left (callers : List String) (c : Conn) (h : Leased Conn.emptied callers c) :
    (∀ T ∈ callers, T ≠ "" → c.currentSetting ≠ some T) ∧ ∀ u, ¬ tenantPolicy c u := by
  have htx := h.reverted.1
  unfold tenantPolicy Conn.currentSetting
  rw [htx]
  rcases h.setting_emptied with hset | hset
  · rw [hset]
    exact ⟨fun T _ _ => (Option.some_ne_none T).symm, fun u h => nomatch h⟩
  · have hempty : UUID.ofText? "" = none := by decide +kernel
    rw [hset]
    refine ⟨fun T _ hT heq => hT (Option.some.inj heq).symm, fun u => ?_⟩
    rw [Option.bind_some, hempty]
    exact fun h => nomatch h

/-- A transaction that is committed and then a use of the connection that runs to its end: the
empty text is left. -/
theorem two_callers_leave_empty :
    ∃ c, Leased Conn.emptied ["b", "a"] c ∧ c.currentSetting = some "" ∧
      (∀ T ∈ ["b", "a"], T ≠ "" → c.currentSetting ≠ some T) ∧ ∀ u, ¬ tenantPolicy c u := by
  have hfirst : Leased Conn.emptied ["a"] ⟨some "", none⟩ :=
    Leased.opened.run (.tx (.ret ())) (fun _ => (.done, ⟨0, .ofNat 0⟩)) .empty .empty rfl rfl
  have hsecond : Leased Conn.emptied ["b", "a"] ⟨some "", none⟩ :=
    hfirst.run (.conn (.ret ())) (fun _ => (.done, ⟨0, .ofNat 0⟩)) .empty .empty rfl rfl
  exact ⟨_, hsecond, rfl, no_tenant_left _ _ hsecond⟩

end Verion.Postgres
