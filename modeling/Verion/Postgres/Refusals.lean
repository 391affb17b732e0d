import Verion.Postgres.Effects

/-!
# What an insertion is refused for

The repositories translate a unique violation of `tenants` and `identities` into an error
of their own and pass every other code on. So for each insertion it matters when it is
done or clashes, and when it ends with another code: a text that is no value of its
column, a reference to nothing.
-/

namespace Verion.Postgres

open Calls

variable {α β : Type}

/-! ### Codes -/

section Codes

theorem bind_eq_error {x : Except SqlState α} {f : α → Except SqlState β} {code : SqlState} :
    (x >>= f) = .error code ↔ x = .error code ∨ ∃ a, x = .ok a ∧ f a = .error code := by
  cases x with
  | error e => simp [bind, Except.bind]
  | ok a => simp [bind, Except.bind]

theorem uuidParam_error {s : String} (h : UUID.ofText? s = none) :
    uuidParam s = .error .invalidTextRepresentation := by
  rw [uuidParam, h]

theorem uuidParam_ne_unique {s : String} : uuidParam s ≠ .error .uniqueViolation := by
  unfold uuidParam
  split <;> exact fun h => nomatch h

theorem uuidParam?_ne_unique {o : Option String} : uuidParam? o ≠ .error .uniqueViolation := by
  cases o with
  | none => exact fun h => nomatch h
  | some s =>
    intro h
    rw [uuidParam?] at h
    cases hs : uuidParam s with
    | ok u => rw [hs] at h; cases h
    | error code =>
      rw [hs] at h
      exact uuidParam_ne_unique (hs.trans (congrArg Except.error (Except.error.inj h)))

theorem textParam_ne_unique {s : String} : textParam s ≠ .error .uniqueViolation := by
  unfold textParam
  split <;> exact fun h => nomatch h

theorem labelParam_ne_unique {τ : Type} {isLabel : τ → Bool} {v : τ} :
    labelParam isLabel v ≠ .error .uniqueViolation := by
  unfold labelParam
  split <;> exact fun h => nomatch h

theorem notNull_ne_unique {τ : Type} {o : Option τ} : notNull o ≠ .error .uniqueViolation := by
  cases o <;> exact fun h => nomatch h

theorem references_ne_unique {κ ρ : Type} [DecidableEq κ] {key : ρ → κ} {t : Table key} {k : κ} :
    references t k ≠ .error .uniqueViolation := by
  unfold references ensure
  split
  all_goals
    intro h
    cases h

theorem references?_ne_unique {κ ρ : Type} [DecidableEq κ] {key : ρ → κ} {t : Table key}
    {o : Option κ} : references? t o ≠ .error .uniqueViolation := by
  cases o with
  | none => exact fun h => nomatch h
  | some k => exact references_ne_unique

theorem insertUnique_unique {κ ρ : Type} [DecidableEq κ] {key : ρ → κ} {t : Table key}
    {clash : ρ → Bool} {r : ρ} :
    insertUnique t clash r = .error .uniqueViolation ↔
      t.rows.any clash = true ∨ t.insert? r = none := by
  unfold insertUnique
  cases hclash : t.rows.any clash with
  | true => simp
  | false => cases hins : t.insert? r <;> simp

end Codes

/-- Done, or refused for a value that is there already. -/
def DoneOrClash (r : Except SqlState α) : Prop :=
  (∃ a, r = .ok a) ∨ r = .error .uniqueViolation

theorem doneOrClash_ok (a : α) : DoneOrClash (.ok a) := .inl ⟨a, rfl⟩

theorem doneOrClash_error {code : SqlState} :
    DoneOrClash (.error code : Except SqlState α) ↔ code = .uniqueViolation := by
  constructor
  · rintro (⟨a, ha⟩ | herr)
    · cases ha
    · exact Except.error.inj herr
  · rintro rfl
    exact .inr rfl

theorem doneOrClash_insertUnique {κ ρ : Type} [DecidableEq κ] {key : ρ → κ} (t : Table key)
    (clash : ρ → Bool) (r : ρ) : DoneOrClash (insertUnique t clash r) := by
  unfold insertUnique
  split
  · exact .inr rfl
  · split
    · exact .inl ⟨_, rfl⟩
    · exact .inr rfl

/-- A step that never clashes has to be done. -/
theorem doneOrClash_bind {x : Except SqlState α} {f : α → Except SqlState β}
    (hx : x ≠ .error .uniqueViolation) :
    DoneOrClash (x >>= f) ↔ ∃ a, x = .ok a ∧ DoneOrClash (f a) := by
  cases x with
  | ok a => exact ⟨fun h => ⟨a, rfl, h⟩, fun ⟨_, ha, h⟩ => Except.ok.inj ha ▸ h⟩
  | error code =>
    refine iff_of_false ?_ fun ⟨_, ha, _⟩ => (nomatch ha)
    rw [bind, Monad.toBind]
    exact fun h => hx (congrArg Except.error (doneOrClash_error.mp h))

theorem doneOrClash_pure (a : α) : DoneOrClash (pure a : Except SqlState α) := doneOrClash_ok a

/-- With a key that is new, an insertion clashes or goes on. -/
theorem doneOrClash_insertUnique_bind {κ ρ : Type} [DecidableEq κ] {key : ρ → κ} {t : Table key}
    {clash : ρ → Bool} {r : ρ} {f : Table key → Except SqlState β}
    (hfresh : t.get? (key r) = none) :
    DoneOrClash (insertUnique t clash r >>= f) ↔
      t.rows.any clash = true ∨ ∃ t', t.insert? r = some t' ∧ DoneOrClash (f t') := by
  obtain ⟨t', hins⟩ := Table.insert?_of_fresh hfresh
  cases hclash : t.rows.any clash with
  | true =>
    have herr := insertUnique_unique.mpr (.inl hclash : _ ∨ t.insert? r = none)
    exact iff_of_true (.inr (bind_eq_error.mpr (.inl herr))) (.inl rfl)
  | false =>
    have hok := insertUnique_ok.mpr ⟨hclash, hins⟩
    rw [hok]
    constructor
    · exact fun h => .inr ⟨t', hins, h⟩
    · rintro (h | ⟨t'', hins', h⟩)
      · cases h
      · cases hins.symm.trans hins'
        exact h

theorem doneOrClash_tenantInsert {st : Stamp} {db : DB} {name slug : String} {tier : TenantTier}
    {status : TenantStatus} {settings : Bytes} {dataRegion : String} (hslug : hasNul slug = false) :
    DoneOrClash (sqlTenantInsert st db name slug tier status settings dataRegion) ↔
      hasNul name = false ∧ isTenantTier tier = true ∧ hasNul dataRegion = false := by
  unfold sqlTenantInsert
  simp only [doneOrClash_bind textParam_ne_unique, doneOrClash_bind labelParam_ne_unique,
    textParam_ok, labelParam_ok, and_assoc, exists_and_left, exists_eq_left, hslug, true_and]
  refine and_congr_right fun _ => and_congr_right fun _ => and_iff_left ?_
  rcases doneOrClash_insertUnique db.tenants _ _ with ⟨tenants, hins⟩ | hclash
  · exact .inl ⟨_, bind_eq_ok.mpr ⟨tenants, hins, rfl⟩⟩
  · exact .inr (bind_eq_error.mpr (.inl hclash))

/-! ### identities -/

/-- The parameters are values of their columns. -/
def IdentityStorable (type : IdentityType) (displayName handle : String)
    (createdBy : Option String) : Prop :=
  isIdentityType type = true ∧ hasNul displayName = false ∧ hasNul handle = false ∧
    ∀ c ∈ createdBy, (UUID.ofText? c).isSome

/-- The tenant has an identity with the handle. -/
def HandleTaken (db : DB) (T : UUID) (handle : String) : Prop :=
  ∃ r ∈ db.identities.rows, r.tenantID = T ∧ citextEq r.handle handle = true

/-- The creator, if there is one, is an identity or the new one itself. -/
def CreatorKnown (db : DB) (createdBy : Option String) (self : UUID) : Prop :=
  ∀ c ∈ createdBy, ∀ u, UUID.ofText? c = some u → (db.identities.get? u).isSome ∨ u = self

theorem uuidParam?_ok {o : Option String} {v : Option UUID} :
    uuidParam? o = .ok v ↔ (∀ c ∈ o, (UUID.ofText? c).isSome) ∧ v = o.bind UUID.ofText? := by
  cases o with
  | none =>
    exact ⟨fun h => ⟨fun _ hc => (nomatch hc), (Except.ok.inj h).symm⟩,
      fun h => congrArg Except.ok h.2.symm⟩
  | some s =>
    simp only [uuidParam?, Option.mem_some_iff, forall_eq', Option.bind_some]
    cases hs : UUID.ofText? s with
    | none =>
      simp only [uuidParam, hs]
      exact ⟨fun h => (nomatch h), fun h => (nomatch h.1)⟩
    | some u =>
      simp only [uuidParam, hs]
      exact ⟨fun h => ⟨rfl, (Except.ok.inj h).symm⟩, fun h => congrArg Except.ok h.2.symm⟩

theorem references_ok {κ ρ : Type} [DecidableEq κ] {key : ρ → κ} {t : Table key} {k : κ}
    {u : Unit} :
    references t k = .ok u ↔ (t.get? k).isSome := ensure_ok

theorem references?_ok {κ ρ : Type} [DecidableEq κ] {key : ρ → κ} {t : Table key} {o : Option κ}
    {u : Unit} : references? t o = .ok u ↔ ∀ k ∈ o, (t.get? k).isSome := by
  cases o with
  | none => simp [references?]
  | some k => simpa [references?] using references_ok

theorem doneOrClash_identityInsert {st : Stamp} {db : DB} {tenantID : String} {T : UUID}
    {type : IdentityType} {displayName handle : String} {status : IdentityStatus} {a iv : Bytes}
    {createdBy : Option String} (hT : UUID.ofText? tenantID = some T)
    (htenant : (db.tenants.get? T).isSome) (hfresh : db.identities.get? st.newID = none) :
    DoneOrClash (sqlIdentityInsert st db tenantID type displayName handle status (some a) (some iv)
        createdBy) ↔
      IdentityStorable type displayName handle createdBy ∧
        (HandleTaken db T handle ∨ CreatorKnown db createdBy st.newID) := by
  unfold sqlIdentityInsert
  simp only [doneOrClash_bind textParam_ne_unique, doneOrClash_bind labelParam_ne_unique,
    doneOrClash_bind uuidParam_ne_unique, doneOrClash_bind uuidParam?_ne_unique,
    doneOrClash_bind notNull_ne_unique, uuidParam_ok, uuidParam?_ok, textParam_ok, labelParam_ok,
    notNull_ok, Option.some.injEq, and_assoc, exists_and_left, exists_eq_left, exists_eq_left', hT,
    IdentityStorable]
  refine and_congr_right fun _ => and_congr_right fun _ => and_congr_right fun _ =>
    and_congr_right fun hby => ?_
  rw [doneOrClash_insertUnique_bind hfresh]
  refine or_congr ?_ ?_
  · simp only [HandleTaken, List.any_eq_true, Bool.and_eq_true, decide_eq_true_eq]
  · simp only [doneOrClash_bind references_ne_unique, doneOrClash_bind references?_ne_unique,
      references_ok, references?_ok, htenant, true_and, exists_const, doneOrClash_pure, and_true]
    constructor
    · rintro ⟨ids, hins, hall⟩ c hc u hu
      have hsome := hall u (Option.bind_eq_some_iff.mpr ⟨c, hc, hu⟩)
      rw [Table.get?_insert? hins] at hsome
      split at hsome
      · next hself => exact .inr hself.symm
      · exact .inl hsome
    · intro hknown
      obtain ⟨ids, hins⟩ := Table.insert?_of_fresh (r := insertedIdentity st T type displayName
        handle status a iv (createdBy.bind UUID.ofText?)) hfresh
      refine ⟨ids, hins, fun u hu => ?_⟩
      obtain ⟨c, hc, hcu⟩ := Option.bind_eq_some_iff.mp hu
      rcases hknown c hc u hcu with hsome | rfl
      · obtain ⟨row, hrow⟩ := Option.isSome_iff_exists.mp hsome
        exact Option.isSome_of_eq_some (Table.get?_insert?_of_some hins hrow)
      · exact Option.isSome_of_eq_some (Table.get?_insert?_self hins)

/-! ### Calls that get through -/

section Routes

variable {q : Query} {finish : Except PgError (List q.Row) → Except Error α} {es : Nat → Choice}
  {db db' : DB} {rows : List q.Row} {code : SqlState}

theorem single_error {ρ : Type} {scan : ρ → α} {fail : Error → Error} {r : Except PgError (List ρ)}
    {x : Error} (h : single scan fail r = .error x) : ∃ pe, x = fail (.pg pe) := by
  match r, h with
  | .ok [], h => exact ⟨.noRows, (Except.error.inj h).symm⟩
  | .error pe, h => exact ⟨pe, (Except.error.inj h).symm⟩

theorem answer_of_ok {e : Choice} (hup : e.available = true)
    (heval : q.eval e.stamp db = .ok (rows, db')) : answer q db e = (.ok rows, db') := by
  simp only [answer, hup, heval, if_true]

theorem answer_of_error {e : Choice} (hup : e.available = true)
    (heval : q.eval e.stamp db = .error code) : answer q db e = (.error (.server code), db) := by
  simp only [answer, hup, heval, if_true]

theorem perform_conn (hup : ∀ k, (es k).available = true) {T : String} (hn : hasNul T = false) :
    perform (withTenantConn T (ask q finish)) es db =
      (finish (answer q db (es 2)).1, (answer q db (es 2)).2) := by
  rw [perform, run_withTenantConn_ask q finish es ⟨none, none⟩ db T (hup 0) (hup 1) hn]

theorem perform_pool (hup : ∀ k, (es k).available = true) :
    perform (viaPool q finish) es db =
      (finish (answer q db (es 1)).1, (answer q db (es 1)).2) := by
  rw [perform, run_viaPool q finish es ⟨none, none⟩ db (hup 0)]

/-- A tenant setting with U+0000 in it is refused before the statement. -/
theorem perform_conn_nul (hup : ∀ k, (es k).available = true) {T : String} {fn : Script α}
    (hn : hasNul T = true) :
    perform (withTenantConn T fn) es db = (.error (.wrap "postgres: set tenant context"
      (.pg (.server .characterNotInRepertoire))), db) := by
  simp only [perform, withTenantConn, acquire, setConfig, Program.call_bind, Program.ret_bind,
    Program.run_call, Statement.exec, hup, hn, if_true, check, Program.fail_bind, Program.run_fail]

end Routes

section Create

variable {Attrs : Type} {ident : Identity Attrs} {es : Nat → Choice} {db db' db'' : DB} {now : Time}

/-- The statements of `IdentityRepo.Create`. -/
def insertQuery (ident : Identity Attrs) : Query :=
  .identityInsert ident.tenantID ident.type ident.displayName ident.handle ident.status
    (some (ident.attributes.getD [])) (some []) ident.createdBy

def createdQuery (now : Time) (ident : Identity Attrs) (row : IdentityRow) : Query :=
  .auditInsert ident.tenantID "identity.created" "identity" row.id.toText ident.createdBy
    (some ⟨row.id.toText, row.type, row.displayName, row.handle, row.status⟩) true now

/-- The event of a creation is appended once its tenant and actor are known to be there. -/
theorem createdQuery_ok (now : Time) (row : IdentityRow) (db : DB) {st : Stamp} {T : UUID}
    {by_ : Option UUID} (hT : UUID.ofText? ident.tenantID = some T)
    (htenant : (db.tenants.get? T).isSome)
    (hby : uuidParam? ident.createdBy = .ok by_) (hfresh : db.auditEvents.get? st.newID = none) :
    ∃ entry events, entry.id = st.newID ∧ db.auditEvents.insert? entry = some events ∧
      (createdQuery now ident row).eval st db =
        .ok ([st.newID], { db with auditEvents := events }) := by
  let entry : AuditRow :=
    { id := st.newID, tenantID := T, eventType := "identity.created", entityType := "identity",
      entityID := row.id, actorID := by_,
      afterState := some ⟨row.id.toText, row.type, row.displayName, row.handle, row.status⟩,
      success := true, occurredAt := .ofTime now }
  obtain ⟨events, hins⟩ := Table.insert?_of_fresh (r := entry) hfresh
  exact ⟨entry, events, rfl, hins, sqlAuditInsert_eq_ok.mpr ⟨T, row.id, by_, events, hT,
    UUID.ofText?_toText row.id, hby, hins, htenant, rfl, rfl⟩⟩

theorem createTx_error {s : Session} (hup : (es 0).available = true) {code : SqlState}
    (heval : (insertQuery ident).eval (es 0).stamp s.db = .error code) :
    ((IdentityRepo.createTx now ident).run Statement.exec es s).1 =
      .error (ifUnique .handleTaken "postgres: insert identity" (.pg (.server code))) := by
  have hanswer := answer_of_error hup heval
  unfold insertQuery at hanswer
  unfold IdentityRepo.createTx
  rw [run_ask_bind, hanswer]
  rfl

theorem createTx_done {s : Session} (hup : (es 0).available = true)
    (hup' : (es 1).available = true) {row : IdentityRow} {rest : List IdentityRow} {ids : List UUID}
    {id : UUID} (heval : (insertQuery ident).eval (es 0).stamp s.db = .ok (row :: rest, db'))
    (haudit : (createdQuery now ident row).eval (es 1).stamp db' = .ok (id :: ids, db'')) :
    (IdentityRepo.createTx now ident).run Statement.exec es s =
      (.ok (scanIdentity row), { s with db := db'' }) := by
  have hfirst := answer_of_ok hup heval
  have hsecond := answer_of_ok hup' haudit
  unfold insertQuery at hfirst
  unfold createdQuery at hsecond
  unfold IdentityRepo.createTx
  rw [run_ask_bind, hfirst]
  simp only [single, Program.ofExcept, Program.ret_bind, AuditRepo.insertTx]
  rw [run_ask_bind]
  erw [hsecond]
  rfl

theorem perform_create_error (hup : ∀ k, (es k).available = true)
    (hn : hasNul ident.tenantID = false) {code : SqlState}
    (heval : (insertQuery ident).eval (es 3).stamp db = .error code) :
    perform (IdentityRepo.create now ident) es db =
      (.error (ifUnique .handleTaken "postgres: insert identity" (.pg (.server code))), db) := by
  obtain ⟨n, herr, -⟩ := run_withTenantTx es ⟨none, none⟩ db ident.tenantID
    (IdentityRepo.createTx_only_query now ident) (hup 0) (hup 1) (hup 2) hn
  obtain ⟨hout, hdb⟩ := herr _ (createTx_error (hup 3) heval)
  exact Prod.ext hout hdb

theorem perform_create_done (hup : ∀ k, (es k).available = true)
    (hn : hasNul ident.tenantID = false) {row : IdentityRow} {rest : List IdentityRow}
    {ids : List UUID} {id : UUID}
    (heval : (insertQuery ident).eval (es 3).stamp db = .ok (row :: rest, db'))
    (haudit : (createdQuery now ident row).eval (es 4).stamp db' = .ok (id :: ids, db'')) :
    perform (IdentityRepo.create now ident) es db = (.ok (scanIdentity row), db'') := by
  obtain ⟨n, -, hok, -⟩ := run_withTenantTx es ⟨none, none⟩ db ident.tenantID
    (IdentityRepo.createTx_only_query now ident) (hup 0) (hup 1) (hup 2) hn
  have hrun : (IdentityRepo.createTx now ident).run Statement.exec (fun n => es (n + 3))
      ⟨Conn.inTenantTx ⟨none, none⟩ db ident.tenantID, db⟩ = _ :=
    createTx_done (hup 3) (hup 4) heval haudit
  obtain ⟨hout, hdb⟩ := hok _ (congrArg Prod.fst hrun) (hup n)
  refine Prod.ext hout (hdb.trans ?_)
  rw [hrun]

end Create

end Verion.Postgres
