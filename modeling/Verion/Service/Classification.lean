import Verion.Grpc.Server
import Verion.Http.Handlers
import Verion.Postgres.Refusals
import Verion.Service.Atomicity
import Verion.Service.KeyTrust

/-!
# Errors that a caller causes

The two transports tell errors apart by the sentinels they match; what matches none is an
internal error. The validators of the services, the types of the columns and the unique
indexes overlap only in part: a text that no validator looks at and its column refuses, a
second active key for one purpose or a reference to nobody comes back as the error of the
driver, which matches nothing.
-/

namespace Verion.Service

open Calls Postgres

variable {Attrs α : Type} {P : Primitives Attrs} {w : World} {e : Env}

/-! ### Classified errors -/

/-- The error matches a sentinel, and neither transport takes it for an internal one. -/
def Classified (x : Error) : Prop :=
  (∃ s, x.is s = true) ∧ (Grpc.toGRPCError x).code ≠ .internal ∧
    (Http.writeServiceError x : Http.Response Unit).status ≠ 500

/-- The call succeeds, or its error is classified. -/
def Handled (r : Except Error α) : Prop := ∀ x, r = .error x → Classified x

/-- The error of the driver, or a text. -/
def Unmatched (x : Error) : Prop := ∀ s, x.is s = false

theorem classified_congr {x y : Error} (h : x.is = y.is) : Classified x ↔ Classified y := by
  have hcode : (Grpc.toGRPCError x).code = (Grpc.toGRPCError y).code := by
    simp only [Grpc.toGRPCError, h, apply_ite Grpc.Status.code]
  have hstatus : (Http.writeServiceError x : Http.Response Unit).status =
      (Http.writeServiceError y : Http.Response Unit).status := by
    simp only [Http.writeServiceError, Http.writeError, h, apply_ite Http.Response.status]
  unfold Classified
  rw [h, hcode, hstatus]

theorem classified_wrapRepoError {x : Error} {op : String} :
    Classified (wrapRepoError x op) ↔ Classified x :=
  classified_congr (funext fun s => wrapRepoError_is x op s)

theorem Unmatched.not_classified {x : Error} (h : Unmatched x) : ¬Classified x := by
  rintro ⟨⟨s, hs⟩, -⟩
  rw [h s] at hs
  cases hs

theorem unmatched_pg (pe : PgError) : Unmatched (.pg pe) := fun _ => rfl

theorem Unmatched.wrap {x : Error} (h : Unmatched x) (context : String) :
    Unmatched (.wrap context x) := h

theorem Unmatched.wrapRepoError {x : Error} (h : Unmatched x) (op : String) :
    Unmatched (wrapRepoError x op) := fun s => (wrapRepoError_is x op s).trans (h s)

theorem classified_sentinel {s : Sentinel}
    (h : (Grpc.toGRPCError (.sentinel s)).code ≠ .internal ∧
      (Http.writeServiceError (.sentinel s) : Http.Response Unit).status ≠ 500) :
    Classified (.sentinel s) :=
  ⟨⟨s, beq_self_eq_true s⟩, h⟩

theorem classified_notFound (entityType id : String) : Classified (.notFound entityType id) := by
  have hsame : (Error.notFound entityType id).is = (Error.sentinel .notFound).is := by
    funext s
    cases s <;> rfl
  exact (classified_congr hsame).mpr (classified_sentinel (by decide))

theorem classified_validation (field message : String) :
    Classified (.validation field message) := by
  have hsame : (Error.validation field message).is = (Error.sentinel .invalidInput).is := by
    funext s
    cases s <;> rfl
  exact (classified_congr hsame).mpr (classified_sentinel (by decide))

theorem handled_ok (a : α) : Handled (.ok a) := fun _ h => (nomatch h)

theorem handled_error {x : Error} : Handled (.error x : Except Error α) ↔ Classified x :=
  ⟨fun h => h x rfl, fun h _ hx => Except.error.inj hx ▸ h⟩

/-! ### The surroundings -/

/-- The constraints of the migrations, for the tables of the model. -/
structure Constrained (db : DB) : Prop where
  slug : ∀ r ∈ db.tenants.rows, ∀ s ∈ db.tenants.rows, citextEq r.slug s.slug = true → r = s
  tier : ∀ r ∈ db.tenants.rows, isTenantTier r.tier = true
  handle : ∀ r ∈ db.identities.rows, ∀ s ∈ db.identities.rows, r.tenantID = s.tenantID →
    citextEq r.handle s.handle = true → r = s
  type : ∀ r ∈ db.identities.rows, isIdentityType r.type = true
  identityTenant : ∀ r ∈ db.identities.rows, (db.tenants.get? r.tenantID).isSome
  createdBy : ∀ r ∈ db.identities.rows, ∀ u ∈ r.createdBy, (db.identities.get? u).isSome
  primaryKey : ∀ r ∈ db.identities.rows, ∀ u ∈ r.primaryKeyID, (db.identityKeys.get? u).isSome
  keyLabels : ∀ r ∈ db.identityKeys.rows,
    isKeyType r.keyType = true ∧ isKeyPurpose r.purpose = true
  keyIdentity : ∀ r ∈ db.identityKeys.rows, (db.identities.get? r.identityID).isSome
  keyTenant : ∀ r ∈ db.identityKeys.rows, (db.tenants.get? r.tenantID).isSome
  keyActive : ∀ r ∈ db.identityKeys.rows, ∀ s ∈ db.identityKeys.rows, r.status = .active →
    s.status = .active → r.identityID = s.identityID → r.purpose = s.purpose → r = s
  rotatedTo : ∀ r ∈ db.identityKeys.rows, ∀ u ∈ r.rotatedTo, (db.identityKeys.get? u).isSome
  credentialIdentity : ∀ r ∈ db.credentials.rows, (db.identities.get? r.identityID).isSome
  credentialTenant : ∀ r ∈ db.credentials.rows, (db.tenants.get? r.tenantID).isSome
  credentialKey : ∀ r ∈ db.credentials.rows, ∀ u ∈ r.keyID, (db.identityKeys.get? u).isSome
  eventTenant : ∀ r ∈ db.auditEvents.rows, (db.tenants.get? r.tenantID).isSome

/-- The identifier that the server draws for statement `k` of call `n`. -/
def drawn (es : Nat → Env) (n k : Nat) : UUID := ((es n).statements k).stamp.newID

/-- No failure of the infrastructure: every statement gets through, there is randomness, and
what the server draws is new. No call of a service makes ten calls or statements. -/
structure Undisturbed (es : Nat → Env) (db : DB) : Prop where
  available : ∀ n k, ((es n).statements k).available = true
  iv : ∀ n, (es n).iv.isSome
  secret : ∀ n, (es n).secret.isSome
  newTenant : ∀ n k, db.tenants.get? (drawn es n k) = none
  newIdentity : ∀ n k, db.identities.get? (drawn es n k) = none
  newKey : ∀ n k, db.identityKeys.get? (drawn es n k) = none
  newEvent : ∀ n k, db.auditEvents.get? (drawn es n k) = none
  apart : ∀ n m k j, n < m → m < 10 → k < 10 → j < 10 → drawn es n k ≠ drawn es m j

theorem Undisturbed.connected {es : Nat → Env} {db : DB} (hes : Undisturbed es db) (n : Nat) :
    Connected (es n).statements :=
  ⟨hes.available n 0, hes.available n 1, hes.available n 2⟩

/-! ### Calls that get through -/

section Handling

variable {c : RepoCall Attrs} {f : Error → Error} {g : c.Result → Svc Attrs α} {es : Nat → Env}

theorem handled_call_bind {a : c.Result} {w' : World}
    (h : exec P (.repo c) (es 0) w = (.ok a, w')) :
    Handled ((repo c f >>= g).run (exec P) es w).1 ↔
      Handled ((g a).run (exec P) (fun n => es (n + 1)) w').1 := by
  rw [run_repo_bind_of es h]

theorem handled_call_error {x : Error} (h : (exec P (.repo c) (es 0) w).1 = .error x) :
    Handled ((repo c f >>= g).run (exec P) es w).1 ↔ Classified (f x) := by
  rw [run_repo_bind_error es h, handled_error]

end Handling

section Route

variable {c : RepoCall Attrs} {q : Query} {T : String}
  {finish : Except PgError (List q.Row) → Except Error c.Result} {rows : List q.Row} {db' : DB}
  {r : Except Error c.Result} {code : SqlState} (hup : ∀ k, (e.statements k).available = true)
include hup

theorem exec_pool_ok (hscript : c.script e.now = viaPool q finish)
    (heval : q.eval (e.statements 1).stamp w.db = .ok (rows, db'))
    (hfin : finish (.ok rows) = r) : exec P (.repo c) e w = (r, { w with db := db' }) := by
  rw [exec, hscript, perform_pool hup, answer_of_ok (hup 1) heval, hfin]

theorem exec_pool_error (hscript : c.script e.now = viaPool q finish)
    (heval : q.eval (e.statements 1).stamp w.db = .error code)
    (hfin : finish (.error (.server code)) = r) : (exec P (.repo c) e w).1 = r := by
  rw [exec, hscript, perform_pool hup, answer_of_error (hup 1) heval, hfin]

theorem exec_conn (hscript : c.script e.now = withTenantConn T (ask q finish))
    (hn : hasNul T = false) :
    (exec P (.repo c) e w).1 = finish (answer q w.db (e.statements 2)).1 := by
  rw [exec, hscript, perform_conn hup hn]

theorem exec_conn_ok (hscript : c.script e.now = withTenantConn T (ask q finish))
    (hn : hasNul T = false) (heval : q.eval (e.statements 2).stamp w.db = .ok (rows, db'))
    (hfin : finish (.ok rows) = r) : exec P (.repo c) e w = (r, { w with db := db' }) := by
  rw [exec, hscript, perform_conn hup hn, answer_of_ok (hup 2) heval, hfin]

theorem exec_conn_error (hscript : c.script e.now = withTenantConn T (ask q finish))
    (hn : hasNul T = false) (heval : q.eval (e.statements 2).stamp w.db = .error code)
    (hfin : finish (.error (.server code)) = r) : (exec P (.repo c) e w).1 = r := by
  rw [exec_conn hup hscript hn, answer_of_error (hup 2) heval, hfin]

/-- The statement is not sent if the tenant setting is refused. -/
theorem exec_conn_nul {fn : Script c.Result} (hscript : c.script e.now = withTenantConn T fn)
    (hn : hasNul T = true) :
    ∃ x, (exec P (.repo c) e w).1 = .error x ∧ Unmatched x := by
  rw [exec, hscript, perform_conn_nul hup hn]
  exact ⟨_, rfl, (unmatched_pg _).wrap _⟩

end Route

section Calls

variable (hup : ∀ k, (e.statements k).available = true)
include hup

theorem exec_getTenant_cases (id : String) :
    (UUID.ofText? id = none ∧
      ∃ x, (exec P (.repo (.tenants (.getByID id))) e w).1 = .error x ∧ Unmatched x) ∨
    ∃ T, UUID.ofText? id = some T ∧
      ((w.db.tenants.get? T = none ∧
        (exec P (.repo (.tenants (.getByID id))) e w).1 = .error (.notFound "tenant" id)) ∨
      ∃ row, w.db.tenants.get? T = some row ∧
        (exec P (.repo (.tenants (.getByID id))) e w).1 = .ok (scanTenant row)) := by
  cases hT : UUID.ofText? id with
  | none =>
    have heval : sqlTenantGetByID w.db id = .error .invalidTextRepresentation :=
      bind_eq_error.mpr (.inl (uuidParam_error hT))
    exact .inl ⟨rfl, _, exec_pool_error (q := .tenantGetByID id) hup rfl heval rfl,
      (unmatched_pg _).wrap _⟩
  | some T =>
    refine .inr ⟨T, rfl, ?_⟩
    cases hrow : w.db.tenants.get? T with
    | none =>
      have hnil : w.db.tenants.rows.filter (fun r => decide (r.id = T)) = [] :=
        List.filter_eq_nil_iff.mpr fun r hr => by simpa using Table.get?_eq_none.mp hrow r hr
      have heval : sqlTenantGetByID w.db id = .ok ([], w.db) :=
        bind_eq_ok.mpr ⟨T, uuidParam_ok.mpr hT, congrArg Except.ok (Prod.ext hnil rfl)⟩
      have hexec : exec P (.repo (.tenants (.getByID id))) e w =
          (.error (.notFound "tenant" id), _) :=
        exec_pool_ok (q := .tenantGetByID id) hup rfl heval rfl
      exact .inl ⟨rfl, congrArg Prod.fst hexec⟩
    | some row =>
      have hexec : exec P (.repo (.tenants (.getByID id))) e w = (.ok (scanTenant row), _) :=
        exec_pool_ok (q := .tenantGetByID id) hup rfl (sqlTenantGetByID_of_get? hT hrow) rfl
      exact .inr ⟨row, rfl, congrArg Prod.fst hexec⟩

theorem exec_getIdentity_cases (tenantID id : String) :
    ((UUID.ofText? tenantID = none ∨ UUID.ofText? id = none) ∧
      ∃ x, (exec P (.repo (.identities (.getByID tenantID id))) e w).1 = .error x ∧ Unmatched x) ∨
    ∃ T I, UUID.ofText? tenantID = some T ∧ UUID.ofText? id = some I ∧
      (((∀ row, w.db.identities.get? I = some row → row.tenantID ≠ T) ∧
        (exec P (.repo (.identities (.getByID tenantID id))) e w).1 =
          .error (.notFound "identity" id)) ∨
      ∃ row, w.db.identities.get? I = some row ∧ row.tenantID = T ∧
        (exec P (.repo (.identities (.getByID tenantID id))) e w).1 = .ok (scanIdentity row)) := by
  cases hT : UUID.ofText? tenantID with
  | none =>
    refine .inl ⟨.inl rfl, ?_⟩
    cases hn : hasNul tenantID with
    | true => exact exec_conn_nul hup rfl hn
    | false =>
      have heval : sqlIdentityGetByID w.db tenantID id = .error .invalidTextRepresentation :=
        bind_eq_error.mpr (.inl (uuidParam_error hT))
      exact ⟨_, exec_conn_error (q := .identityGetByID tenantID id) hup rfl hn heval rfl,
        (unmatched_pg _).wrap _⟩
  | some T =>
    have hn := hasNul_of_ofText? hT
    cases hI : UUID.ofText? id with
    | none =>
      have heval : sqlIdentityGetByID w.db tenantID id = .error .invalidTextRepresentation :=
        bind_eq_error.mpr (.inr ⟨T, uuidParam_ok.mpr hT,
          bind_eq_error.mpr (.inl (uuidParam_error hI))⟩)
      exact .inl ⟨.inr rfl, _,
        exec_conn_error (q := .identityGetByID tenantID id) hup rfl hn heval rfl,
        (unmatched_pg _).wrap _⟩
    | some I =>
      refine .inr ⟨T, I, rfl, rfl, ?_⟩
      by_cases hfound : ∃ row, w.db.identities.get? I = some row ∧ row.tenantID = T
      · obtain ⟨row, hrow, rfl⟩ := hfound
        have hexec : exec P (.repo (.identities (.getByID tenantID id))) e w =
            (.ok (scanIdentity row), _) :=
          exec_conn_ok (q := .identityGetByID tenantID id) hup rfl hn
            (sqlIdentityGetByID_of_get? hT hI hrow) rfl
        exact .inr ⟨row, hrow, rfl, congrArg Prod.fst hexec⟩
      · have hnone : ∀ row, w.db.identities.get? I = some row → row.tenantID ≠ T :=
          fun row hrow hrowT => hfound ⟨row, hrow, hrowT⟩
        have hnil : w.db.identities.rows.filter (identityAt T I) = [] :=
          List.filter_eq_nil_iff.mpr fun r hr hat => by
            simp only [identityAt, Bool.and_eq_true, decide_eq_true_eq] at hat
            exact hnone r (Table.get?_eq_some.mpr ⟨hr, hat.2⟩) hat.1
        have heval : sqlIdentityGetByID w.db tenantID id = .ok ([], w.db) :=
          bind_eq_ok.mpr ⟨T, uuidParam_ok.mpr hT, bind_eq_ok.mpr ⟨I, uuidParam_ok.mpr hI,
            congrArg Except.ok (Prod.ext hnil rfl)⟩⟩
        have hexec : exec P (.repo (.identities (.getByID tenantID id))) e w =
            (.error (.notFound "identity" id), _) :=
          exec_conn_ok (q := .identityGetByID tenantID id) hup rfl hn heval rfl
        exact .inl ⟨hnone, congrArg Prod.fst hexec⟩

/-- An event that is not inserted leaves the error of the driver. -/
theorem exec_audit_unmatched {event : AuditEvent} {x : Error} {T : UUID}
    (hT : UUID.ofText? event.tenantID = some T)
    (h : (exec P (.repo (.audit (.insert event))) e w).1 = .error x) : Unmatched x := by
  have hexec := exec_conn (P := P) (c := .audit (.insert event)) (w := w) hup rfl
    (hasNul_of_ofText? hT)
  obtain ⟨pe, rfl⟩ := single_error (hexec.symm.trans h)
  exact unmatched_pg pe

end Calls

/-! ### Tenants -/

/-- The text of a column has no U+0000, and the tier is a label. -/
def TenantAccepted (input : CreateTenantInput) : Prop :=
  (∃ x, validateCreateTenantInput input = .error x) ∨
    (hasNul input.name = false ∧ isTenantTier input.tier = true ∧ hasNul input.dataRegion = false)

theorem classified_validateTenant {input : CreateTenantInput} {x : Error}
    (h : validateCreateTenantInput input = .error x) : Classified x := by
  unfold validateCreateTenantInput at h
  repeat' split at h
  all_goals cases h
  all_goals exact classified_validation _ _

theorem hasNul_slug {input : CreateTenantInput} (h : validateCreateTenantInput input = .ok ()) :
    hasNul input.slug = false := by
  have hall : input.slug.toList.all slugChar = true := by
    unfold validateCreateTenantInput at h
    repeat' split at h
    all_goals cases h
    rename_i hslug
    simpa using hslug
  cases hn : hasNul input.slug with
  | false => rfl
  | true =>
    have hmem : '\x00' ∈ input.slug.toList := by simpa [hasNul] using hn
    exact absurd (List.all_eq_true.mp hall _ hmem) (by decide)

/-- The tenant as `CreateTenant` inserts it. -/
def newTenant (input : CreateTenantInput) : Tenant :=
  { name := input.name, slug := input.slug, tier := input.tier, status := .active,
    dataRegion := if input.dataRegion = "" then "global" else input.dataRegion }

theorem hasNul_newTenant_region (input : CreateTenantInput) :
    hasNul (newTenant input).dataRegion = hasNul input.dataRegion := by
  simp only [newTenant]
  split
  · next h => rw [h]; decide
  · rfl

theorem classified_ifUnique {s : Sentinel} (hs : Classified (.sentinel s)) {context op : String}
    {code : SqlState} :
    Classified (wrapRepoError (ifUnique s context (.pg (.server code))) op) ↔
      code = .uniqueViolation := by
  rw [classified_wrapRepoError]
  by_cases hcode : code = .uniqueViolation
  · subst hcode
    exact iff_of_true hs rfl
  · refine iff_of_false ?_ hcode
    have hwrap : ifUnique s context (.pg (.server code)) = .wrap context (.pg (.server code)) := by
      unfold ifUnique
      rw [if_neg]
      cases code <;> first | exact absurd rfl hcode | decide
    rw [hwrap]
    exact ((unmatched_pg _).wrap _).not_classified

theorem createTenant_handled_iff {es : Nat → Env} (hes : Undisturbed es w.db)
    (input : CreateTenantInput) :
    Handled ((createTenant input : Svc Attrs _).run (exec P) es w).1 ↔ TenantAccepted input := by
  unfold createTenant
  cases hvalid : validateCreateTenantInput input with
  | error x =>
    exact iff_of_true (handled_error.mpr (classified_validateTenant hvalid)) (.inl ⟨x, hvalid⟩)
  | ok u =>
    have haccepted : TenantAccepted input ↔ DoneOrClash (sqlTenantInsert ((es 0).statements 1).stamp
        w.db input.name input.slug input.tier .active [0x7b, 0x7d]
        (newTenant input).dataRegion) := by
      rw [doneOrClash_tenantInsert (hasNul_slug hvalid), hasNul_newTenant_region, TenantAccepted,
        hvalid]
      simp
    have hup := hes.available 0
    rw [run_orFail_bind, haccepted]
    cases heval : sqlTenantInsert ((es 0).statements 1).stamp w.db input.name input.slug input.tier
        .active [0x7b, 0x7d] (newTenant input).dataRegion with
    | error code =>
      have hfirst : (exec P (.repo (.tenants (.create (newTenant input)))) (es 0) w).1 = .error _ :=
        exec_pool_error hup rfl heval rfl
      refine (handled_call_error hfirst).trans ?_
      rw [classified_ifUnique (classified_sentinel (by decide)), doneOrClash_error]
    | ok done =>
      obtain ⟨rows, db'⟩ := done
      obtain ⟨row, tenants, hid, rfl, hins, rfl⟩ := sqlTenantInsert_ok heval
      have hfirst : exec P (.repo (.tenants (.create (newTenant input)))) (es 0) w =
          (.ok (scanTenant row), { w with db := { w.db with tenants := tenants } }) :=
        exec_pool_ok hup rfl heval rfl
      have hid := UUID.ofText?_toText row.id
      have hget : (tenants.get? row.id).isSome :=
        Option.isSome_of_eq_some (Table.get?_insert?_self hins)
      have haud : Auditable
          { tenantID := row.id.toText, eventType := "tenant.created", entityType := "tenant",
            entityID := row.id.toText, success := true } (es 1)
          { w.db with tenants := tenants } :=
        ⟨hes.connected 1, Option.isSome_of_eq_some hid, fun a ha => (nomatch ha),
          ⟨row.id, hid, hget⟩, hes.newEvent 1 2⟩
      have hlast := exec_audit_of (P := P) (w := { w with db := { w.db with tenants := tenants } })
        haud
      refine iff_of_true ((handled_call_bind hfirst).mpr ?_) (doneOrClash_ok _)
      exact (handled_call_bind (Prod.ext hlast rfl)).mpr (handled_ok _)

/-! ### Keys -/

/-- Both identifiers are UUIDs, and for an active identity and a supported type the purpose is
a free label and the actor a UUID. -/
def KeyAccepted (db : DB) (input : GenerateKeyInput) : Prop :=
  ∃ T I, UUID.ofText? input.tenantID = some T ∧ UUID.ofText? input.identityID = some I ∧
    ∀ row, db.identities.get? I = some row → row.tenantID = T → row.status = .active →
      (generatorOf input.keyType).isSome →
        Admits db I input.purpose ∧ ∀ a ∈ input.actorID, (UUID.ofText? a).isSome

theorem isKeyType_of_generatorOf {keyType : KeyType} (h : (generatorOf keyType).isSome) :
    isKeyType keyType = true := by
  cases keyType <;> first | rfl | cases h

/-- With a new identifier and all references there, the insertion of an active key depends on
its purpose alone. -/
theorem exec_createKey_cases (key : IdentityKey) (hup : ∀ k, (e.statements k).available = true)
    {T I : UUID} (hT : UUID.ofText? key.tenantID = some T)
    (hI : UUID.ofText? key.identityID = some I)
    (htype : isKeyType key.keyType = true) (hpub : key.publicKey.isSome)
    (hjwk : key.publicKeyJWK.isSome) (hactive : key.status = .active)
    (hfresh : w.db.identityKeys.get? (e.statements 2).stamp.newID = none)
    (hident : (w.db.identities.get? I).isSome) (htenant : (w.db.tenants.get? T).isSome) :
    (Admits w.db I key.purpose ∧ ∃ row keys, exec P (.repo (.keys (.create key))) e w =
      (.ok (scanKey row), { w with db := { w.db with identityKeys := keys } })) ∨
    (¬Admits w.db I key.purpose ∧
      ∃ x, (exec P (.repo (.keys (.create key))) e w).1 = .error x ∧ Unmatched x) := by
  have hn := hasNul_of_ofText? hT
  by_cases hadmits : Admits w.db I key.purpose
  · obtain ⟨keys, hins⟩ : ∃ keys, w.db.identityKeys.insert?
        (insertedKey (e.statements 2).stamp I T key) = some keys := Table.insert?_of_fresh hfresh
    have heval : sqlKeyInsert (e.statements 2).stamp w.db key =
        .ok ([insertedKey (e.statements 2).stamp I T key], { w.db with identityKeys := keys }) :=
      sqlKeyInsert_eq_ok.mpr ⟨I, T, keys, hI, hT, ⟨htype, hadmits.1⟩, ⟨hpub, hjwk⟩,
        fun _ => hadmits.2, hins, hident, htenant, rfl, rfl⟩
    exact .inl ⟨hadmits, _, keys, exec_conn_ok (q := .keyInsert key) hup rfl hn heval rfl⟩
  · refine .inr ⟨hadmits, ?_⟩
    cases heval : sqlKeyInsert (e.statements 2).stamp w.db key with
    | error code =>
      exact ⟨_, exec_conn_error (q := .keyInsert key) hup rfl hn heval rfl, (unmatched_pg _).wrap _⟩
    | ok done =>
      obtain ⟨I', T', keys, hI', -, ⟨-, hpurpose⟩, -, hfree, -⟩ := sqlKeyInsert_eq_ok.mp heval
      obtain rfl : I' = I := Option.some.inj (hI'.symm.trans hI)
      exact absurd ⟨hpurpose, hfree hactive⟩ hadmits

/-- What `GenerateKey` does with the pair (`key_service.go:71-87`). -/
def insertPair (input : GenerateKeyInput) (key : IdentityKey) : Svc Attrs IdentityKey := do
  let createdKey ← repo (.keys (.create key)) (wrapRepoError · "create key")
  writeAudit
    { tenantID := input.tenantID, eventType := "key.created", entityType := "key",
      entityID := createdKey.id, actorID := input.actorID, success := true }
  .ret createdKey

theorem insertPair_handled_iff {es : Nat → Env} {input : GenerateKeyInput} {algorithm : String}
    {generated : GeneratedKey} {T I : UUID} (hup : ∀ n k, ((es n).statements k).available = true)
    (hT : UUID.ofText? input.tenantID = some T) (hI : UUID.ofText? input.identityID = some I)
    (htype : isKeyType input.keyType = true) (hident : (w.db.identities.get? I).isSome)
    (htenant : (w.db.tenants.get? T).isSome) (hkey : w.db.identityKeys.get? (drawn es 0 2) = none)
    (hevent : w.db.auditEvents.get? (drawn es 1 2) = none) :
    Handled ((insertPair input (keyOf input.tenantID input.identityID input.keyType input.purpose
        algorithm generated) : Svc Attrs _).run (exec P) es w).1 ↔
      Admits w.db I input.purpose ∧ ∀ a ∈ input.actorID, (UUID.ofText? a).isSome := by
  unfold insertPair
  rcases exec_createKey_cases (P := P) (keyOf input.tenantID input.identityID input.keyType
    input.purpose algorithm generated) (hup 0) hT hI htype rfl rfl rfl hkey hident htenant with
    ⟨hadmits, row, keys, hexec⟩ | ⟨hadmits, x, hx, hun⟩
  · rw [handled_call_bind hexec]
    have hid := Option.isSome_of_eq_some (UUID.ofText?_toText row.id)
    rcases exec_audit_cases (P := P)
      { tenantID := input.tenantID, eventType := "key.created", entityType := "key",
        entityID := (scanKey row).id, actorID := input.actorID, success := true } (es 1)
      { w with db := { w.db with identityKeys := keys } } with ⟨haud, hok⟩ | ⟨haud, x, hx⟩
    · refine iff_of_true ?_ ⟨hadmits, haud.actor⟩
      exact (handled_call_bind (Prod.ext hok rfl)).mpr (handled_ok _)
    · have hun := (exec_audit_unmatched (hup 1) hT hx).wrap "write audit event"
      refine iff_of_false (fun h => hun.not_classified ((handled_call_error hx).mp h)) fun h => ?_
      exact haud ⟨⟨hup 1 0, hup 1 1, hup 1 2⟩, hid, h.2, ⟨T, hT, htenant⟩, hevent⟩
  · refine iff_of_false (fun h => ?_) fun h => hadmits h.1
    exact (hun.wrapRepoError _).not_classified ((handled_call_error hx).mp h)

theorem generateKey_handled_iff {es : Nat → Env} (hdb : Constrained w.db)
    (hes : Undisturbed es w.db) (input : GenerateKeyInput) :
    Handled ((generateKey input : Svc Attrs _).run (exec P) es w).1 ↔ KeyAccepted w.db input := by
  unfold generateKey
  rcases exec_getIdentity_cases (P := P) (w := w) (hes.available 0) input.tenantID
    input.identityID with ⟨hbad, x, hx, hun⟩ | ⟨T, I, hT, hI,
      ⟨hnone, hx⟩ | ⟨row, hrow, hrowT, hget⟩⟩
  · refine iff_of_false (fun h => ?_) ?_
    · exact (hun.wrapRepoError _).not_classified ((handled_call_error hx).mp h)
    · rintro ⟨T, I, hT, hI, -⟩
      rcases hbad with hbad | hbad
      · cases hbad.symm.trans hT
      · cases hbad.symm.trans hI
  · refine iff_of_true ((handled_call_error hx).mpr ?_) ⟨T, I, hT, hI, fun row hrow hrowT => ?_⟩
    · exact classified_wrapRepoError.mpr (classified_notFound _ _)
    · exact absurd hrowT (hnone row hrow)
  rw [handled_call_bind (Prod.ext hget (exec_read rfl (es 0) w))]
  have hsame : ∀ row', w.db.identities.get? I = some row' → row' = row := fun row' hrow' =>
    Option.some.inj (hrow'.symm.trans hrow)
  by_cases hactive : (scanIdentity row : Identity Attrs).status ≠ .active
  · refine iff_of_true ?_ ⟨T, I, hT, hI, fun row' hrow' _ hactive' => ?_⟩
    · rw [refuseIf, if_pos hactive]
      exact handled_error.mpr (classified_sentinel (by decide))
    · exact absurd (hsame row' hrow' ▸ hactive') hactive
  rw [run_refuseIf_bind _ hactive]
  cases htype : generatorOf input.keyType with
  | none =>
    refine iff_of_true ?_ ⟨T, I, hT, hI, fun _ _ _ _ hsome => ?_⟩
    · rw [generateKeyPair, htype]
      exact handled_error.mpr (classified_validation _ _)
    · rw [htype] at hsome
      cases hsome
  | some generator =>
    obtain ⟨generator, algorithm⟩ := generator
    have hsupported := Option.isSome_of_eq_some htype
    have haccepted : KeyAccepted w.db input ↔
        Admits w.db I input.purpose ∧ ∀ a ∈ input.actorID, (UUID.ofText? a).isSome := by
      constructor
      · rintro ⟨T', I', hT', hI', h⟩
        cases hT.symm.trans hT'
        cases hI.symm.trans hI'
        exact h row hrow hrowT (not_not.mp hactive) hsupported
      · exact fun h => ⟨T, I, hT, hI, fun _ _ _ _ _ => h⟩
    have htenant : (w.db.tenants.get? T).isSome :=
      hrowT ▸ hdb.identityTenant row (Table.get?_eq_some.mp hrow).1
    obtain ⟨secret, hsecret⟩ := Option.isSome_iff_exists.mp (hes.secret 1)
    obtain ⟨generated, hgen⟩ := exec_generateKey_of (P := P) generator
      (cryptoKeyID_ne input.tenantID input.identityID input.keyType) hsecret w
    rw [run_generateKeyPair_bind htype hgen, haccepted]
    exact insertPair_handled_iff (fun n => hes.available (n + 2)) hT hI
      (isKeyType_of_generatorOf hsupported) (Option.isSome_of_eq_some hrow) htenant (hes.newKey 2 2)
      (hes.newEvent 3 2)

/-! ### Identities -/

/-- There are no attributes, or they can be marshalled and sealed. -/
def Encrypts (P : Primitives Attrs) (attrs : Attrs) : Prop :=
  P.isEmpty attrs = true ∨ (P.marshal attrs).isSome ∧ P.masterKey.length = 32

/-- The call of `CreateIdentity` that inserts: one for the tenant comes before it, and one for
the attributes if there are any. -/
def insertCall (P : Primitives Attrs) (input : CreateIdentityInput Attrs) : Nat :=
  if P.isEmpty input.attributes then 1 else 2

/-- The tenant is a UUID, and for an active one the columns take the values, and the handle is
taken or the creator is known. -/
def IdentityAccepted (P : Primitives Attrs) (db : DB) (input : CreateIdentityInput Attrs)
    (self : UUID) : Prop :=
  (∃ x, validateCreateIdentityInput input = .error x) ∨
    ∃ T, UUID.ofText? input.tenantID = some T ∧
      ∀ row, db.tenants.get? T = some row → row.status = .active →
        Encrypts P input.attributes ∧
        IdentityStorable input.type input.displayName input.handle input.createdBy ∧
        (HandleTaken db T input.handle ∨ CreatorKnown db input.createdBy self)

theorem classified_validateIdentity {input : CreateIdentityInput Attrs} {x : Error}
    (h : validateCreateIdentityInput input = .error x) : Classified x := by
  unfold validateCreateIdentityInput at h
  repeat' split at h
  all_goals cases h
  all_goals exact classified_validation _ _

theorem run_encryptAttributes_cases (es : Nat → Env) (hiv : (es 0).iv.isSome) (attrs : Attrs) :
    (Encrypts P attrs ∧ ∃ bytes, (encryptAttributes P attrs).run (exec P) es w =
      (.ok (.ok bytes), w) ∧
      ((encryptAttributes P attrs).trace (exec P) es w).length + 1 =
        if P.isEmpty attrs then 1 else 2) ∨
    (¬Encrypts P attrs ∧ ∃ x, (encryptAttributes P attrs).run (exec P) es w = (.ok (.error x), w) ∧
      Unmatched x) := by
  unfold encryptAttributes Encrypts
  cases hempty : P.isEmpty attrs with
  | true => exact .inl ⟨.inl rfl, none, rfl, rfl⟩
  | false =>
    cases hplain : P.marshal attrs with
    | none =>
      refine .inr ⟨?_, _, rfl, fun _ => rfl⟩
      rintro (h | ⟨h, -⟩)
      · cases h
      · cases h
    | some plaintext =>
      obtain ⟨iv, hiv⟩ := Option.isSome_iff_exists.mp hiv
      simp only [Bool.false_eq_true, if_false, false_or, Option.isSome_some, true_and,
        Program.run_call, Program.trace, exec, encrypt, hiv]
      by_cases hlength : P.masterKey.length = 32
      · rw [if_neg (not_not.mpr hlength)]
        exact .inl ⟨hlength, _, rfl, rfl⟩
      · rw [if_pos hlength]
        exact .inr ⟨hlength, _, rfl, fun _ => rfl⟩

theorem exec_create_cases (ident : Identity Attrs) (hup : ∀ k, (e.statements k).available = true)
    {T : UUID} (hT : UUID.ofText? ident.tenantID = some T) (htenant : (w.db.tenants.get? T).isSome)
    (hevent : w.db.auditEvents.get? (e.statements 4).stamp.newID = none) :
    (∃ code, (insertQuery ident).eval (e.statements 3).stamp w.db = .error code ∧
      (exec P (.repo (.identities (.create ident))) e w).1 =
        .error (ifUnique .handleTaken "postgres: insert identity" (.pg (.server code)))) ∨
    ∃ row ids events entry, (insertQuery ident).eval (e.statements 3).stamp w.db =
        .ok ([row], { w.db with identities := ids }) ∧
      row.id = (e.statements 3).stamp.newID ∧
      w.db.auditEvents.insert? entry = some events ∧ entry.id = (e.statements 4).stamp.newID ∧
      exec P (.repo (.identities (.create ident))) e w = (.ok (scanIdentity row),
        { w with db := { w.db with identities := ids, auditEvents := events } }) := by
  have hn := hasNul_of_ofText? hT
  cases heval : (insertQuery ident).eval (e.statements 3).stamp w.db with
  | error code =>
    have hperform : perform (IdentityRepo.create e.now ident) e.statements w.db = _ :=
      perform_create_error hup hn heval
    exact .inl ⟨code, rfl, congrArg Prod.fst hperform⟩
  | ok done =>
    obtain ⟨rows, db'⟩ := done
    obtain ⟨T', a, iv, by_, ids, hT', -, -, hby, hins, rfl, rfl⟩ := sqlIdentityInsert_ok heval
    cases hT.symm.trans hT'
    let row := insertedIdentity (e.statements 3).stamp T ident.type ident.displayName ident.handle
      ident.status a iv by_
    obtain ⟨entry, events, hid, hlog, haudit⟩ := createdQuery_ok e.now row
      { w.db with identities := ids } hT htenant hby hevent
    have hperform : perform (IdentityRepo.create e.now ident) e.statements w.db = _ :=
      perform_create_done hup hn heval haudit
    exact .inr ⟨_, ids, events, entry, rfl, rfl, hlog, hid,
      congrArg (fun p => (p.1, { w with db := p.2 })) hperform⟩

section Creation

variable {input : CreateIdentityInput Attrs} {es : Nat → Env}

theorem identityAccepted_iff {db : DB} {self T : UUID} {row : TenantRow}
    (hvalid : validateCreateIdentityInput input = .ok ())
    (hT : UUID.ofText? input.tenantID = some T) (hrow : db.tenants.get? T = some row)
    (hactive : row.status = .active) :
    IdentityAccepted P db input self ↔ Encrypts P input.attributes ∧
      IdentityStorable input.type input.displayName input.handle input.createdBy ∧
      (HandleTaken db T input.handle ∨ CreatorKnown db input.createdBy self) := by
  constructor
  · rintro (⟨x, hx⟩ | ⟨T', hT', h⟩)
    · cases hvalid.symm.trans hx
    · cases hT.symm.trans hT'
      exact h row hrow hactive
  · exact fun h => .inr ⟨T, hT, fun _ _ _ => h⟩

/-- A tenant that is found stands in the table. -/
theorem tenant_of_exec (hup : ∀ k, (e.statements k).available = true) {id : String}
    {tenant : Tenant}
    (h : (exec P (.repo (.tenants (.getByID id))) e w).1 = .ok tenant) :
    ∃ T row, UUID.ofText? id = some T ∧ w.db.tenants.get? T = some row ∧
      tenant.status = row.status := by
  rcases exec_getTenant_cases (P := P) (w := w) hup id with
    ⟨-, x, hx, -⟩ | ⟨T, hT, ⟨-, hx⟩ | ⟨row, hrow, hok⟩⟩
  · cases h.symm.trans hx
  · cases h.symm.trans hx
  · cases h.symm.trans hok
    exact ⟨T, row, hT, hrow, rfl⟩

theorem insertCall_of_run (hes : Undisturbed es w.db) {attrs : Option Bytes}
    (h : (encryptAttributes P input.attributes).run (exec P) (fun n => es (n + 1)) w =
      (.ok (.ok attrs), w)) :
    Encrypts P input.attributes ∧ encryptCalls P input es w + 1 = insertCall P input := by
  rcases run_encryptAttributes_cases (P := P) (w := w) (fun n => es (n + 1)) (hes.iv 1)
    input.attributes with ⟨henc, -, -, hcalls⟩ | ⟨-, x, hx, -⟩
  · exact ⟨henc, hcalls⟩
  · cases h.symm.trans hx

theorem insertion_accepted_iff (hes : Undisturbed es w.db) (attrs : Option Bytes)
    {T : UUID} {n : Nat}
    (hT : UUID.ofText? input.tenantID = some T) (htenant : (w.db.tenants.get? T).isSome) :
    DoneOrClash ((insertQuery (pendingIdentity input attrs)).eval
      ((es n).statements 3).stamp w.db) ↔
      IdentityStorable input.type input.displayName input.handle input.createdBy ∧
        (HandleTaken w.db T input.handle ∨ CreatorKnown w.db input.createdBy (drawn es n 3)) :=
  doneOrClash_identityInsert hT htenant (hes.newIdentity n 3)

theorem notInserted_handled_iff (hes : Undisturbed es w.db) {x : Error}
    (h : NotInserted P input es w x) :
    Classified x ↔ IdentityAccepted P w.db input (drawn es (insertCall P input) 3) := by
  cases h with
  | invalid h => exact iff_of_true (classified_validateIdentity h) (.inl ⟨x, h⟩)
  | tenant hvalid h =>
    rcases exec_getTenant_cases (P := P) (w := w) (hes.available 0) input.tenantID with
      ⟨hbad, y, hy, hun⟩ | ⟨T, hT, ⟨hnone, hy⟩ | ⟨row, hrow, hok⟩⟩
    · cases h.symm.trans hy
      refine iff_of_false (hun.wrapRepoError _).not_classified ?_
      rintro (⟨x, hx⟩ | ⟨T, hT, -⟩)
      · cases hvalid.symm.trans hx
      · cases hbad.symm.trans hT
    · cases h.symm.trans hy
      refine iff_of_true (classified_wrapRepoError.mpr (classified_notFound _ _)) ?_
      exact .inr ⟨T, hT, fun row hrow => absurd (hnone.symm.trans hrow) (fun h => nomatch h)⟩
    · cases h.symm.trans hok
  | inactive hvalid h hstatus =>
    obtain ⟨T, row, hT, hrow, hsame⟩ := tenant_of_exec (hes.available 0) h
    refine iff_of_true (classified_sentinel (by decide))
      (.inr ⟨T, hT, fun row' hrow' hactive => ?_⟩)
    cases hrow.symm.trans hrow'
    exact absurd (hsame.trans hactive) hstatus
  | encryption hvalid htenant hactive h =>
    obtain ⟨T, row, hT, hrow, hsame⟩ := tenant_of_exec (hes.available 0) htenant
    rw [identityAccepted_iff hvalid hT hrow (hsame.symm.trans hactive)]
    rcases run_encryptAttributes_cases (P := P) (w := w) (fun n => es (n + 1)) (hes.iv 1)
      input.attributes with ⟨-, _, hok, -⟩ | ⟨hnot, y, hy, hun⟩
    · cases h.symm.trans hok
    · cases h.symm.trans hy
      exact iff_of_false (hun.wrap _).not_classified fun h => hnot h.1
  | insertion hvalid htenant hactive hattrs h =>
    obtain ⟨T, row, hT, hrow, hsame⟩ := tenant_of_exec (hes.available 0) htenant
    obtain ⟨henc, hcalls⟩ := insertCall_of_run hes hattrs
    have hthere := Option.isSome_of_eq_some hrow
    rw [hcalls] at h
    rw [identityAccepted_iff hvalid hT hrow (hsame.symm.trans hactive), and_iff_right henc,
      ← insertion_accepted_iff hes _ hT hthere]
    rcases exec_create_cases (P := P) (pendingIdentity input _) (hes.available (insertCall P input))
      hT hthere (hes.newEvent _ 4) with ⟨code, heval, hexec⟩ | ⟨row, ids, events, entry, heval, -,
        -, -, hexec⟩
    · cases h.symm.trans hexec
      rw [classified_ifUnique (classified_sentinel (by decide)), heval, doneOrClash_error]
    · cases h.symm.trans (congrArg Prod.fst hexec)

/-- Nothing that is drawn for the key and the last event stands in the way of the rest. -/
theorem keyBound_of_undisturbed (hdb : Constrained w.db) (hes : Undisturbed es w.db) {n : Nat}
    (hn : n < 4) (ids : Table IdentityRow.id) {events : Table AuditRow.id} {entry : AuditRow}
    (hlog : w.db.auditEvents.insert? entry = some events) (hid : entry.id = drawn es n 4) :
    KeyBound (drawn es n 3) (fun m => es (n + m + 1))
      { w.db with identities := ids, auditEvents := events } where
  secret := hes.secret _
  key :=
    { connected := hes.connected _
      fresh := hes.newKey _ _
      only := by
        -- the identity is new, so no key can refer to it
        intro r hr _ hrI
        have hsome := hdb.keyIdentity r hr
        rw [hrI, hes.newIdentity n 3] at hsome
        cases hsome }
  primary := hes.connected _
  status := hes.connected _
  audit := hes.connected _
  auditFresh := by
    have hne : drawn es n 4 ≠ drawn es (n + 4 + 1) 2 :=
      hes.apart n (n + 4 + 1) 4 2 (by omega) (by omega) (by omega) (by omega)
    change events.get? (drawn es (n + 4 + 1) 2) = none
    rw [Table.get?_insert? hlog, hid, if_neg hne]
    exact hes.newEvent _ _

theorem createIdentity_handled_iff (hdb : Constrained w.db) (hes : Undisturbed es w.db) :
    Handled ((createIdentity P input).run (exec P) es w).1 ↔
      IdentityAccepted P w.db input (drawn es (insertCall P input) 3) := by
  rcases createIdentity_cases P input es w with ⟨x, hrun, hnot⟩ | ⟨attrs, created, hins, hrun⟩
  · rw [hrun, handled_error]
    exact notInserted_handled_iff hes hnot
  · obtain ⟨tenant, htenant, hactive⟩ := hins.tenant
    obtain ⟨T, row, hT, hrow, hsame⟩ := tenant_of_exec (hes.available 0) htenant
    obtain ⟨henc, hcalls⟩ := insertCall_of_run hes hins.encrypted
    have hthere := Option.isSome_of_eq_some hrow
    rw [identityAccepted_iff hins.valid hT hrow (hsame.symm.trans hactive), and_iff_right henc,
      ← insertion_accepted_iff hes attrs hT hthere]
    have hstored := hins.stored
    rw [hcalls] at hstored
    rcases exec_create_cases (P := P) (pendingIdentity input attrs)
      (hes.available (insertCall P input)) hT hthere (hes.newEvent _ 4) with
      ⟨code, heval, hexec⟩ | ⟨row, ids, events, entry, heval, hid, hlog, hentry, hexec⟩
    · cases hstored.symm.trans hexec
    · refine iff_of_true ?_ (heval ▸ doneOrClash_ok _)
      cases hstored.symm.trans (congrArg Prod.fst hexec)
      obtain ⟨T', I, hT', hI, -, hident, htenant, hby⟩ := exec_create_ok hstored
      have hsmall : insertCall P input < 4 := by
        unfold insertCall
        split <;> decide
      have hbound := keyBound_of_undisturbed hdb hes hsmall ids hlog hentry
      have hnew : drawn es (insertCall P input) 3 = I :=
        hid.symm.trans (Option.some.inj ((UUID.ofText?_toText row.id).symm.trans hI))
      rw [hnew] at hbound
      have hshift : (fun n => es (encryptCalls P input es w + n + 2)) =
          fun n => es (insertCall P input + n + 1) :=
        funext fun n => congrArg es (by omega)
      obtain ⟨out, hout⟩ :=
          (bindKey_succeeds_iff (P := P) (fun n => es (insertCall P input + n + 1))
        hT' hI hident htenant hby).mpr (hexec ▸ hbound)
      rw [hrun, hshift, hcalls, hout]
      exact handled_ok out

end Creation

/-- With no failure of the infrastructure, the three operations end with an internal error
exactly when a value passes the validators and its column or a reference does not take it. -/
theorem failures_classified_iff (P : Primitives Attrs) (es : Nat → Env) (w : World)
    (hdb : Constrained w.db) (hes : Undisturbed es w.db) :
    (∀ input : CreateTenantInput,
      Handled ((createTenant input : Svc Attrs _).run (exec P) es w).1 ↔ TenantAccepted input) ∧
    (∀ input : CreateIdentityInput Attrs,
      Handled ((createIdentity P input).run (exec P) es w).1 ↔
        IdentityAccepted P w.db input (drawn es (insertCall P input) 3)) ∧
    ∀ input : GenerateKeyInput,
      Handled ((generateKey input : Svc Attrs _).run (exec P) es w).1 ↔ KeyAccepted w.db input :=
  ⟨createTenant_handled_iff hes, fun _ => createIdentity_handled_iff hdb hes,
    generateKey_handled_iff hdb hes⟩

/-- Everything works, and each of ten calls draws an identifier of its own. -/
def steady (n : Nat) : Env := calm (100 + n % 10)

theorem constrained_keyedWorld : Constrained keyedWorld.db := by
  constructor <;> decide +kernel

theorem undisturbed_steady : Undisturbed steady keyedWorld.db where
  available _ _ := rfl
  iv _ := rfl
  secret _ := rfl
  newTenant n _ := by
    have hall : ∀ i < 10, keyedWorld.db.tenants.get? (.ofNat (100 + i)) = none := by decide +kernel
    exact hall (n % 10) (Nat.mod_lt n (by decide))
  newIdentity n _ := by
    have hall : ∀ i < 10, keyedWorld.db.identities.get? (.ofNat (100 + i)) = none := by
      decide +kernel
    exact hall (n % 10) (Nat.mod_lt n (by decide))
  newKey n _ := by
    have hall : ∀ i < 10, keyedWorld.db.identityKeys.get? (.ofNat (100 + i)) = none := by
      decide +kernel
    exact hall (n % 10) (Nat.mod_lt n (by decide))
  newEvent _ _ := rfl
  apart n m _ _ hnm hm _ _ := by
    have hall : ∀ m < 10, ∀ n < m, UUID.ofNat (100 + n % 10) ≠ UUID.ofNat (100 + m % 10) := by
      decide +kernel
    exact hall m hm n hnm

/-- A handle that is free and a creator that is nobody. -/
def strangerInput : CreateIdentityInput Bytes :=
  { tenantID := (UUID.ofNat 1).toText, type := .human, displayName := "Grace", handle := "grace",
    createdBy := some (UUID.ofNat 3).toText, attributes := [] }

/-- A second active key for signing. -/
def secondKeyInput : GenerateKeyInput :=
  { tenantID := (UUID.ofNat 1).toText, identityID := (UUID.ofNat 2).toText, keyType := .ed25519,
    purpose := .signing, actorID := none }

theorem failures_classified_keyedWorld :
    Handled ((generateKey { secondKeyInput with purpose := .authentication } : Svc Bytes _).run
      (exec plainPrimitives) steady keyedWorld).1 ∧
    ¬Handled ((generateKey secondKeyInput : Svc Bytes _).run (exec plainPrimitives) steady
      keyedWorld).1 := by
  have h := (failures_classified_iff plainPrimitives steady keyedWorld constrained_keyedWorld
    undisturbed_steady).2.2
  have hT := UUID.ofText?_toText (.ofNat 1)
  have hI := UUID.ofText?_toText (.ofNat 2)
  constructor
  · have hfree : Admits keyedWorld.db (.ofNat 2) .authentication := by
      unfold Admits
      decide +kernel
    exact (h _).mpr ⟨_, _, hT, hI, fun _ _ _ _ _ => ⟨hfree, fun _ ha => (nomatch ha)⟩⟩
  · intro hh
    obtain ⟨T, I, hT', hI', hall⟩ := (h _).mp hh
    cases hT.symm.trans hT'
    cases hI.symm.trans hI'
    have hused : ¬Admits keyedWorld.db (.ofNat 2) .signing := by
      unfold Admits
      decide +kernel
    exact hused (hall adaRow rfl rfl rfl rfl).1

/-- The call ends with an error that both transports take for an internal one. -/
def endsInternal (r : Except Error α) : Bool :=
  match r with
  | .ok _ => false
  | .error x => (Grpc.toGRPCError x).code == .internal &&
    (Http.writeServiceError x : Http.Response Unit).status == 500

/-- An unknown tier, a creator that is nobody and a second active key for signing. -/
theorem unclassified_failures :
    Constrained keyedWorld.db ∧ Undisturbed steady keyedWorld.db ∧
      endsInternal ((createTenant ⟨"Initech", "initech", .other "gold", ""⟩ : Svc Bytes _).run
        (exec plainPrimitives) steady keyedWorld).1 = true ∧
      endsInternal ((createIdentity plainPrimitives strangerInput).run (exec plainPrimitives) steady
        keyedWorld).1 = true ∧
      endsInternal ((generateKey secondKeyInput : Svc Bytes _).run (exec plainPrimitives) steady
        keyedWorld).1 = true :=
  ⟨constrained_keyedWorld, undisturbed_steady, by decide +kernel, by decide +kernel,
    by decide +kernel⟩

end Verion.Service
