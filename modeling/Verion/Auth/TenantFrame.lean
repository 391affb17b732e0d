import Verion.Auth.Runs
import Verion.Http.Isolation
import Verion.Service.Credentials

/-!
# The tenant frame of the services

An operation that is called with a tenant changes rows of this tenant only, in all
five tables, and returns none but its identities, keys and credentials. The
`WHERE` clauses and the inserted values alone ensure it.
-/

namespace Verion.Auth

open Calls Postgres Service

variable {Attrs α : Type}

/-- The rows of the tenants other than `A`, in all five tables. -/
def others (A : Option UUID) (db : DB) :
    (List TenantRow × List IdentityRow × List KeyRow × List AuditRow) × List CredentialRow :=
  (db.outside A, db.credentials.rows.filter fun r => decide (some r.tenantID ≠ A))

/-- The tenants of the identities and keys that a service returns. -/
def serviceRows : Service.Response Attrs → List String
  | .identity i => [i.tenantID]
  | .identities is => is.map Identity.tenantID
  | .identityWithKeys i => i.identity.tenantID :: i.keys.map IdentityKey.tenantID
  | .key k => [k.tenantID]
  | .keys ks => ks.map IdentityKey.tenantID
  | .none | .tenant _ => []

/-- The tenants of the identities, keys and credentials in a response. -/
def Response.tenantIDs : Response Attrs → List String
  | .service r => serviceRows r
  | .registered result => [result.credential.tenantID]
  | .asserted ident => [ident.tenantID]
  | .http _ | .options .. => []

/-- The tenant an operation is called with. -/
def serviceTenant : Service.Request Attrs → Option String
  | .createIdentity input => some input.tenantID
  | .updateIdentity input => some input.tenantID
  | .generateKey input => some input.tenantID
  | .getIdentity tenantID _ | .getIdentityByHandle tenantID _ | .listIdentities tenantID _
  | .deactivateIdentity tenantID .. | .suspendIdentity tenantID ..
  | .reactivateIdentity tenantID .. | .getKey tenantID _ | .listKeys tenantID _
  | .rotateKey tenantID .. | .revokeKey tenantID .. | .markCompromised tenantID _ => some tenantID
  | .getTenant id | .suspendTenant id | .activateTenant id => some id
  | .createTenant _ | .getTenantBySlug _ | .deleteKey _ => none

def Request.tenant : Request Attrs → Option String
  | .service req => serviceTenant req
  | .beginRegistration tenantID _ | .finishRegistration tenantID .. | .beginAssertion tenantID _
  | .finishAssertion tenantID .. | .registerComplete tenantID ..
  | .loginComplete tenantID .. => some tenantID
  | .registerBegin body | .loginBegin body => body.map Prod.fst

/-- What a call came to leaves the rows of all tenants other than `A` and returns rows of
`A` only. -/
structure Framed (A : Option UUID) (w : World) (out : Except AuthError (Response Attrs) × World) :
    Prop where
  kept : others A out.2.svc.db = others A w.svc.db
  returned : ∀ resp, out.1 = .ok resp → ∀ t ∈ resp.tenantIDs, UUID.ofText? t = A

/-- The tenant that a call is on: the one it was called with; for `CreateTenant` the one it
creates, which is new. Without a tenant every row is another's. -/
def On (req : Request Attrs) (w : World) (out : Except AuthError (Response Attrs) × World)
    (A : Option UUID) : Prop :=
  match req with
  | .service (.createTenant _) => (∀ T, A = some T → w.svc.db.tenants.get? T = none) ∧
      ∀ t, out.1 = .ok (.service (.tenant t)) → UUID.ofText? t.id = A
  | req => A = req.tenant.bind UUID.ofText?

/-! ### One call -/

section Step

variable {A : Option UUID}

/-- The credential calls that name the tenant. -/
def CredentialsOwn (A : Option UUID) : Service.Op Attrs → Prop
  | .repo (.credentials (.create cred)) => Own A cred.tenantID
  | .repo (.credentials (.updateSignCount tenantID ..))
  | .repo (.credentials (.updateLastUsed tenantID ..))
  | .repo (.credentials (.revoke tenantID _)) => Own A tenantID
  | _ => True

theorem credentials_kept {c : Service.Op Attrs} {creds creds' : Credentials}
    (h : CredentialStep c creds creds') (hc : CredentialsOwn A c) :
    (creds'.rows.filter fun r => decide (some r.tenantID ≠ A)) =
      creds.rows.filter fun r => decide (some r.tenantID ≠ A) := by
  cases h with
  | quiet => rfl
  | created cred row _ _ hT _ _ hins => exact Table.filter_insert? hins (by simp [hc _ hT])
  | updated c tenantID id f hf T I _ hu hT hI =>
    have hA : A = some T := by cases hu <;> exact hc T hT
    refine Table.filter_update fun r hr => ?_
    have htenant : (f r).tenantID = r.tenantID := by cases hu <;> rfl
    simp only [credentialAt, Bool.and_eq_true, decide_eq_true_eq] at hr
    simp [htenant, hr.1, hA]

/-- A call of the services that leaves the other tenants. -/
def Keeps (P : Primitives Attrs) (A : Option UUID) (c : Service.Op Attrs) : Prop :=
  Http.Harmless P A c ∧ CredentialsOwn A c

theorem Keeps.exec {P : Primitives Attrs} {c : Service.Op Attrs} (hc : Keeps P A c)
    (e : Service.Env) (w : Service.World) :
    others A (Service.exec P c e w).2.db = others A w.db :=
  Prod.ext (hc.1 e w) (credentials_kept (exec_credentialStep P c e w) hc.2)

end Step

/-! ### Services -/

section Services

variable {P : Primitives Attrs} {A : Option UUID} {h : List (Ev Attrs)}

theorem own_tenant (text : String) : Own (UUID.ofText? text) text := fun _ hT => hT

theorem respond_isolated {rows : α → List String} {f : α → Service.Response Attrs}
    {p : Svc Attrs α} (hp : p.Obeys (Service.exec P) (Http.isolation P A rows) h)
    (hrows : ∀ a, serviceRows (f a) = rows a) :
    (Service.respond f p).Obeys (Service.exec P) (Http.isolation P A serviceRows) h := by
  refine Service.obeys_respond (hp.mono ?_ ?_)
  · exact fun _ _ hc => hc
  · intro h x hx resp hresp t ht
    cases x with
    | error e => cases hresp
    | ok a =>
      cases hresp
      exact hx a rfl t (hrows a ▸ ht)

/-- What returns no rows is isolated by its calls. -/
theorem respond_only {f : α → Service.Response Attrs} {p : Svc Attrs α}
    (hp : p.Only (Http.Harmless P A)) (hrows : ∀ a, serviceRows (f a) = []) :
    (Service.respond f p).Obeys (Service.exec P) (Http.isolation P A serviceRows) h :=
  respond_isolated (Http.obeys_only hp) hrows

theorem createIdentity_isolated {input : CreateIdentityInput Attrs} (hown : Own A input.tenantID) :
    (createIdentity P input).Obeys (Service.exec P) (Http.isolation P A fun i =>
      i.identity.tenantID :: i.keys.map IdentityKey.tenantID) h := by
  have harmless : ∀ c : RepoCall Attrs, c.Keeps A → Http.Harmless P A (.repo c) :=
    fun _ => Http.harmless_repo
  have free : ∀ {β : Type} {q : Svc Attrs β} {f : β → Svc Attrs (IdentityWithKeys Attrs)}
      {h : List (Ev Attrs)}, q.Only (Http.Harmless P A) →
      (∀ a h', (f a).Obeys (Service.exec P) (Http.isolation P A fun i =>
        i.identity.tenantID :: i.keys.map IdentityKey.tenantID) h') →
      (q >>= f).Obeys (Service.exec P) (Http.isolation P A fun i =>
        i.identity.tenantID :: i.keys.map IdentityKey.tenantID) h :=
    fun hq hf => hq.obeys_bind (fun _ _ hc => hc) (fun _ _ => Http.isolation_error _)
      fun a h' _ _ => hf a h'
  refine free (Service.only_orFail _ _) fun _ h => ?_
  refine free (Http.only_keeps (.tenants (.getByID _)) trivial _) fun tenant h => ?_
  refine free (Service.only_refuseIf _ _) fun _ h => ?_
  refine free (only_encryptAttributes Http.harmless_encrypt _) fun enc h => ?_
  refine free (Service.only_orFail _ _) fun encryptedAttrs h => ?_
  refine Service.obeys_repo_bind (harmless _ hown) (fun created hp => ?_)
    fun _ => Http.isolation_error _
  obtain ⟨e, w, hok⟩ := hp
  obtain ⟨st, T, by_, hT, -, -, rfl⟩ := exec_createIdentity_ok hok
  refine free ⟨Http.harmless_generateKey _ _, Service.only_orFail _⟩ fun generated h => ?_
  refine Service.obeys_repo_bind (harmless _ (.inl hown)) (fun createdKey hp => ?_)
    fun _ => Http.isolation_error _
  obtain ⟨e, w, hok⟩ := hp
  obtain ⟨T', hT', hkey, -⟩ := Http.createdKey_ok hok
  refine free (Http.only_keeps (.identities (.setPrimaryKey ..)) hown _) fun _ h => ?_
  refine free (Http.only_keeps (.identities (.updateStatus ..)) hown _) fun _ h => ?_
  refine free (Http.only_audit hown) fun _ h => ?_
  rintro _ ⟨⟩ t ht
  rcases List.mem_cons.mp ht with rfl | ht
  · exact (UUID.ofText?_toText T).trans (hown T hT).symm
  · rw [List.mem_singleton.mp ht, hkey]
    exact (UUID.ofText?_toText T').trans (hown T' hT').symm

theorem listKeys_isolated {tenantID identityID : String} (hown : Own A tenantID) :
    (listKeys tenantID identityID : Svc Attrs _).Obeys (Service.exec P)
      (Http.isolation P A fun ks => ks.map IdentityKey.tenantID) h := by
  refine ⟨Http.harmless_repo trivial, fun r hr => ?_⟩
  cases r with
  | error e => exact Http.isolation_error _
  | ok keys =>
    obtain ⟨e, w, hok⟩ := hr
    obtain ⟨T, -, hT, -, hkeys⟩ := listKeys_ok hok
    rintro _ ⟨⟩ t ht
    obtain ⟨key, hkey, rfl⟩ := List.mem_map.mp ht
    rw [hkeys key hkey, UUID.ofText?_toText, hown T hT]

/-- An operation on a tenant is isolated. -/
theorem service_isolated (req : Service.Request Attrs) (hreq : ∀ input, req ≠ .createTenant input) :
    (req.program P).Obeys (Service.exec P)
      (Http.isolation P ((serviceTenant req).bind UUID.ofText?) serviceRows) h := by
  cases req with
  | createIdentity input =>
    exact respond_isolated (createIdentity_isolated (own_tenant _)) fun _ => rfl
  | getIdentity tenantID id =>
    exact respond_isolated (Http.getIdentity_isolated fun _ => own_tenant _) fun _ => rfl
  | getIdentityByHandle tenantID handle =>
    exact respond_isolated (Http.getIdentityByHandle_isolated fun _ => own_tenant _) fun _ => rfl
  | listIdentities tenantID filter =>
    exact respond_isolated (Http.listIdentities_isolated (own_tenant _) _) fun _ => rfl
  | updateIdentity input =>
    exact respond_isolated (Http.updateIdentity_isolated fun _ _ _ _ _ _ _ => own_tenant _)
      fun _ => rfl
  | deactivateIdentity | suspendIdentity | reactivateIdentity =>
    exact respond_isolated (Http.changeStatus_isolated fun _ => own_tenant _) fun _ => rfl
  | generateKey input =>
    exact respond_isolated (Http.generateKey_isolated fun _ _ _ => own_tenant _) fun _ => rfl
  | getKey =>
    exact respond_isolated (Http.getKey_isolated fun _ => own_tenant _) fun _ => rfl
  | listKeys => exact respond_isolated (listKeys_isolated (own_tenant _)) fun _ => rfl
  | rotateKey =>
    exact respond_isolated (Http.rotateKey_isolated fun _ _ => own_tenant _) fun _ => rfl
  | revokeKey => exact respond_isolated (Http.revokeKey_isolated fun _ => own_tenant _) fun _ => rfl
  | markCompromised tenantID keyID =>
    exact respond_only (Http.only_keeps (.keys (.markCompromised ..)) (own_tenant _) _) fun _ => rfl
  | deleteKey keyRef =>
    exact respond_only ⟨fun e w => congrArg (DB.outside _) (delete_db keyRef w),
      Service.only_orFail _⟩ fun _ => rfl
  | createTenant input => exact absurd rfl (hreq input)
  | getTenant id => exact respond_only (Http.only_keeps (.tenants (.getByID _)) trivial _) fun _ =>
      rfl
  | getTenantBySlug slug =>
    exact respond_only (Http.only_keeps (.tenants (.getBySlug _)) trivial _) fun _ => rfl
  | suspendTenant id =>
    exact respond_isolated (Http.suspendTenant_isolated (own_tenant _)) fun _ => rfl
  | activateTenant id =>
    exact respond_isolated (Http.activateTenant_isolated (own_tenant _)) fun _ => rfl

theorem service_credentials (req : Service.Request Attrs) :
    (req.program P).Only (CredentialsOwn A) :=
  (Service.program_only P req).mono fun c hc => by cases hc <;> trivial

end Services

/-! ### The operations -/

section Operations

variable {D : Deps Attrs} {A : Option UUID}

/-- `CreateTenant` adds a tenant that was not there and its event. -/
theorem createTenant_framed {P : Primitives Attrs} (input : CreateTenantInput)
    (w : Service.World) :
    (createTenant input : Svc Attrs Tenant).Ends (Service.exec P) (fun r w' =>
      ∃ A, (∀ T, A = some T → w.db.tenants.get? T = none) ∧ others A w'.db = others A w.db ∧
        ∀ t, r = .ok t → UUID.ofText? t.id = A) w := by
  have hnone : ∀ e : Error, ∃ A : Option UUID, (∀ T, A = some T → w.db.tenants.get? T = none) ∧
      others A w.db = others A w.db ∧
      ∀ t : Tenant, Except.error e = .ok t → UUID.ofText? t.id = A :=
    fun e => ⟨none, fun _ h => (nomatch h), rfl, fun _ h => nomatch h⟩
  refine Service.ends_orFail_bind (fun _ _ => ?_) fun e _ => hnone _
  refine Service.ends_repo_bind (fun e created hok => ?_) fun _ => hnone _
  obtain ⟨row, tenants, hins, rfl, hdb⟩ := exec_createTenant_ok hok
  generalize (Service.exec P (.repo _) e w).2 = w' at hdb ⊢
  have hfresh : ∀ T, some row.id = some T → w.db.tenants.get? T = none := by
    rintro T ⟨⟩
    exact (Table.insert?_eq_some.mp hins).1
  have hkept : others (some row.id) w'.db = others (some row.id) w.db := by
    rw [hdb]
    unfold others DB.outside
    rw [Table.filter_insert? hins (by simp)]
  refine Service.ends_repo_bind (fun e' _ _ => ?_)
    fun _ => ⟨some row.id, hfresh, hkept, fun _ h => nomatch h⟩
  have haudit : ∀ event : AuditEvent, event.tenantID = row.id.toText →
      Keeps P (some row.id) (.repo (.audit (.insert event)) : Service.Op Attrs) := by
    intro event hevent
    refine ⟨Http.harmless_repo fun T hT => ?_, trivial⟩
    rw [hevent, UUID.ofText?_toText] at hT
    exact hT
  refine ⟨some row.id, hfresh, ((haudit _ rfl).exec e' w').trans hkept, ?_⟩
  rintro _ ⟨⟩
  exact UUID.ofText?_toText row.id

theorem looks_others {c : Op Attrs} (hc : Looks c) (e : Env) (w : World) :
    others A (exec D c e w).2.svc.db = others A w.svc.db := by
  rw [hc.exec]

theorem plain_others {tenantID : String} (hown : Own A tenantID) {c : Op Attrs}
    (hc : Plain tenantID c) (e : Env) (w : World) :
    others A (exec D c e w).2.svc.db = others A w.svc.db := by
  cases hc with
  | looks hc => exact looks_others hc e w
  | event event he =>
    have hkeeps : Keeps D.primitives A (.repo (.audit (.insert event))) :=
      ⟨Http.harmless_repo (show Own A event.tenantID from he ▸ hown), trivial⟩
    exact hkeeps.exec e.svc w.svc
  | signCount id n =>
    have hkeeps : Keeps D.primitives A (.repo (.credentials (.updateSignCount tenantID id n))) :=
      ⟨Http.harmless_repo trivial, hown⟩
    exact hkeeps.exec e.svc w.svc
  | lastUsed id t =>
    have hkeeps : Keeps D.primitives A (.repo (.credentials (.updateLastUsed tenantID id t))) :=
      ⟨Http.harmless_repo trivial, hown⟩
    exact hkeeps.exec e.svc w.svc

theorem registers_others {tenantID identityID : String} (hown : Own A tenantID) {c : Op Attrs}
    (hc : Registers D.primitives tenantID identityID c) (e : Env) (w : World) :
    others A (exec D c e w).2.svc.db = others A w.svc.db := by
  cases hc with
  | plain hc => exact plain_others hown hc e w
  | key credential =>
    have hkeeps : Keeps D.primitives A (.repo (.keys (.create
        (registeredKey D.primitives tenantID identityID credential)))) :=
      ⟨Http.harmless_repo (.inl hown), trivial⟩
    exact hkeeps.exec e.svc w.svc
  | primaryKey keyID =>
    have hkeeps : Keeps D.primitives A
        (.repo (.identities (.setPrimaryKey tenantID identityID keyID))) :=
      ⟨Http.harmless_repo hown, trivial⟩
    exact hkeeps.exec e.svc w.svc
  | credential keyID credential =>
    have hkeeps : Keeps D.primitives A (.repo (.credentials (.create
        (registeredCredential tenantID identityID keyID credential)))) :=
      ⟨Http.harmless_repo trivial, hown⟩
    exact hkeeps.exec e.svc w.svc

/-- The calls of a ceremony leave the other tenants. -/
theorem mayCall_others {req : Request Attrs} (hreq : ∀ r, req ≠ .service r) {c : Op Attrs}
    (hc : MayCall D.primitives req c) (e : Env) (w : World) :
    others (req.tenant.bind UUID.ofText?) (exec D c e w).2.svc.db =
      others (req.tenant.bind UUID.ofText?) w.svc.db := by
  cases hc with
  | service => exact absurd rfl (hreq _)
  | looks hc => exact looks_others hc e w
  | finishRegistration hc => exact registers_others (own_tenant _) hc e w
  | registerComplete hc => exact registers_others (own_tenant _) hc e w
  | finishAssertion hc => exact plain_others (own_tenant _) hc e w
  | loginComplete hc => exact plain_others (own_tenant _) hc e w

theorem run_respond (f : α → Response Attrs) (q : Ceremony Attrs α) (es : Nat → Env) (w : World) :
    (respond f q).run (exec D) es w =
      ((q.run (exec D) es w).1.map f, (q.run (exec D) es w).2) :=
  Program.run_map q f es w

/-- A request of the services runs as it does without the ceremonies. -/
theorem run_service (req : Service.Request Attrs) (es : Nat → Env) (w : World) :
    let inner := (req.program D.primitives).run (Service.exec D.primitives)
      (fun n => (es n).svc) w.svc
    let out := ((Request.service req).program D).run (exec D) es w
    out.1 = (inner.1.mapError .domain).map .service ∧ out.2.svc = inner.2 := by
  obtain ⟨hresult, hworld⟩ := Program.run_embed (g := AuthError.domain) (servicePart D)
    (req.program D.primitives) es w
  have hrun := run_respond (D := D) Response.service
    ((req.program D.primitives).embed services .domain) es w
  exact ⟨(congrArg Prod.fst hrun).trans (congrArg (Except.map _) hresult),
    (congrArg (fun out => out.2.svc) hrun).trans hworld⟩

theorem service_framed (req : Service.Request Attrs) (hreq : ∀ input, req ≠ .createTenant input)
    (es : Nat → Env) (w : World) :
    Framed ((serviceTenant req).bind UUID.ofText?) w
      (((Request.service req).program D).run (exec D) es w) := by
  have hobeys := (service_isolated (P := D.primitives) (h := []) req hreq).and_only
    (service_credentials (A := (serviceTenant req).bind UUID.ofText?) req)
  obtain ⟨hkept, _, hdone⟩ := hobeys.run
    (f := fun v : Service.World => others ((serviceTenant req).bind UUID.ofText?) v.db)
    (fun _ c e v (hc : Keeps D.primitives _ c) => hc.exec e v) (fun n => (es n).svc) w.svc
  obtain ⟨hresult, hworld⟩ := run_service (D := D) req es w
  refine ⟨(congrArg (fun v : Service.World => others _ v.db) hworld).trans hkept, ?_⟩
  intro resp hresp t ht
  rw [hresult] at hresp
  cases hr : ((req.program D.primitives).run (Service.exec D.primitives) (fun n => (es n).svc)
      w.svc).1 with
  | error e => rw [hr] at hresp; cases hresp
  | ok r =>
    rw [hr] at hresp
    cases hresp
    exact hdone r hr t ht

theorem createTenant_frame (input : CreateTenantInput) (es : Nat → Env) (w : World) :
    let out := ((Request.service (.createTenant input)).program D).run (exec D) es w
    ∃ A, On (.service (.createTenant input)) w out A ∧ Framed A w out := by
  obtain ⟨hresult, hworld⟩ := run_service (D := D) (.createTenant input) es w
  have hends : ((Service.Request.createTenant input).program D.primitives).Ends
      (Service.exec D.primitives) (fun r v => ∃ A,
        (∀ T, A = some T → w.svc.db.tenants.get? T = none) ∧
        others A v.db = others A w.svc.db ∧
        ∀ resp, r = .ok resp → ∃ t, resp = .tenant t ∧ UUID.ofText? t.id = A) w.svc := by
    refine Service.ends_respond ((createTenant_framed input w.svc).mono fun r v hr => ?_)
    obtain ⟨A, hfresh, hkept, hid⟩ := hr
    refine ⟨A, hfresh, hkept, fun resp hresp => ?_⟩
    cases r with
    | error e => cases hresp
    | ok t => cases hresp; exact ⟨t, rfl, hid t rfl⟩
  obtain ⟨A, hfresh, hkept, hid⟩ := hends.run fun n => (es n).svc
  have hok : ∀ resp, (((Request.service (.createTenant input)).program D).run (exec D) es w).1 =
      .ok resp → ∃ t, resp = .service (.tenant t) ∧ UUID.ofText? t.id = A := by
    intro resp hresp
    rw [hresult] at hresp
    cases hr : (((Service.Request.createTenant input).program D.primitives).run
        (Service.exec D.primitives) (fun n => (es n).svc) w.svc).1 with
    | error e => rw [hr] at hresp; cases hresp
    | ok r =>
      obtain ⟨t, rfl, ht⟩ := hid r hr
      rw [hr] at hresp
      cases hresp
      exact ⟨t, rfl, ht⟩
  refine ⟨A, ⟨hfresh, fun t ht => ?_⟩,
    ⟨(congrArg (fun v : Service.World => others A v.db) hworld).trans hkept,
      fun resp hresp t ht => ?_⟩⟩
  · obtain ⟨_, ⟨⟩, hA⟩ := hok _ ht
    exact hA
  · obtain ⟨_, rfl, -⟩ := hok _ hresp
    cases ht

theorem ceremony_framed (req : Request Attrs) (hreq : ∀ r, req ≠ .service r) (es : Nat → Env)
    (w : World) : Framed (req.tenant.bind UUID.ofText?) w ((req.program D).run (exec D) es w) := by
  refine ⟨(program_only D req).run_keeps (f := fun w : World => others _ w.svc.db)
    (fun _ e w hc => mayCall_others hreq hc e w) es w, ?_⟩
  -- only two ceremonies return rows, and of these a registration is never finished
  have hnone : ∀ {β : Type} (f : β → Response Attrs) (q : Ceremony Attrs β),
      (∀ b, (f b).tenantIDs = []) → ∀ resp, ((respond f q).run (exec D) es w).1 = .ok resp →
      ∀ t ∈ resp.tenantIDs, UUID.ofText? t = req.tenant.bind UUID.ofText? := by
    intro β f q hf resp hresp t ht
    rw [run_respond] at hresp
    cases hr : (q.run (exec D) es w).1 with
    | error e => rw [hr] at hresp; cases hresp
    | ok b =>
      rw [hr] at hresp
      cases hresp
      rw [hf b] at ht
      cases ht
  cases req with
  | service r => exact absurd rfl (hreq r)
  | beginRegistration => exact hnone _ _ fun _ => rfl
  | beginAssertion => exact hnone _ _ fun _ => rfl
  | registerBegin => exact hnone _ _ fun _ => rfl
  | registerComplete => exact hnone _ _ fun _ => rfl
  | loginBegin => exact hnone _ _ fun _ => rfl
  | loginComplete => exact hnone _ _ fun _ => rfl
  | finishRegistration tenantID identityID sessionID body =>
    intro resp hresp
    obtain ⟨⟨e, he⟩, -⟩ := (finishRegistration_fails (D := D) (w := w) tenantID identityID sessionID
      body).run es
    rw [Request.program, run_respond, he] at hresp
    cases hresp
  | finishAssertion tenantID handle sessionID body =>
    intro resp hresp t ht
    have hreturns :=
        (finishAssertion_returns (D := D) (w := w) tenantID handle sessionID body).run es
    rw [Request.program, run_respond] at hresp
    cases hr : ((finishAssertion D.primitives tenantID handle sessionID body).run (exec D) es
        w).1 with
    | error e => rw [hr] at hresp; cases hresp
    | ok ident =>
      rw [hr] at hresp
      cases hresp
      obtain ⟨row, attrs, rfl, hT, -⟩ := hreturns ident hr
      rw [List.mem_singleton.mp ht]
      exact (UUID.ofText?_toText _).trans hT.symm

/-- Every call of the services and the ceremonies, from every world and whatever fails on
its way, changes rows of the tenant it is on only and returns rows of this tenant only. -/
theorem tenant_frame (D : Deps Attrs) (req : Request Attrs) (es : Nat → Env) (w : World) :
    ∃ A, On req w ((req.program D).run (exec D) es w) A ∧
      Framed A w ((req.program D).run (exec D) es w) := by
  by_cases hservice : ∃ r, req = .service r
  · obtain ⟨r, rfl⟩ := hservice
    by_cases hcreate : ∃ input, r = .createTenant input
    · obtain ⟨input, rfl⟩ := hcreate
      exact createTenant_frame input es w
    · have hreq : ∀ input, r ≠ .createTenant input := fun input h => hcreate ⟨input, h⟩
      refine ⟨_, ?_, service_framed r hreq es w⟩
      cases r with
      | createTenant input => exact absurd rfl (hreq input)
      | _ => rfl
  · have hreq : ∀ r, req ≠ .service r := fun r h => hservice ⟨r, h⟩
    refine ⟨_, ?_, ceremony_framed req hreq es w⟩
    cases req with
    | service r => exact absurd rfl (hreq r)
    | _ => rfl

end Operations

end Verion.Auth
