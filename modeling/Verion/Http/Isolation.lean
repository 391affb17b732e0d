import Verion.Http.Handlers
import Verion.Postgres.Tenancy
import Verion.Service.Effects

/-!
# Tenant isolation of the protected handlers

The handlers take the tenant they act on from the path, the query string or the
body. A request is confined to the tenant of its token when the tenant it names
is that one, or when some other part of it makes the services refuse it whatever
the database holds.
-/

namespace Verion.Http

open Calls Postgres Service

variable {Attrs : Type}

/-- The tenants of the rows in a response. -/
def Payload.tenantIDs : Payload Attrs → List String
  | .error _ => []
  | .status _ => []
  | .tenant t => [t.id]
  | .identity i => [i.tenantID]
  | .identities is _ => is.map Identity.tenantID
  | .key k => [k.tenantID]

/-- In every state of the database, the request returns no row of a tenant other than
`tid` and leaves the rows of all other tenants as they are. -/
def Isolated (P : Primitives Attrs) (tid : String) (req : Request Attrs) : Prop :=
  ∀ (w : World) (es : Nat → Env),
    (∀ resp, ((handle P req).run (exec P) es w).1 = .ok resp →
      ∀ t ∈ resp.payload.tenantIDs, UUID.ofText? t = UUID.ofText? tid) ∧
    ((handle P req).run (exec P) es w).2.db.outside (UUID.ofText? tid) =
      w.db.outside (UUID.ofText? tid)

/-- The tenant a request names. -/
def Request.tenantID : Request Attrs → String
  | .getTenant id | .suspendTenant id | .activateTenant id => id
  | .getIdentity _ tenantID | .getByHandle _ tenantID | .listIdentities tenantID
  | .getKey _ tenantID => tenantID
  | .updateIdentity _ body => (body.map UpdateIdentityBody.tenantID).getD ""
  | .suspendIdentity _ body | .reactivateIdentity _ body | .deactivateIdentity _ body
  | .revokeKey _ body => (body.map ActorBody.tenantID).getD ""
  | .generateKey body => (body.map GenerateKeyBody.tenantID).getD ""
  | .rotateKey _ body => (body.map RotateKeyBody.tenantID).getD ""

/-- The rest of a request can be carried out: the body was decoded, identifiers are
UUIDs, texts can be stored, and the values are ones the service and the columns take. -/
def Request.Valid (P : Primitives Attrs) : Request Attrs → Prop
  | .getTenant _ | .suspendTenant _ | .activateTenant _ | .listIdentities _ => True
  | .getIdentity id _ => (UUID.ofText? id).isSome
  | .getByHandle handle _ => hasNul handle = false
  | .updateIdentity id body => ∃ b, body = some b ∧ (UUID.ofText? id).isSome ∧
      b.displayName ≠ "" ∧ hasNul b.displayName = false ∧ P.isEmpty b.attributes = false ∧
      (P.marshal b.attributes).isSome ∧ P.masterKey.length = 32 ∧ b.version < maxBigint
  | .suspendIdentity id body | .reactivateIdentity id body | .deactivateIdentity id body
  | .revokeKey id body => ∃ b, body = some b ∧ (UUID.ofText? id).isSome
  | .generateKey body => ∃ b, body = some b ∧ (UUID.ofText? b.identityID).isSome ∧
      (generatorOf (.ofText b.keyType)).isSome ∧ isKeyPurpose (.ofText b.purpose) = true
  | .getKey keyID _ => (UUID.ofText? keyID).isSome
  | .rotateKey keyID body => ∃ b, body = some b ∧ (UUID.ofText? keyID).isSome ∧
      (UUID.ofText? b.identityID).isSome

def Confined (P : Primitives Attrs) (tid : String) (req : Request Attrs) : Prop :=
  req.Valid P → Own (UUID.ofText? tid) req.tenantID

/-! ### Calls that leave other tenants alone -/

section Harmless

variable {P : Primitives Attrs} {A : Option UUID}

def Harmless (P : Primitives Attrs) (A : Option UUID) (c : Op Attrs) : Prop :=
  ∀ e w, (exec P c e w).2.db.outside A = w.db.outside A

theorem harmless_repo {c : RepoCall Attrs} (hc : c.Keeps A) : Harmless P A (.repo c) :=
  fun e w => outside_perform c hc e.now e.statements w.db

theorem store_db (keyID : String) (key : PrivateKey) (w : World) :
    (store keyID key w).2.db = w.db := by
  unfold store
  split <;> rfl

theorem generateAndStore_db (algorithm : KeyAlgorithm) (keyID : String) (secret : Option Bytes)
    (w : World) : (generateAndStore P algorithm keyID secret w).2.db = w.db := by
  unfold generateAndStore
  cases secret with
  | none => rfl
  | some bytes =>
    have hdb := store_db keyID ⟨algorithm, bytes⟩ w
    dsimp only
    split
    · rename_i hstore
      rw [hstore] at hdb
      exact hdb
    · rename_i hstore
      rw [hstore] at hdb
      exact hdb

theorem harmless_generateKey (a : KeyAlgorithm) (keyID : String) :
    Harmless P A (.generateKey a keyID) := by
  intro e w
  cases a <;> exact congrArg (DB.outside A) (generateAndStore_db _ keyID e.secret w)

theorem harmless_encrypt (plaintext : Bytes) : Harmless P A (.encrypt plaintext) := fun _ _ => rfl

theorem harmless_now : Harmless P A .now := fun _ _ => rfl

/-! ### Replies -/

theorem tenant_ok {id : String} {e : Env} {w : World} {t : Tenant}
    (h : (exec P (.repo (.tenants (.getByID id))) e w).1 = .ok t) :
    ∃ T, UUID.ofText? id = some T ∧ t.id = T.toText := by
  obtain ⟨T, row, hT, hget, rfl⟩ := getTenantByID_ok h
  exact ⟨T, hT, congrArg UUID.toText (Table.key_of_get? hget)⟩

theorem updated_ok {ident updated : Identity Attrs} {e : Env} {w : World}
    (h : (exec P (.repo (.identities (.update ident))) e w).1 = .ok updated) :
    ∃ T a, UUID.ofText? ident.tenantID = some T ∧ updated.tenantID = T.toText ∧
      hasNul ident.displayName = false ∧ ident.attributes = some a ∧ ident.version < maxBigint := by
  obtain ⟨st, rows, db', heval, hfin⟩ := conn_ok
    (q := .identityUpdate ident.tenantID ident.id ident.displayName ident.attributes (some [])
      ident.version) rfl (fun _ => ⟨_, rfl⟩) h
  obtain ⟨row, rest, hrow, rfl⟩ := single_ok hfin
  cases hrow
  have hnul := heval
  simp only [Query.eval, sqlIdentityUpdate, bind_eq_ok, textParam_ok] at hnul
  obtain ⟨_, -, _, -, _, ⟨hnul, -⟩, -⟩ := hnul
  rcases sqlIdentityUpdate_ok heval with ⟨hnil, -⟩ | ⟨T, I, a, iv, old, hT, -, ha, -, hlt,
    -, hold, -,
    hrows, -⟩
  · cases hnil
  · cases hrows
    exact ⟨T, a, hT, congrArg UUID.toText hold, hnul, ha, hlt⟩

theorem createdKey_ok {k created : IdentityKey} {e : Env} {w : World}
    (h : (exec P (.repo (.keys (.create k))) e w).1 = .ok created) :
    ∃ T, UUID.ofText? k.tenantID = some T ∧ created.tenantID = T.toText ∧
      (UUID.ofText? k.identityID).isSome ∧ isKeyPurpose k.purpose = true := by
  obtain ⟨st, rows, db', heval, hfin⟩ := conn_ok (q := .keyInsert k) rfl (fun _ => ⟨_, rfl⟩) h
  have hpurpose := heval
  simp only [Query.eval, sqlKeyInsert, bind_eq_ok, labelParam_ok] at hpurpose
  obtain ⟨_, -, _, -, _, -, _, ⟨hpurpose, -⟩, -⟩ := hpurpose
  obtain ⟨I, T, keys, hI, hT, -, -, rfl, -⟩ := sqlKeyInsert_ok heval
  obtain ⟨row, rest, hrow, rfl⟩ := single_ok hfin
  cases hrow
  exact ⟨T, hT, rfl, Option.isSome_iff_exists.mpr ⟨I, hI⟩, hpurpose⟩

end Harmless

/-! ### The services keep to their tenant -/

section Obeys

variable {P : Primitives Attrs} {A : Option UUID} {α : Type} {rows : α → List String}
  {h : List (Event (@Op.Reply Attrs))}

def isolation (P : Primitives Attrs) (A : Option UUID) (rows : α → List String) :
    Protocol (@Op.Reply Attrs) Error α where
  call _ c := Harmless P A c
  done _ r := ∀ a, r = .ok a → ∀ t ∈ rows a, UUID.ofText? t = A

theorem isolation_error (e : Error) : (isolation P A rows).done h (.error e) :=
  fun _ he => nomatch he

theorem isolation_one {f : α → String} {a : α} {text : String} {T : UUID} (hown : Own A text)
    (hT : UUID.ofText? text = some T) (ha : f a = T.toText) :
    (isolation P A fun a => [f a]).done h (.ok a) := by
  rintro _ ⟨⟩ t ht
  rw [List.mem_singleton.mp ht, ha, UUID.ofText?_toText, hown T hT]

theorem own_toText {text : String} {T : UUID} (hown : Own A text)
    (hT : UUID.ofText? text = some T) :
    Own A T.toText := by
  intro U hU
  rw [UUID.ofText?_toText] at hU
  exact (hown T hT).trans hU

theorem obeys_only {q : Svc Attrs α} (hq : q.Only (Harmless P A)) :
    q.Obeys (exec P) (isolation P A fun _ => []) h :=
  hq.obeys (fun _ _ hc => hc) (fun _ _ _ _ _ ht => nomatch ht) h

theorem only_keeps (c : RepoCall Attrs) (hc : c.Keeps A) (f : Error → Error) :
    (repo c f).Only (Harmless P A) :=
  only_repo (harmless_repo hc) f

/-- A request that no state of the database gives an answer to ends there. -/
theorem obeys_refused {c : RepoCall Attrs} {f : Error → Error} {g : c.Result → Svc Attrs α}
    (hc : c.Keeps A) (hno : ∀ a, ¬ Possible (exec P) (.repo c) (.ok a)) :
    (repo c f >>= g).Obeys (exec P) (isolation P A rows) h :=
  obeys_repo_bind (harmless_repo hc) (fun a ha => absurd ha (hno a)) fun _ => isolation_error _

theorem only_audit {event : AuditEvent} (hown : Own A event.tenantID) :
    (writeAudit event : Svc Attrs Unit).Only (Harmless P A) :=
  only_keeps (.audit (.insert event)) hown _

theorem audit_isolated {event : AuditEvent} {g : Unit → Svc Attrs α} (hown : Own A event.tenantID)
    (hg : ∀ h', (g ()).Obeys (exec P) (isolation P A rows) h') :
    (writeAudit event >>= g).Obeys (exec P) (isolation P A rows) h :=
  obeys_repo_bind (harmless_repo hown) (fun _ _ => hg _) fun _ => isolation_error _

theorem no_identity {tenantID id : String} (hid : ¬ (UUID.ofText? id).isSome)
    (ident : Identity Attrs) :
    ¬ Possible (exec P) (.repo (.identities (.getByID tenantID id))) (.ok ident) := by
  rintro ⟨e, w, hok⟩
  obtain ⟨T, I, row, -, hI, -⟩ := getByID_ok hok
  exact hid (Option.isSome_iff_exists.mpr ⟨I, hI⟩)

theorem no_key {tenantID id : String} (hid : ¬ (UUID.ofText? id).isSome) (key : IdentityKey) :
    ¬ Possible (exec P) (.repo (.keys (.getByID tenantID id))) (.ok key) := by
  rintro ⟨e, w, hok⟩
  obtain ⟨T, K, row, -, hK, -⟩ := getKeyByID_ok hok
  exact hid (Option.isSome_iff_exists.mpr ⟨K, hK⟩)

theorem getTenant_isolated {id : String} (hown : Own A id) :
    (getTenant id : Svc Attrs Tenant).Obeys (exec P) (isolation P A fun t => [t.id]) h := by
  refine ⟨harmless_repo trivial, fun r hr => ?_⟩
  cases r with
  | error e => exact isolation_error _
  | ok t =>
    obtain ⟨e, w, hok⟩ := hr
    obtain ⟨T, hT, ht⟩ := tenant_ok hok
    exact isolation_one hown hT ht

theorem suspendTenant_isolated {id : String} (hown : Own A id) :
    (suspendTenant id : Svc Attrs Unit).Obeys (exec P) (isolation P A fun _ => []) h := by
  refine obeys_only ((only_keeps (.tenants (.getByID id)) trivial _).bind fun tenant => ?_)
  refine (only_refuseIf _ _).bind fun _ => ?_
  refine (only_keeps (.tenants (.updateStatus id .suspended)) hown _).bind fun _ => ?_
  exact only_audit hown

theorem activateTenant_isolated {id : String} (hown : Own A id) :
    (activateTenant id : Svc Attrs Unit).Obeys (exec P) (isolation P A fun _ => []) h := by
  refine obeys_only ((only_keeps (.tenants (.getByID id)) trivial _).bind fun tenant => ?_)
  refine (only_refuseIf _ _).bind fun _ => ?_
  exact only_keeps (.tenants (.updateStatus id .active)) hown _

theorem decrypted_isolated {ident : Identity Attrs} {text : String} {T : UUID} (hown : Own A text)
    (hT : UUID.ofText? text = some T) (hident : ident.tenantID = T.toText) (f : Error → Error) :
    (orFail f (decryptAttributes P ident) : Svc Attrs _).Obeys (exec P)
      (isolation P A fun i : Identity Attrs => [i.tenantID]) h := by
  cases hdec : decryptAttributes P ident with
  | error e => exact isolation_error _
  | ok i => exact isolation_one hown hT ((decryptAttributes_ok hdec).2.trans hident)

theorem getIdentity_isolated {tenantID id : String}
    (hk : (UUID.ofText? id).isSome → Own A tenantID) :
    (getIdentity P tenantID id).Obeys (exec P) (isolation P A fun i => [i.tenantID]) h := by
  refine obeys_repo_bind (harmless_repo trivial) (fun ident hp => ?_) fun _ => isolation_error _
  obtain ⟨e, w, hok⟩ := hp
  obtain ⟨T, I, row, hT, hI, -, rfl, rfl⟩ := getByID_ok hok
  exact decrypted_isolated (hk (Option.isSome_iff_exists.mpr ⟨I, hI⟩)) hT rfl _

theorem getIdentityByHandle_isolated {tenantID handle : String}
    (hk : hasNul handle = false → Own A tenantID) :
    (getIdentityByHandle P tenantID handle).Obeys (exec P)
      (isolation P A fun i => [i.tenantID]) h := by
  refine obeys_repo_bind (harmless_repo trivial) (fun ident hp => ?_) fun _ => isolation_error _
  obtain ⟨e, w, hok⟩ := hp
  obtain ⟨hnul, T, hT, row, -, rfl, -, rfl⟩ := getByHandle_ok hok
  exact decrypted_isolated (hk hnul) hT rfl _

theorem listIdentities_isolated {tenantID : String} (hown : Own A tenantID)
    (filter : IdentityFilter) : (listIdentities P tenantID filter).Obeys (exec P)
      (isolation P A fun is => is.map Identity.tenantID) h := by
  refine obeys_repo_bind (harmless_repo trivial) (fun idents hp => ?_) fun _ => isolation_error _
  obtain ⟨e, w, hok⟩ := hp
  obtain ⟨T, rows, hT, hrows, rfl⟩ := list_ok hok
  cases hdec : decryptAll P (rows.map scanIdentity) with
  | error e => exact isolation_error _
  | ok out =>
    rintro _ ⟨⟩ t ht
    obtain ⟨ident, hmem, rfl⟩ := List.mem_map.mp ht
    obtain ⟨x, hx, hident⟩ := mem_of_decryptAll hdec ident hmem
    obtain ⟨row, hrow, rfl⟩ := List.mem_map.mp hx
    rw [(decryptAttributes_ok hident).2, show (scanIdentity row : Identity Attrs).tenantID =
      row.tenantID.toText from rfl, UUID.ofText?_toText, (hrows row hrow).2, hown T hT]

theorem changeStatus_isolated {status : IdentityStatus} {event getContext writeContext : String}
    {tenantID id actorID : String} (hk : (UUID.ofText? id).isSome → Own A tenantID) :
    (changeStatus status event getContext writeContext tenantID id actorID :
      Svc Attrs Unit).Obeys (exec P) (isolation P A fun _ => []) h := by
  by_cases hid : (UUID.ofText? id).isSome
  · have hown := hk hid
    refine obeys_only (only_changeStatus (harmless_repo trivial) (harmless_repo hown) ?_)
    rintro e rfl
    exact harmless_repo hown
  · exact obeys_refused trivial (no_identity hid)

/-- A map that is empty, that has no JSON text or that cannot be encrypted leaves the
update without attributes or ends it. -/
theorem encryptAttributes_isolated {attrs : Attrs} {f : Error → Error}
    {g : Option Bytes → Svc Attrs (Identity Attrs)}
    (hg : ∀ enc h', (enc ≠ none → P.isEmpty attrs = false ∧ (P.marshal attrs).isSome ∧
      P.masterKey.length = 32) →
      (g enc).Obeys (exec P) (isolation P A fun i => [i.tenantID]) h') :
    (encryptAttributes P attrs >>= fun r => orFail f r >>= g).Obeys (exec P)
      (isolation P A fun i => [i.tenantID]) h := by
  unfold encryptAttributes
  split
  · exact hg none h fun hne => absurd rfl hne
  · rename_i hempty
    split
    · exact isolation_error _
    · rename_i plaintext hm
      refine ⟨harmless_encrypt plaintext, fun r hr => ?_⟩
      cases r with
      | error e => exact isolation_error _
      | ok out =>
        obtain ⟨e, w, hok⟩ := hr
        have hlen : P.masterKey.length = 32 := by
          by_contra hlen
          simp [exec, encrypt, hlen] at hok
        exact hg _ _ fun _ => ⟨by simpa using hempty, by rw [hm]; rfl, hlen⟩

theorem updateIdentity_isolated {input : UpdateIdentityInput Attrs}
    (hk : (UUID.ofText? input.id).isSome → input.displayName ≠ "" →
      hasNul input.displayName = false → P.isEmpty input.attributes = false →
      (P.marshal input.attributes).isSome → P.masterKey.length = 32 → input.version < maxBigint →
      Own A input.tenantID) :
    (updateIdentity P input).Obeys (exec P) (isolation P A fun i => [i.tenantID]) h := by
  refine obeys_refuseIf_bind (isolation_error _) fun hname => ?_
  refine obeys_repo_bind (harmless_repo trivial) (fun existing hp => ?_) fun _ => isolation_error _
  obtain ⟨e, w, hok⟩ := hp
  obtain ⟨T, I, row, hT, hI, -, rfl, rfl⟩ := getByID_ok hok
  refine encryptAttributes_isolated fun enc h' henc => ?_
  -- the update is harmless under the same condition under which it can be answered
  have hcond : Own A input.tenantID ∨ hasNul input.displayName = true ∨ enc = none ∨
      maxBigint ≤ input.version := by
    by_cases hnul : hasNul input.displayName = true
    · exact .inr (.inl hnul)
    · by_cases hnone : enc = none
      · exact .inr (.inr (.inl hnone))
      · by_cases hv : maxBigint ≤ input.version
        · exact .inr (.inr (.inr hv))
        · obtain ⟨hempty, hm, hlen⟩ := henc hnone
          exact .inl (hk (Option.isSome_iff_exists.mpr ⟨I, hI⟩) hname
            (by simpa using hnul) hempty hm
            hlen (by omega))
  have hcall : RepoCall.Keeps A (.identities (.update { (scanIdentity row : Identity Attrs) with
      displayName := input.displayName, attributes := enc, version := input.version })) :=
    hcond.imp_left fun hown => own_toText hown hT
  refine obeys_repo_bind (harmless_repo hcall) (fun updated hp => ?_) fun _ => isolation_error _
  obtain ⟨e, w, hok⟩ := hp
  obtain ⟨T', a, hT', hupdated, hnul, ha, hlt⟩ := updated_ok hok
  rcases hcond with hown | hnul' | hnone | hv
  · exact decrypted_isolated (own_toText hown hT) hT' hupdated _
  · exact absurd (hnul'.symm.trans hnul) Bool.noConfusion
  · exact absurd (hnone.symm.trans ha) (Option.some_ne_none a).symm
  · exact absurd hlt (Int.not_lt.mpr hv)

theorem generateKey_isolated {input : GenerateKeyInput}
    (hk : (UUID.ofText? input.identityID).isSome → (generatorOf input.keyType).isSome →
      isKeyPurpose input.purpose = true → Own A input.tenantID) :
    (generateKey input : Svc Attrs IdentityKey).Obeys (exec P)
      (isolation P A fun k => [k.tenantID]) h := by
  refine obeys_repo_bind (harmless_repo trivial) (fun ident hp => ?_) fun _ => isolation_error _
  obtain ⟨e, w, hok⟩ := hp
  obtain ⟨T, I, row, hT, hI, -⟩ := getByID_ok hok
  refine obeys_refuseIf_bind (isolation_error _) fun _ => ?_
  refine obeys_generateKeyPair_bind (fun _ _ => isolation_error _) fun generator algorithm hgen =>
    ⟨harmless_generateKey _ _, fun generated _ => ?_⟩
  have hcond : Own A input.tenantID ∨ isKeyPurpose input.purpose = false := by
    by_cases hp : isKeyPurpose input.purpose = true
    · exact .inl (hk (Option.isSome_iff_exists.mpr ⟨I, hI⟩) (by rw [hgen]; rfl) hp)
    · exact .inr (by simpa using hp)
  refine obeys_repo_bind (harmless_repo (hcond.imp_right .inr)) (fun created hp => ?_)
    fun _ => isolation_error _
  obtain ⟨e, w, hok⟩ := hp
  obtain ⟨T', hT', hcreated, -, hpurpose⟩ := createdKey_ok hok
  rcases hcond with hown | hp
  · exact audit_isolated hown fun _ => isolation_one hown hT' hcreated
  · exact absurd (hp.symm.trans hpurpose) Bool.noConfusion

theorem getKey_isolated {tenantID keyID : String}
    (hk : (UUID.ofText? keyID).isSome → Own A tenantID) :
    (getKey tenantID keyID : Svc Attrs IdentityKey).Obeys (exec P)
      (isolation P A fun k => [k.tenantID]) h := by
  refine ⟨harmless_repo trivial, fun r hr => ?_⟩
  cases r with
  | error e => exact isolation_error _
  | ok key =>
    obtain ⟨e, w, hok⟩ := hr
    obtain ⟨T, K, row, hT, hK, -, rfl, rfl⟩ := getKeyByID_ok hok
    exact isolation_one (hk (Option.isSome_iff_exists.mpr ⟨K, hK⟩)) hT rfl

theorem rotateKey_isolated {tenantID identityID oldKeyID actorID : String}
    (hk : (UUID.ofText? oldKeyID).isSome → (UUID.ofText? identityID).isSome → Own A tenantID) :
    (rotateKey tenantID identityID oldKeyID actorID : Svc Attrs IdentityKey).Obeys (exec P)
      (isolation P A fun k => [k.tenantID]) h := by
  refine obeys_repo_bind (harmless_repo trivial) (fun oldKey hp => ?_) fun _ => isolation_error _
  obtain ⟨e, w, hok⟩ := hp
  obtain ⟨T, K, row, -, hK, -⟩ := getKeyByID_ok hok
  refine ⟨harmless_now, fun now _ => ?_⟩
  refine obeys_refuseIf_bind (isolation_error _) fun _ => ?_
  refine obeys_generateKeyPair_bind (fun _ _ => isolation_error _) fun generator algorithm hgen =>
    ⟨harmless_generateKey _ _, fun generated _ => ?_⟩
  have hcond : Own A tenantID ∨ UUID.ofText? identityID = none := by
    by_cases hI : (UUID.ofText? identityID).isSome
    · exact .inl (hk (Option.isSome_iff_exists.mpr ⟨K, hK⟩) hI)
    · exact .inr (by simpa using hI)
  refine obeys_repo_bind (harmless_repo (hcond.imp_right .inl)) (fun created hp => ?_)
    fun _ => isolation_error _
  obtain ⟨e, w, hok⟩ := hp
  obtain ⟨T', hT', hcreated, hI, -⟩ := createdKey_ok hok
  rcases hcond with hown | hnone
  · refine obeys_repo_bind (harmless_repo hown) (fun _ _ => ?_) fun _ => isolation_error _
    refine obeys_repo_bind (harmless_repo trivial) (fun ident _ => ?_) fun _ => isolation_error _
    have hend : ∀ h', (isolation P A fun k : IdentityKey => [k.tenantID]).done h' (.ok created) :=
      fun _ => isolation_one hown hT' hcreated
    split
    · exact obeys_repo_bind (harmless_repo hown) (fun _ _ => audit_isolated hown fun _ => hend _)
        fun _ => isolation_error _
    · exact audit_isolated hown fun _ => hend _
  · rw [show UUID.ofText? (keyOf tenantID identityID oldKey.keyType oldKey.purpose algorithm
      generated).identityID = none from hnone] at hI
    cases hI

theorem revokeKey_isolated {tenantID keyID actorID : String}
    (hk : (UUID.ofText? keyID).isSome → Own A tenantID) :
    (revokeKey tenantID keyID actorID : Svc Attrs Unit).Obeys (exec P)
      (isolation P A fun _ => []) h := by
  by_cases hid : (UUID.ofText? keyID).isSome
  · have hown := hk hid
    refine obeys_only ((only_keeps (.keys (.getByID tenantID keyID)) trivial _).bind fun _ => ?_)
    refine (only_keeps (.keys (.revoke tenantID keyID)) hown _).bind fun _ => ?_
    exact only_audit hown
  · exact obeys_refused trivial (no_key hid)

/-! ### Handlers -/

theorem serve_isolated {status : Nat} {payload : α → Payload Attrs} {p : Svc Attrs α}
    (hp : p.Obeys (exec P) (isolation P A rows) h)
    (hrows : ∀ a, (payload a).tenantIDs = rows a) :
    (serve status payload p).Obeys (exec P)
      (isolation P A fun r : Response Attrs => r.payload.tenantIDs) h := by
  refine (Program.obeys_attempt_bind _ _ _).mpr (hp.mono ?_ ?_)
  · exact fun _ _ hc => hc
  · intro h' r hr
    cases r with
    | ok a =>
      rintro _ ⟨⟩ t ht
      exact hr a rfl t (hrows a ▸ ht)
    | error e =>
      rintro _ ⟨⟩ t ht
      unfold writeServiceError writeError at ht
      repeat' split at ht
      all_goals cases ht

theorem writeError_isolated (status : Nat) (message : String) :
    (Program.ret (writeError status message) : Svc Attrs _).Obeys (exec P)
      (isolation P A fun r : Response Attrs => r.payload.tenantIDs) h := by
  rintro _ ⟨⟩ t ht
  cases ht

theorem withQueryTenant_isolated {tenantID : String} {p : Svc Attrs (Response Attrs)}
    (hp : p.Obeys (exec P) (isolation P A fun r => r.payload.tenantIDs) h) :
    (withQueryTenant tenantID p).Obeys (exec P) (isolation P A fun r => r.payload.tenantIDs) h := by
  unfold withQueryTenant
  split
  · exact writeError_isolated _ _
  · exact hp

theorem withBody_isolated {β : Type} {body : Option β} {p : β → Svc Attrs (Response Attrs)}
    (hp : ∀ b, body = some b →
      (p b).Obeys (exec P) (isolation P A fun r => r.payload.tenantIDs) h) :
    (withBody body p).Obeys (exec P) (isolation P A fun r => r.payload.tenantIDs) h := by
  cases body with
  | none => exact writeError_isolated _ _
  | some b => exact hp b rfl

end Obeys

/-- A confined request is isolated, whatever the database holds and whatever fails. -/
theorem isolated_of_confined {P : Primitives Attrs} {tid : String} {req : Request Attrs}
    (hk : Confined P tid req) : Isolated P tid req := by
  have hobeys : (handle P req).Obeys (exec P)
      (isolation P (UUID.ofText? tid) fun r => r.payload.tenantIDs) [] := by
    cases req with
    | getTenant id => exact serve_isolated (getTenant_isolated (hk trivial)) fun _ => rfl
    | suspendTenant id => exact serve_isolated (suspendTenant_isolated (hk trivial)) fun _ => rfl
    | activateTenant id => exact serve_isolated (activateTenant_isolated (hk trivial)) fun _ => rfl
    | getIdentity id tenantID =>
      exact withQueryTenant_isolated (serve_isolated (getIdentity_isolated hk) fun _ => rfl)
    | getByHandle handle tenantID =>
      exact withQueryTenant_isolated (serve_isolated (getIdentityByHandle_isolated hk) fun _ => rfl)
    | listIdentities tenantID =>
      exact withQueryTenant_isolated
        (serve_isolated (listIdentities_isolated (hk trivial) _) fun _ => rfl)
    | updateIdentity id body =>
      refine withBody_isolated fun b hb => ?_
      subst hb
      exact serve_isolated (updateIdentity_isolated fun h1 h2 h3 h4 h5 h6 h7 =>
        hk ⟨b, rfl, h1, h2, h3, h4, h5, h6, h7⟩) fun _ => rfl
    | suspendIdentity id body | reactivateIdentity id body | deactivateIdentity id body =>
      refine withBody_isolated fun b hb => ?_
      subst hb
      exact serve_isolated (changeStatus_isolated fun hid => hk ⟨b, rfl, hid⟩) fun _ => rfl
    | generateKey body =>
      refine withBody_isolated fun b hb => ?_
      subst hb
      exact serve_isolated (generateKey_isolated fun h1 h2 h3 => hk ⟨b, rfl, h1, h2, h3⟩)
        fun _ => rfl
    | getKey keyID tenantID =>
      exact withQueryTenant_isolated (serve_isolated (getKey_isolated hk) fun _ => rfl)
    | rotateKey keyID body =>
      refine withBody_isolated fun b hb => ?_
      subst hb
      exact serve_isolated (rotateKey_isolated fun h1 h2 => hk ⟨b, rfl, h1, h2⟩) fun _ => rfl
    | revokeKey keyID body =>
      refine withBody_isolated fun b hb => ?_
      subst hb
      exact serve_isolated (revokeKey_isolated fun hid => hk ⟨b, rfl, hid⟩) fun _ => rfl
  intro w es
  have hkeeps : ∀ h c e w, (isolation P (UUID.ofText? tid)
      fun r : Response Attrs => r.payload.tenantIDs).call h c →
      (exec P c e w).2.db.outside (UUID.ofText? tid) = w.db.outside (UUID.ofText? tid) :=
    fun _ _ e w hc => hc e w
  obtain ⟨hkept, h', hdone⟩ := hobeys.run
    (f := fun w : World => w.db.outside (UUID.ofText? tid)) hkeeps es w
  exact ⟨hdone, hkept⟩

end Verion.Http
