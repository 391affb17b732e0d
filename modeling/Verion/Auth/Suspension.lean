import Verion.Auth.TenantFrame
import Verion.Auth.Coherence

/-!
# Suspended tenants

Only `CreateIdentity` looks at the status of the tenant. For the other operations
`Shut` says when they refuse for a reason of their own: the tenant has no such
identity or key, or the identity or key is in a state the operation does not accept.
-/

namespace Verion.Auth

open Calls Postgres Service

variable {Attrs α : Type}

def Suspended (T : UUID) (w : World) : Prop :=
  ∃ row, w.svc.db.tenants.get? T = some row ∧ row.status = .suspended

/-- The identities, keys and credentials of a tenant. -/
def tenantRows (T : UUID) (db : DB) : List IdentityRow × List KeyRow × List CredentialRow :=
  (db.identities.rows.filter fun r => decide (r.tenantID = T),
    db.identityKeys.rows.filter fun r => decide (r.tenantID = T),
    db.credentials.rows.filter fun r => decide (r.tenantID = T))

/-- The operations of the identity, key and WebAuthn services that name a tenant. -/
def IsOperation : Request Attrs → Prop
  | .service (.getTenant _) | .service (.suspendTenant _) | .service (.activateTenant _)
  | .service (.markCompromised ..) | .registerBegin _ | .registerComplete .. | .loginBegin _
  | .loginComplete .. => False
  | _ => True

def CalledFor (T : UUID) (req : Request Attrs) : Prop :=
  IsOperation req ∧ req.tenant.bind UUID.ofText? = some T

def Activates (T : UUID) (req : Request Attrs) : Prop :=
  ∃ id, req = .service (.activateTenant id) ∧ UUID.ofText? id = some T

/-! ### Refusals -/

/-- The operation refuses, whatever the status of the tenant. -/
def Shut (P : Primitives Attrs) (w : World) : Request Attrs → Prop
  | .service (.getIdentity tenantID id) =>
    ∀ row, Finds w.svc.db tenantID id row → ¬ Decrypts P row
  | .service (.getIdentityByHandle tenantID handle) =>
    ∀ row, FindsByHandle w.svc.db tenantID handle row → ¬ Decrypts P row
  | .service (.listIdentities ..) => False
  | .service (.updateIdentity input) =>
    input.displayName = "" ∨ P.isEmpty input.attributes = true ∨ P.marshal input.attributes = none ∨
      ∀ row, Finds w.svc.db input.tenantID input.id row → row.version ≠ input.version
  | .service (.deactivateIdentity tenantID id _) | .service (.suspendIdentity tenantID id _)
  | .service (.reactivateIdentity tenantID id _) =>
    ∀ row, Finds w.svc.db tenantID id row → row.status.isTerminal = true
  | .service (.generateKey input) =>
    ∀ row, Finds w.svc.db input.tenantID input.identityID row → row.status = .active →
      (generatorOf input.keyType).isSome → ¬ Admits w.svc.db row.id input.purpose
  | .service (.getKey tenantID keyID) | .service (.revokeKey tenantID keyID _) =>
    ∀ key, ¬ FindsKey w.svc.db tenantID keyID key
  | .service (.listKeys _ identityID) => UUID.ofText? identityID = none
  | .service (.rotateKey tenantID identityID oldKeyID _) =>
    ∀ key I, FindsKey w.svc.db tenantID oldKeyID key → key.status.isTrusted = true →
      (generatorOf key.keyType).isSome → UUID.ofText? identityID = some I →
      (w.svc.db.identities.get? I).isSome → ¬ Admits w.svc.db I key.purpose
  | .beginRegistration tenantID id =>
    ∀ row, Finds w.svc.db tenantID id row → Decrypts P row → row.status ≠ .active
  | .beginAssertion tenantID handle =>
    ∀ row, FindsByHandle w.svc.db tenantID handle row → Decrypts P row → row.status ≠ .active
  | .finishAssertion tenantID handle sessionID _ =>
    w.challenges.find (challengeKey sessionID) = none ∨
      ∀ row, FindsByHandle w.svc.db tenantID handle row → Decrypts P row → row.status ≠ .active
  | _ => True

/-! ### Requests of the services -/

section Services

variable {P : Primitives Attrs} {v : Service.World}

/-- An error, with the tables as they were. -/
def Refused (v : Service.World) (r : Except Error α) (v' : Service.World) : Prop :=
  (∃ e, r = .error e) ∧ v'.db = v.db

theorem refused (e : Error) : Refused v (.error e : Except Error α) v := ⟨⟨e, rfl⟩, rfl⟩

theorem refused_of_db {v' : Service.World} (e : Error) (h : v'.db = v.db) :
    Refused v (.error e : Except Error α) v' := ⟨⟨e, rfl⟩, h⟩

theorem createIdentity_refused {input : CreateIdentityInput Attrs} {T : UUID} {row : TenantRow}
    (hT : UUID.ofText? input.tenantID = some T) (hrow : v.db.tenants.get? T = some row)
    (hstatus : row.status ≠ .active) :
    (createIdentity P input).Ends (Service.exec P) (Refused v) v := by
  refine Service.ends_orFail_bind (fun _ _ => ?_) fun e _ => refused e
  refine Service.ends_repo_bind (fun e tenant htenant => ?_) fun _ => refused _
  rw [exec_read rfl]
  obtain ⟨T', row', hT', hrow', rfl⟩ := getTenantByID_ok htenant
  obtain rfl : T = T' := Option.some.inj (hT.symm.trans hT')
  obtain rfl : row = row' := Option.some.inj (hrow.symm.trans hrow')
  exact Service.ends_refuseIf_bind (refused _) fun h => absurd hstatus h

theorem getIdentity_refused {tenantID id : String}
    (h : ∀ row, Finds v.db tenantID id row → ¬ Decrypts P row) :
    (getIdentity P tenantID id).Ends (Service.exec P) (Refused v) v := by
  refine Service.ends_repo_bind (fun e ident hident => ?_) fun _ => refused _
  obtain ⟨T, I, row, hT, hI, hget, rfl, rfl⟩ := getByID_ok hident
  rw [exec_read rfl]
  refine Service.ends_orFail (fun dec hdec => ?_) fun _ _ => refused _
  exact absurd ⟨dec, hdec⟩ (h row ⟨I, hI, hget, hT⟩)

theorem getIdentityByHandle_refused {tenantID handle : String}
    (h : ∀ row, FindsByHandle v.db tenantID handle row → ¬ Decrypts P row) :
    (getIdentityByHandle P tenantID handle).Ends (Service.exec P) (Refused v) v := by
  refine Service.ends_repo_bind (fun e ident hident => ?_) fun _ => refused _
  obtain ⟨-, T, hT, row, hmem, rfl, hhandle, rfl⟩ := getByHandle_ok hident
  rw [exec_read rfl]
  refine Service.ends_orFail (fun dec hdec => ?_) fun _ _ => refused _
  exact absurd ⟨dec, hdec⟩ (h row ⟨Table.get?_of_mem hmem, hT, hhandle⟩)

theorem updateIdentity_refused {input : UpdateIdentityInput Attrs}
    (h : input.displayName = "" ∨ P.isEmpty input.attributes = true ∨
      P.marshal input.attributes = none ∨
      ∀ row, Finds v.db input.tenantID input.id row → row.version ≠ input.version) :
    (updateIdentity P input).Ends (Service.exec P) (Refused v) v := by
  refine Service.ends_refuseIf_bind (refused _) fun hname => ?_
  refine Service.ends_repo_bind (fun e existing hexisting => ?_) fun _ => refused _
  obtain ⟨T, I, row, hT, hI, hget, rfl, rfl⟩ := getByID_ok hexisting
  rw [exec_read rfl]
  refine ends_encryptAttributes_bind fun r hnone hbad => ?_
  refine Service.ends_orFail_bind (fun encrypted henc => ?_) fun _ _ => refused _
  subst henc
  refine Service.ends_repo_bind (fun e updated hupdated => ?_) fun _ => refused _
  obtain ⟨I', row', a, hI', hget', -, ha, hversion⟩ := exec_update_ok hupdated
  exfalso
  rcases h with hempty | hempty | hmarshal | hversions
  · exact hname hempty
  · obtain rfl : encrypted = none := Except.ok.inj (hnone hempty)
    cases ha
  · cases hempty : P.isEmpty input.attributes with
    | true =>
      obtain rfl : encrypted = none := Except.ok.inj (hnone hempty)
      cases ha
    | false => exact hbad hempty hmarshal _ rfl
  · obtain rfl : row.id = I' := Option.some.inj ((UUID.ofText?_toText _).symm.trans hI')
    obtain rfl : row = row' := Option.some.inj
      ((Table.key_of_get? hget ▸ hget).symm.trans hget')
    exact hversions row ⟨I, hI, hget, hT⟩ hversion

theorem changeStatus_refused {status : IdentityStatus} {event getContext writeContext : String}
    {tenantID id actorID : String}
    (h : ∀ row, Finds v.db tenantID id row → row.status.isTerminal = true) :
    (changeStatus status event getContext writeContext tenantID id actorID : Svc Attrs Unit).Ends
      (Service.exec P) (Refused v) v := by
  refine Service.ends_repo_bind (fun e ident hident => ?_) fun _ => refused _
  obtain ⟨T, I, row, hT, hI, hget, rfl, rfl⟩ := getByID_ok hident
  rw [exec_read rfl]
  exact Service.ends_refuseIf_bind (refused _) fun hlive => absurd (h row ⟨I, hI, hget, hT⟩) hlive

/-- A key that the table does not admit is not inserted. -/
theorem insertKey_refused {w : Service.World} {key : IdentityKey} {f : Error → Error}
    {g : IdentityKey → Svc Attrs α} (hdb : w.db = v.db) (hactive : key.status = .active)
    (h : ∀ I, UUID.ofText? key.identityID = some I → (v.db.identities.get? I).isSome →
      ¬ Admits v.db I key.purpose) :
    (Service.repo (.keys (.create key)) f >>= g).Ends (Service.exec P) (Refused v) w := by
  refine Service.ends_repo_bind (fun e x hx => ?_) fun e => refused_of_db _ hdb
  obtain ⟨I, hI, hpurpose, hident, hunique⟩ := exec_createKey_checks hx
  rw [hdb] at hident hunique
  exact absurd ⟨hpurpose, hunique hactive⟩ (h I hI hident)

/-- Without a generator nothing is generated; otherwise the pair goes to the key store only. -/
theorem keyPair_refused {tenantID identityID : String} {keyType : KeyType} {purpose : KeyPurpose}
    {f : IdentityKey → Svc Attrs α}
    (hf : ∀ algorithm generated w, (generatorOf keyType).isSome → w.db = v.db →
      (f (keyOf tenantID identityID keyType purpose algorithm generated)).Ends (Service.exec P)
        (Refused v) w) :
    (generateKeyPair tenantID identityID keyType purpose >>= f).Ends (Service.exec P) (Refused v)
      v := by
  cases hgen : generatorOf keyType with
  | none =>
    unfold generateKeyPair
    rw [hgen]
    exact refused _
  | some generator =>
    exact ends_generateKeyPair_bind (fun algorithm generated w hdb =>
      hf algorithm generated w (hgen ▸ rfl) hdb) fun e w hdb => refused_of_db e hdb

theorem generateKey_refused {input : GenerateKeyInput}
    (h : ∀ row, Finds v.db input.tenantID input.identityID row → row.status = .active →
      (generatorOf input.keyType).isSome → ¬ Admits v.db row.id input.purpose) :
    (generateKey input : Svc Attrs IdentityKey).Ends (Service.exec P) (Refused v) v := by
  refine Service.ends_repo_bind (fun e ident hident => ?_) fun _ => refused _
  obtain ⟨T, I, row, hT, hI, hget, rfl, rfl⟩ := getByID_ok hident
  rw [exec_read rfl]
  refine Service.ends_refuseIf_bind (refused _) fun hactive => ?_
  refine keyPair_refused fun algorithm generated w hgen hdb => ?_
  refine insertKey_refused hdb rfl fun I' hI' _ => ?_
  obtain rfl : I = I' := Option.some.inj (hI.symm.trans hI')
  rw [← Table.key_of_get? hget]
  exact h row ⟨I, hI, hget, hT⟩ (not_not.mp hactive) hgen

theorem rotateKey_refused {tenantID identityID oldKeyID actorID : String}
    (h : ∀ key I, FindsKey v.db tenantID oldKeyID key → key.status.isTrusted = true →
      (generatorOf key.keyType).isSome → UUID.ofText? identityID = some I →
      (v.db.identities.get? I).isSome → ¬ Admits v.db I key.purpose) :
    (rotateKey tenantID identityID oldKeyID actorID : Svc Attrs IdentityKey).Ends (Service.exec P)
      (Refused v) v := by
  refine Service.ends_repo_bind (fun e oldKey hold => ?_) fun _ => refused _
  obtain ⟨T, K, key, hT, hK, hget, rfl, rfl⟩ := getKeyByID_ok hold
  rw [exec_read rfl]
  refine ends_now_bind fun now => ?_
  refine Service.ends_refuseIf_bind (refused _) fun husable => ?_
  have husable : (scanKey key).isUsable now = true := by simpa using husable
  have htrusted : key.status.isTrusted = true := IdentityKey.isTrusted_of_isUsable husable
  refine keyPair_refused fun algorithm generated w hgen hdb => ?_
  exact insertKey_refused hdb rfl fun I => h key I ⟨K, hK, hget, hT⟩ htrusted hgen

theorem getKey_refused {tenantID keyID : String} (h : ∀ key, ¬ FindsKey v.db tenantID keyID key) :
    (getKey tenantID keyID : Svc Attrs IdentityKey).Ends (Service.exec P) (Refused v) v := by
  refine Service.ends_repo (c := .keys (.getByID tenantID keyID)) (Q := Refused v)
    (fun e key hkey => ?_) fun _ => refused _
  obtain ⟨T, K, key, hT, hK, hget, rfl, rfl⟩ := getKeyByID_ok hkey
  exact absurd ⟨K, hK, hget, hT⟩ (h key)

theorem revokeKey_refused {tenantID keyID actorID : String}
    (h : ∀ key, ¬ FindsKey v.db tenantID keyID key) :
    (revokeKey tenantID keyID actorID : Svc Attrs Unit).Ends (Service.exec P) (Refused v) v := by
  refine Service.ends_repo_bind (fun e key hkey => ?_) fun _ => refused _
  obtain ⟨T, K, key, hT, hK, hget, rfl, rfl⟩ := getKeyByID_ok hkey
  exact absurd ⟨K, hK, hget, hT⟩ (h key)

theorem listKeys_refused {tenantID identityID : String} (h : UUID.ofText? identityID = none) :
    (listKeys tenantID identityID : Svc Attrs _).Ends (Service.exec P) (Refused v) v := by
  refine Service.ends_repo (c := .keys (.listByIdentity ..)) (Q := Refused v)
    (fun e keys hkeys => ?_) fun _ => refused _
  obtain ⟨-, I, -, hI, -⟩ := listKeys_ok hkeys
  exact absurd (h.symm.trans hI) (Option.some_ne_none I).symm

theorem service_refused {req : Service.Request Attrs} {w : World} {T : UUID}
    (hsusp : Suspended T w) (hfor : CalledFor T (.service req)) (hshut : Shut P w (.service req)) :
    (req.program P).Ends (Service.exec P) (Refused w.svc) w.svc := by
  have hrespond : ∀ {β : Type} (f : β → Service.Response Attrs) (q : Svc Attrs β),
      q.Ends (Service.exec P) (Refused w.svc) w.svc →
      (Service.respond f q).Ends (Service.exec P) (Refused w.svc) w.svc := by
    refine fun f q hq => Service.ends_respond (hq.mono ?_)
    rintro _ v ⟨⟨e, rfl⟩, hv⟩
    exact ⟨⟨e, rfl⟩, hv⟩
  cases req with
  | createIdentity input =>
    obtain ⟨row, hrow, hstatus⟩ := hsusp
    exact hrespond _ _ (createIdentity_refused hfor.2 hrow (by rw [hstatus]; decide))
  | getIdentity => exact hrespond _ _ (getIdentity_refused hshut)
  | getIdentityByHandle => exact hrespond _ _ (getIdentityByHandle_refused hshut)
  | listIdentities => exact absurd hshut not_false
  | updateIdentity => exact hrespond _ _ (updateIdentity_refused hshut)
  | deactivateIdentity => exact hrespond _ _ (changeStatus_refused hshut)
  | suspendIdentity => exact hrespond _ _ (changeStatus_refused hshut)
  | reactivateIdentity => exact hrespond _ _ (changeStatus_refused hshut)
  | generateKey => exact hrespond _ _ (generateKey_refused hshut)
  | getKey => exact hrespond _ _ (getKey_refused hshut)
  | listKeys => exact hrespond _ _ (listKeys_refused hshut)
  | rotateKey => exact hrespond _ _ (rotateKey_refused hshut)
  | revokeKey => exact hrespond _ _ (revokeKey_refused hshut)
  | markCompromised => exact absurd hfor.1 not_false
  | deleteKey => exact absurd hfor.2 (by simp [Request.tenant, serviceTenant])
  | createTenant => exact absurd hfor.2 (by simp [Request.tenant, serviceTenant])
  | getTenant => exact absurd hfor.1 not_false
  | getTenantBySlug => exact absurd hfor.2 (by simp [Request.tenant, serviceTenant])
  | suspendTenant => exact absurd hfor.1 not_false
  | activateTenant => exact absurd hfor.1 not_false

end Services

/-! ### Ceremonies -/

section Ceremonies

variable {D : Deps Attrs} {w : World} {T : UUID}

/-- An error, with the tables as they were. -/
def Barred (w : World) (r : Except AuthError α) (w' : World) : Prop :=
  (∃ e, r = .error e) ∧ w'.svc.db = w.svc.db

theorem barred (e : AuthError) : Barred w (.error e : Except AuthError α) w := ⟨⟨e, rfl⟩, rfl⟩

theorem beginRegistration_barred {tenantID id : String}
    (h : ∀ row, Finds w.svc.db tenantID id row → Decrypts D.primitives row → row.status ≠ .active) :
    (beginRegistration D.primitives tenantID id).Ends (exec D) (Barred w) w := by
  refine ends_getIdentity_bind (fun I row attrs hT hI hget hdec => ?_) fun _ => barred _
  refine ends_refuseIf_bind (barred _) fun hactive => ?_
  exact absurd (h row ⟨I, hI, hget, hT⟩ ⟨_, hdec⟩) hactive

theorem beginAssertion_barred {tenantID handle : String}
    (h : ∀ row, FindsByHandle w.svc.db tenantID handle row → Decrypts D.primitives row →
      row.status ≠ .active) :
    (beginAssertion D.primitives tenantID handle).Ends (exec D) (Barred w) w := by
  refine ends_getIdentityByHandle_bind (fun row attrs hT hget hhandle hdec => ?_) fun _ => barred _
  refine ends_refuseIf_bind (barred _) fun hactive => ?_
  exact absurd (h row ⟨hget, hT, hhandle⟩ ⟨_, hdec⟩) hactive

theorem finishAssertion_barred {tenantID handle sessionID : String} {body : Bytes}
    (h : w.challenges.find (challengeKey sessionID) = none ∨
      ∀ row, FindsByHandle w.svc.db tenantID handle row → Decrypts D.primitives row →
        row.status ≠ .active) :
    (finishAssertion D.primitives tenantID handle sessionID body).Ends (exec D) (Barred w) w := by
  refine ends_getIdentityByHandle_bind (fun row attrs hT hget hhandle hdec => ?_) fun _ => barred _
  refine ends_refuseIf_bind (barred _) fun hactive => ?_
  rcases h with hnone | hstatus
  · refine ends_passkeys_bind (fun creds => ?_) fun _ => barred _
    exact ends_getChallenge_none hnone fun e w' hw => ⟨⟨e, rfl⟩, congrArg Service.World.db hw⟩
  · exact absurd (hstatus row ⟨hget, hT, hhandle⟩ ⟨_, hdec⟩) hactive

theorem operation_barred {req : Request Attrs} (hsusp : Suspended T w) (hfor : CalledFor T req)
    (hshut : Shut D.primitives w req) : (req.program D).Ends (exec D) (Barred w) w := by
  have hrespond : ∀ {β : Type} (f : β → Response Attrs) (q : Ceremony Attrs β),
      q.Ends (exec D) (Barred w) w → (respond f q).Ends (exec D) (Barred w) w := by
    refine fun f q hq => ends_respond (hq.mono ?_)
    rintro _ w' ⟨⟨e, rfl⟩, hw⟩
    exact ⟨⟨e, rfl⟩, hw⟩
  cases req with
  | service req =>
    refine hrespond _ _ (Program.Ends.embed (servicePart D) (F := fun _ => True)
      (fun _ _ _ _ => trivial) trivial ((service_refused hsusp hfor hshut).mono ?_))
    rintro _ _ ⟨⟨e, rfl⟩, hv⟩ w' - rfl
    exact ⟨⟨_, rfl⟩, hv⟩
  | beginRegistration => exact hrespond _ _ (beginRegistration_barred hshut)
  | beginAssertion => exact hrespond _ _ (beginAssertion_barred hshut)
  | finishAssertion => exact hrespond _ _ (finishAssertion_barred hshut)
  | finishRegistration =>
    refine hrespond _ _ ((finishRegistration_fails _ _ _ _).mono ?_)
    rintro _ w' ⟨herr, hw⟩
    exact ⟨herr, congrArg Service.World.db hw.svc⟩
  | registerBegin => exact absurd hfor.1 not_false
  | registerComplete => exact absurd hfor.1 not_false
  | loginBegin => exact absurd hfor.1 not_false
  | loginComplete => exact absurd hfor.1 not_false

/-! ### The status of the tenant -/

/-- A call leaves a suspended tenant suspended unless it sets another status. -/
theorem Suspended.exec {c : Op Attrs} (h : Suspended T w)
    (hc : ∀ id status, c = .svc (.repo (.tenants (.updateStatus id status))) →
      UUID.ofText? id = some T → status = .suspended) (e : Env) :
    Suspended T (exec D c e w).2 := by
  cases c with
  | svc c =>
    obtain ⟨row, hrow, hstatus⟩ := h
    obtain ⟨row', hrow', hsame | ⟨id, status, hid, hset, hev⟩⟩ :=
      (exec_tenantStep D.primitives c e.svc w.svc).row hrow
    · exact ⟨row', hrow', hsame.trans hstatus⟩
    · obtain rfl : c = _ := congrArg Event.op hev
      exact ⟨row', hrow', hset.trans (hc id status rfl hid)⟩
  | _ => exact h

theorem looks_status {c : Op Attrs} (hc : Looks c) (id : String) (status : TenantStatus) :
    c ≠ .svc (.repo (.tenants (.updateStatus id status))) := by
  rintro rfl
  cases hc with
  | outer hc => exact hc
  | read hc => cases hc

theorem plain_status {tenantID : String} {c : Op Attrs} (hc : Plain tenantID c) (id : String)
    (status : TenantStatus) : c ≠ .svc (.repo (.tenants (.updateStatus id status))) := by
  rintro rfl
  cases hc with
  | looks hc => exact looks_status hc id status rfl

theorem registers_status {tenantID identityID : String} {c : Op Attrs}
    (hc : Registers D.primitives tenantID identityID c) (id : String) (status : TenantStatus) :
    c ≠ .svc (.repo (.tenants (.updateStatus id status))) := by
  rintro rfl
  cases hc with
  | plain hc => exact plain_status hc id status rfl

/-- A tenant stays suspended through every request but its own activation. -/
theorem suspended_kept {req : Request Attrs} (hreq : ¬ Activates T req) (h : Suspended T w) :
    (req.program D).Ends (exec D) (fun _ => Suspended T) w := by
  refine (program_only D req).ends (fun c e w' hc hw' => hw'.exec ?_ e) (fun _ _ h => h) h
  rintro id status rfl hid
  cases hc with
  | service hc =>
    cases hc with
    | suspendTenantWrite => rfl
    | activateTenantWrite => exact absurd ⟨id, rfl, hid⟩ hreq
  | looks hc => exact absurd rfl (looks_status hc id status)
  | finishRegistration hc => exact absurd rfl (registers_status hc id status)
  | registerComplete hc => exact absurd rfl (registers_status hc id status)
  | finishAssertion hc => exact absurd rfl (plain_status hc id status)
  | loginComplete hc => exact absurd rfl (plain_status hc id status)

/-- An activation that fails has not set the status. -/
theorem activateTenant_suspended {id : String} {v : Service.World} :
    (activateTenant id : Svc Attrs Unit).Ends (Service.exec D.primitives)
      (fun r v' => v'.db = v.db ∨ r = .ok ()) v := by
  refine Service.ends_repo_bind (fun e tenant _ => ?_) fun _ => .inl rfl
  rw [exec_read rfl]
  refine Service.ends_refuseIf_bind (.inl rfl) fun _ => ?_
  exact Service.ends_repo (c := .tenants (.updateStatus ..)) (Q := fun r v' => v'.db = v.db ∨
    r = .ok ())
    (fun _ _ _ => .inr rfl) fun _ => .inl rfl

theorem activation_suspended (id : String) (h : Suspended T w) :
    ((Request.service (.activateTenant id)).program D).Ends (exec D)
      (fun r w' => Suspended T w' ∨ ∃ resp, r = .ok resp) w := by
  refine ends_respond (Program.Ends.embed (servicePart D) (F := fun _ => True)
    (fun _ _ _ _ => trivial) trivial (Service.ends_respond (activateTenant_suspended.mono ?_)))
  rintro r v (hdb | rfl) w' - rfl
  · obtain ⟨row, hrow, hstatus⟩ := h
    exact .inl ⟨row, (congrArg (fun db : DB => db.tenants.get? T) hdb).trans hrow, hstatus⟩
  · exact .inr ⟨_, rfl⟩

end Ceremonies

/-- In every run whose operations for `T` are `Shut` while `T` is suspended, each of them
returns an error then and leaves the identities, keys and credentials of `T`; and `T` stays
suspended until its activation succeeds. -/
theorem suspended_tenant_shut (D : Deps Attrs) (steps : List (Request Attrs × (Nat → Env)))
    (w₀ : World) (T : UUID)
    (hshut : ∀ req es w, (req, es, w) ∈ Program.trail (exec D) (Request.program D) steps w₀ →
      Suspended T w → CalledFor T req → Shut D.primitives w req) :
    ∀ req es w, (req, es, w) ∈ Program.trail (exec D) (Request.program D) steps w₀ →
      Suspended T w →
      let out := (req.program D).run (exec D) es w
      (CalledFor T req → (∃ e, out.1 = .error e) ∧
        tenantRows T out.2.svc.db = tenantRows T w.svc.db) ∧
      (Suspended T out.2 ∨ Activates T req ∧ ∃ resp, out.1 = .ok resp) := by
  intro req es w hmem hsusp out
  refine ⟨fun hfor => ?_, ?_⟩
  · obtain ⟨herr, hdb⟩ := (operation_barred hsusp hfor (hshut req es w hmem hsusp hfor)).run es
    exact ⟨herr, congrArg (tenantRows T) hdb⟩
  · by_cases hact : Activates T req
    · obtain ⟨id, rfl, hid⟩ := hact
      rcases (activation_suspended (D := D) id hsusp).run es with hkept | hok
      · exact .inl hkept
      · exact .inr ⟨⟨id, rfl, hid⟩, hok⟩
    · exact .inl ((suspended_kept hact hsusp).run es)

/-! ### Fixed runs -/

/-- Tenant 10 with identity 31, then suspended. -/
def suspendedTenant : List (Request Bytes × (Nat → Env)) :=
  oneTenant ++ [(.service (.suspendTenant (UUID.ofNat 10).toText), calmFrom 40)]

def tenantStatus (t : Nat) (w : World) : Option TenantStatus :=
  (w.svc.db.tenants.get? (.ofNat t)).map TenantRow.status

theorem suspended_of_status {t : Nat} {w : World} (h : tenantStatus t w = some .suspended) :
    Suspended (.ofNat t) w :=
  Option.map_eq_some_iff.mp h

theorem creation_in_suspended :
    let w := after suspendedTenant
    let out := ((newIdentity 10 "bob").program plainDeps).run (exec plainDeps) (calmFrom 50) w
    Suspended (.ofNat 10) w ∧ (∃ e, out.1 = .error e) ∧
      tenantRows (.ofNat 10) out.2.svc.db = tenantRows (.ofNat 10) w.svc.db := by
  intro w out
  have hsusp : Suspended (.ofNat 10) w := suspended_of_status (by decide +kernel)
  refine ⟨hsusp, (suspended_tenant_shut plainDeps
    (suspendedTenant ++ [(newIdentity 10 "bob", calmFrom 50)]) .empty (.ofNat 10) ?_ _ _ _
    (.tail _ (.tail _ (.tail _ (.head _)))) hsusp).1 ⟨trivial, by decide +kernel⟩⟩
  intro req es w hmem _ hfor
  have hstep := Program.mem_of_mem_trail hmem
  simp only [suspendedTenant, oneTenant, List.cons_append, List.nil_append, List.mem_cons,
    List.not_mem_nil, or_false] at hstep
  rcases hstep with ⟨rfl, -⟩ | ⟨rfl, -⟩ | ⟨rfl, -⟩ | ⟨rfl, -⟩ <;> trivial

/-- In a suspended tenant an identity is read and suspended, and gets a new key. -/
theorem suspended_tenant_served :
    let w := after suspendedTenant
    let T := (UUID.ofNat 10).toText
    let I := (UUID.ofNat 31).toText
    let read : Request Bytes := .service (.getIdentity T I)
    let generated : Request Bytes := .service (.generateKey
      ⟨T, I, .ed25519, .encryption, none⟩)
    let suspended : Request Bytes := .service (.suspendIdentity T I "")
    Reachable plainDeps (fun _ _ => True) w ∧ Suspended (.ofNat 10) w ∧
      ((read.program plainDeps).run (exec plainDeps) (calmFrom 50) w).1.isOk = true ∧
      keyOwner 52 w = none ∧
      keyOwner 52 ((generated.program plainDeps).run (exec plainDeps) (calmFrom 50) w).2 =
        some (.ofNat 10, .ofNat 31) ∧
      ((suspended.program plainDeps).run (exec plainDeps) (calmFrom 50) w).1.isOk = true := by
  intro w T I read generated suspended
  have hruns : tenantStatus 10 w = some .suspended ∧
      ((read.program plainDeps).run (exec plainDeps) (calmFrom 50) w).1.isOk = true ∧
      keyOwner 52 w = none ∧
      keyOwner 52 ((generated.program plainDeps).run (exec plainDeps) (calmFrom 50) w).2 =
        some (.ofNat 10, .ofNat 31) ∧
      ((suspended.program plainDeps).run (exec plainDeps) (calmFrom 50) w).1.isOk = true := by
    decide +kernel
  obtain ⟨hstatus, hserved⟩ := hruns
  exact ⟨(Program.Served.refl _).serve fun _ _ _ => trivial, suspended_of_status hstatus, hserved⟩

end Verion.Auth
