import Verion.Service.Keys

/-!
# Requests

A request is a method of one of the services with its arguments. `MayCall` says
which calls a request can make, with the arguments it makes them with; that its
program makes no others is proved once, and every argument about requests that
do not concern a table rests on it.
-/

namespace Verion.Service

open Calls Postgres

variable {Attrs : Type}

/-- A method of one of the services with its arguments. `markCompromised` and
`deleteKey` are the calls of the key repository and the key store that no
service makes on its own. -/
inductive Request (Attrs : Type) where
  | createIdentity (input : CreateIdentityInput Attrs)
  | getIdentity (tenantID id : String)
  | getIdentityByHandle (tenantID handle : String)
  | listIdentities (tenantID : String) (filter : IdentityFilter)
  | updateIdentity (input : UpdateIdentityInput Attrs)
  | deactivateIdentity (tenantID id actorID : String)
  | suspendIdentity (tenantID id actorID : String)
  | reactivateIdentity (tenantID id actorID : String)
  | generateKey (input : GenerateKeyInput)
  | getKey (tenantID keyID : String)
  | listKeys (tenantID identityID : String)
  | rotateKey (tenantID identityID oldKeyID actorID : String)
  | revokeKey (tenantID keyID actorID : String)
  | markCompromised (tenantID keyID : String)
  | deleteKey (keyRef : String)
  | createTenant (input : CreateTenantInput)
  | getTenant (id : String)
  | getTenantBySlug (slug : String)
  | suspendTenant (id : String)
  | activateTenant (id : String)

inductive Response (Attrs : Type) where
  | none
  | identity (ident : Identity Attrs)
  | identities (idents : List (Identity Attrs))
  | identityWithKeys (ident : IdentityWithKeys Attrs)
  | key (key : IdentityKey)
  | keys (keys : List IdentityKey)
  | tenant (tenant : Tenant)

def respond {α : Type} (f : α → Response Attrs) (p : Svc Attrs α) : Svc Attrs (Response Attrs) := do
  let a ← p
  .ret (f a)

theorem attempt_respond_bind {α γ : Type} (f : α → Response Attrs) (p : Svc Attrs α)
    (g : Except Error (Response Attrs) → Svc Attrs γ) :
    ((respond f p).attempt >>= g) = (p.attempt >>= fun r => g (r.map f)) := by
  induction p with
  | ret a => rfl
  | fail e => rfl
  | call c k ih => exact congrArg (Program.call c) (funext ih)

def Request.program (P : Primitives Attrs) : Request Attrs → Svc Attrs (Response Attrs)
  | .createIdentity input => respond .identityWithKeys (Service.createIdentity P input)
  | .getIdentity tenantID id => respond .identity (Service.getIdentity P tenantID id)
  | .getIdentityByHandle tenantID handle =>
    respond .identity (Service.getIdentityByHandle P tenantID handle)
  | .listIdentities tenantID filter =>
    respond .identities (Service.listIdentities P tenantID filter)
  | .updateIdentity input => respond .identity (Service.updateIdentity P input)
  | .deactivateIdentity tenantID id actorID =>
    respond (fun _ => .none) (Service.deactivateIdentity tenantID id actorID)
  | .suspendIdentity tenantID id actorID =>
    respond (fun _ => .none) (Service.suspendIdentity tenantID id actorID)
  | .reactivateIdentity tenantID id actorID =>
    respond (fun _ => .none) (Service.reactivateIdentity tenantID id actorID)
  | .generateKey input => respond .key (Service.generateKey input)
  | .getKey tenantID keyID => respond .key (Service.getKey tenantID keyID)
  | .listKeys tenantID identityID => respond .keys (Service.listKeys tenantID identityID)
  | .rotateKey tenantID identityID oldKeyID actorID =>
    respond .key (Service.rotateKey tenantID identityID oldKeyID actorID)
  | .revokeKey tenantID keyID actorID =>
    respond (fun _ => .none) (Service.revokeKey tenantID keyID actorID)
  | .markCompromised tenantID keyID =>
    respond (fun _ => .none) (repo (.keys (.markCompromised tenantID keyID)) fun e => e)
  | .deleteKey keyRef => respond (fun _ => .none) (.call (.deleteKey keyRef) (orFail fun e => e))
  | .createTenant input => respond .tenant (Service.createTenant input)
  | .getTenant id => respond .tenant (Service.getTenant id)
  | .getTenantBySlug slug => respond .tenant (Service.getTenantBySlug slug)
  | .suspendTenant id => respond (fun _ => .none) (Service.suspendTenant id)
  | .activateTenant id => respond (fun _ => .none) (Service.activateTenant id)

/-! ### Rules for the building blocks -/

section Rules

variable {p : Op Attrs → Prop} {α β : Type} {P : Primitives Attrs}
  {Q : Protocol (@Op.Reply Attrs) Error α} {h : List (Event (@Op.Reply Attrs))}

theorem only_orFail (f : Error → Error) (x : Except Error α) :
    (orFail f x : Svc Attrs α).Only p := by
  cases x <;> trivial

theorem only_refuseIf (cond : Prop) [Decidable cond] (e : Error) :
    (refuseIf cond e : Svc Attrs Unit).Only p := by
  unfold refuseIf
  split <;> trivial

theorem only_repo {c : RepoCall Attrs} (hc : p (.repo c)) (f : Error → Error) :
    (repo c f).Only p :=
  ⟨hc, fun r => only_orFail f r⟩

theorem only_writeAudit {event : AuditEvent} (hc : p (.repo (.audit (.insert event)))) :
    (writeAudit event : Svc Attrs Unit).Only p :=
  only_repo hc _

theorem only_encryptAttributes (hc : ∀ plaintext, p (.encrypt plaintext)) (attrs : Attrs) :
    (encryptAttributes P attrs).Only p := by
  unfold encryptAttributes
  split
  · trivial
  · split
    · trivial
    · refine ⟨hc _, fun r => ?_⟩
      cases r <;> trivial

/-- The key that `generateKeyPair` describes is active. -/
theorem only_generateKeyPair_bind {tenantID identityID : String} {keyType : KeyType}
    {purpose : KeyPurpose} {f : IdentityKey → Svc Attrs α} (hc : ∀ a id, p (.generateKey a id))
    (hf : ∀ key, key.status = .active → (f key).Only p) :
    (generateKeyPair tenantID identityID keyType purpose >>= f).Only p := by
  unfold generateKeyPair
  split
  · trivial
  · refine ⟨hc _ _, fun r => ?_⟩
    cases r with
    | ok generated => exact hf _ rfl
    | error e => trivial

theorem obeys_orFail (f : Error → Error) (x : Except Error α) :
    (orFail f x).Obeys (exec P) Q h ↔ match x with
      | .ok a => Q.done h (.ok a)
      | .error e => Q.done h (.error (f e)) := by
  cases x <;> exact Iff.rfl

/-- A repository call ends the request when it fails. -/
theorem obeys_repo_bind {c : RepoCall Attrs} {f : Error → Error} {g : c.Result → Svc Attrs α}
    (hcall : Q.call h (.repo c))
    (hok : ∀ a, Possible (exec P) (.repo c) (.ok a) →
      (g a).Obeys (exec P) Q (⟨.repo c, .ok a⟩ :: h))
    (herr : ∀ e, Q.done (⟨.repo c, .error e⟩ :: h) (.error (f e))) :
    (repo c f >>= g).Obeys (exec P) Q h := by
  refine ⟨hcall, fun r hr => ?_⟩
  cases r with
  | ok a => exact hok a hr
  | error e => exact herr e

theorem obeys_refuseIf_bind {cond : Prop} [Decidable cond] {e : Error} {g : Unit → Svc Attrs α}
    (hfail : Q.done h (.error e)) (hgo : ¬ cond → (g ()).Obeys (exec P) Q h) :
    (refuseIf cond e >>= g).Obeys (exec P) Q h := by
  unfold refuseIf
  split
  · exact hfail
  · exact hgo ‹_›

theorem obeys_generateKeyPair_bind {tenantID identityID : String} {keyType : KeyType}
    {purpose : KeyPurpose} {f : IdentityKey → Svc Attrs α} (hfail : ∀ h e, Q.done h (.error e))
    (hgo : ∀ generator algorithm, generatorOf keyType = some (generator, algorithm) →
      Q.call h (.generateKey generator (cryptoKeyID tenantID identityID keyType)) ∧
      ∀ generated, Possible (exec P)
          (.generateKey generator (cryptoKeyID tenantID identityID keyType)) (.ok generated) →
        (f (keyOf tenantID identityID keyType purpose algorithm generated)).Obeys (exec P) Q
          (⟨.generateKey generator (cryptoKeyID tenantID identityID keyType),
            .ok generated⟩ :: h)) :
    (generateKeyPair tenantID identityID keyType purpose >>= f).Obeys (exec P) Q h := by
  unfold generateKeyPair
  split
  · exact hfail h _
  · rename_i generator algorithm hgen
    refine ⟨(hgo generator algorithm hgen).1, fun r hr => ?_⟩
    cases r with
    | ok generated => exact (hgo generator algorithm hgen).2 generated hr
    | error e => exact hfail _ _

theorem obeys_respond {f : β → Response Attrs} {q : Svc Attrs β}
    {Q : Protocol (@Op.Reply Attrs) Error (Response Attrs)}
    (hq : q.Obeys (exec P) ⟨Q.call, fun h x => Q.done h (x.map f)⟩ h) :
    (respond f q).Obeys (exec P) Q h := by
  refine (Program.obeys_bind _ _ _).mpr (hq.mono ?_ ?_)
  · exact fun _ _ hcall => hcall
  · intro h x hx
    cases x <;> exact hx

theorem only_changeStatus {status : IdentityStatus} {event getContext writeContext : String}
    {tenantID id actorID : String} (hget : p (.repo (.identities (.getByID tenantID id))))
    (hwrite : p (.repo (.identities (.updateStatus tenantID id status))))
    (haudit : ∀ e, e.tenantID = tenantID → p (.repo (.audit (.insert e)))) :
    (changeStatus status event getContext writeContext tenantID id actorID : Svc Attrs Unit).Only
      p := by
  refine (only_repo hget _).bind fun ident => ?_
  refine (only_refuseIf _ _).bind fun _ => ?_
  exact (only_repo hwrite _).bind fun _ => only_writeAudit (haudit _ rfl)

theorem only_respond {f : α → Response Attrs} {q : Svc Attrs α} (hq : q.Only p) :
    (respond f q).Only p :=
  hq.bind fun _ => trivial

end Rules

/-! ### The calls of each request -/

/-- The calls a request can make, with the arguments it makes them with. -/
inductive MayCall : Request Attrs → Op Attrs → Prop where
  | createIdentityTenant (input) :
      MayCall (.createIdentity input) (.repo (.tenants (.getByID input.tenantID)))
  | createIdentityEncrypt (input plaintext) : MayCall (.createIdentity input) (.encrypt plaintext)
  | createIdentityCreate (input) (ident : Identity Attrs) (ht : ident.tenantID = input.tenantID)
      (hs : ident.status = .pending) :
      MayCall (.createIdentity input) (.repo (.identities (.create ident)))
  | createIdentityKeyPair (input keyID) :
      MayCall (.createIdentity input) (.generateKey .ed25519 keyID)
  | createIdentityKey (input) (k : IdentityKey) (ht : k.tenantID = input.tenantID)
      (hs : k.status = .active) :
      MayCall (.createIdentity input) (.repo (.keys (.create k)))
  | createIdentityPrimaryKey (input id keyID) : MayCall (.createIdentity input)
      (.repo (.identities (.setPrimaryKey input.tenantID id keyID)))
  | createIdentityActivate (input id) : MayCall (.createIdentity input)
      (.repo (.identities (.updateStatus input.tenantID id .active)))
  | createIdentityAudit (input event) :
      MayCall (.createIdentity input) (.repo (.audit (.insert event)))
  | getIdentity (tenantID id) :
      MayCall (.getIdentity tenantID id) (.repo (.identities (.getByID tenantID id)))
  | getIdentityByHandle (tenantID handle) : MayCall (.getIdentityByHandle tenantID handle)
      (.repo (.identities (.getByHandle tenantID handle)))
  | listIdentities (tenantID filter) :
      MayCall (.listIdentities tenantID filter) (.repo (.identities (.list tenantID filter)))
  | updateIdentityGet (input) : MayCall (.updateIdentity input)
      (.repo (.identities (.getByID input.tenantID input.id)))
  | updateIdentityEncrypt (input plaintext) : MayCall (.updateIdentity input) (.encrypt plaintext)
  | updateIdentityUpdate (input) (ident : Identity Attrs)
      (hd : ident.displayName = input.displayName) (hv : ident.version = input.version) :
      MayCall (.updateIdentity input) (.repo (.identities (.update ident)))
  | deactivateGet (tenantID id actorID) : MayCall (.deactivateIdentity tenantID id actorID)
      (.repo (.identities (.getByID tenantID id)))
  | deactivateWrite (tenantID id actorID) : MayCall (.deactivateIdentity tenantID id actorID)
      (.repo (.identities (.updateStatus tenantID id .deactivated)))
  | deactivateAudit (tenantID id actorID event) :
      MayCall (.deactivateIdentity tenantID id actorID) (.repo (.audit (.insert event)))
  | suspendGet (tenantID id actorID) : MayCall (.suspendIdentity tenantID id actorID)
      (.repo (.identities (.getByID tenantID id)))
  | suspendWrite (tenantID id actorID) : MayCall (.suspendIdentity tenantID id actorID)
      (.repo (.identities (.updateStatus tenantID id .suspended)))
  | suspendAudit (tenantID id actorID event) :
      MayCall (.suspendIdentity tenantID id actorID) (.repo (.audit (.insert event)))
  | reactivateGet (tenantID id actorID) : MayCall (.reactivateIdentity tenantID id actorID)
      (.repo (.identities (.getByID tenantID id)))
  | reactivateWrite (tenantID id actorID) : MayCall (.reactivateIdentity tenantID id actorID)
      (.repo (.identities (.updateStatus tenantID id .active)))
  | reactivateAudit (tenantID id actorID event) :
      MayCall (.reactivateIdentity tenantID id actorID) (.repo (.audit (.insert event)))
  | generateKeyIdentity (input) : MayCall (.generateKey input)
      (.repo (.identities (.getByID input.tenantID input.identityID)))
  | generateKeyPair (input a keyID) : MayCall (.generateKey input) (.generateKey a keyID)
  | generateKeyCreate (input) (k : IdentityKey) (hs : k.status = .active) :
      MayCall (.generateKey input) (.repo (.keys (.create k)))
  | generateKeyAudit (input event) : MayCall (.generateKey input) (.repo (.audit (.insert event)))
  | getKey (tenantID keyID) :
      MayCall (.getKey tenantID keyID) (.repo (.keys (.getByID tenantID keyID)))
  | listKeys (tenantID identityID) : MayCall (.listKeys tenantID identityID)
      (.repo (.keys (.listByIdentity tenantID identityID none)))
  | rotateKeyGet (tenantID identityID oldKeyID actorID) :
      MayCall (.rotateKey tenantID identityID oldKeyID actorID)
        (.repo (.keys (.getByID tenantID oldKeyID)))
  | rotateKeyNow (tenantID identityID oldKeyID actorID) :
      MayCall (.rotateKey tenantID identityID oldKeyID actorID) .now
  | rotateKeyPair (tenantID identityID oldKeyID actorID a keyID) :
      MayCall (.rotateKey tenantID identityID oldKeyID actorID) (.generateKey a keyID)
  | rotateKeyCreate (tenantID identityID oldKeyID actorID) (k : IdentityKey)
      (hs : k.status = .active) :
      MayCall (.rotateKey tenantID identityID oldKeyID actorID) (.repo (.keys (.create k)))
  | rotateKeyRotate (tenantID identityID oldKeyID actorID newKeyID) :
      MayCall (.rotateKey tenantID identityID oldKeyID actorID)
        (.repo (.keys (.rotate tenantID oldKeyID newKeyID)))
  | rotateKeyIdentity (tenantID identityID oldKeyID actorID) :
      MayCall (.rotateKey tenantID identityID oldKeyID actorID)
        (.repo (.identities (.getByID tenantID identityID)))
  | rotateKeyPrimaryKey (tenantID identityID oldKeyID actorID keyID) :
      MayCall (.rotateKey tenantID identityID oldKeyID actorID)
        (.repo (.identities (.setPrimaryKey tenantID identityID keyID)))
  | rotateKeyAudit (tenantID identityID oldKeyID actorID event) :
      MayCall (.rotateKey tenantID identityID oldKeyID actorID) (.repo (.audit (.insert event)))
  | revokeKeyGet (tenantID keyID actorID) :
      MayCall (.revokeKey tenantID keyID actorID) (.repo (.keys (.getByID tenantID keyID)))
  | revokeKeyRevoke (tenantID keyID actorID) :
      MayCall (.revokeKey tenantID keyID actorID) (.repo (.keys (.revoke tenantID keyID)))
  | revokeKeyAudit (tenantID keyID actorID event) :
      MayCall (.revokeKey tenantID keyID actorID) (.repo (.audit (.insert event)))
  | markCompromised (tenantID keyID) :
      MayCall (.markCompromised tenantID keyID) (.repo (.keys (.markCompromised tenantID keyID)))
  | deleteKey (keyRef) : MayCall (.deleteKey keyRef) (.deleteKey keyRef)
  | createTenantCreate (input tenant) :
      MayCall (.createTenant input) (.repo (.tenants (.create tenant)))
  | createTenantAudit (input event) :
      MayCall (.createTenant input) (.repo (.audit (.insert event)))
  | getTenant (id) : MayCall (.getTenant id) (.repo (.tenants (.getByID id)))
  | getTenantBySlug (slug) : MayCall (.getTenantBySlug slug) (.repo (.tenants (.getBySlug slug)))
  | suspendTenantGet (id) : MayCall (.suspendTenant id) (.repo (.tenants (.getByID id)))
  | suspendTenantWrite (id) :
      MayCall (.suspendTenant id) (.repo (.tenants (.updateStatus id .suspended)))
  | suspendTenantAudit (id event) : MayCall (.suspendTenant id) (.repo (.audit (.insert event)))
  | activateTenantGet (id) : MayCall (.activateTenant id) (.repo (.tenants (.getByID id)))
  | activateTenantWrite (id) :
      MayCall (.activateTenant id) (.repo (.tenants (.updateStatus id .active)))

/-- A request makes no other calls. -/
theorem program_only (P : Primitives Attrs) (req : Request Attrs) :
    (req.program P).Only (MayCall req) := by
  cases req with
  | createIdentity input =>
    refine only_respond ((only_orFail _ _).bind fun _ => ?_)
    refine (only_repo (.createIdentityTenant _) _).bind fun tenant => ?_
    refine (only_refuseIf _ _).bind fun _ => ?_
    refine (only_encryptAttributes (.createIdentityEncrypt _) _).bind fun enc => ?_
    refine (only_orFail _ _).bind fun encryptedAttrs => ?_
    refine (only_repo (.createIdentityCreate _ _ rfl rfl) _).bind fun created => ?_
    refine Program.Only.bind ⟨.createIdentityKeyPair _ _, only_orFail _⟩ fun generated => ?_
    refine (only_repo (.createIdentityKey _ _ rfl rfl) _).bind fun createdKey => ?_
    refine (only_repo (.createIdentityPrimaryKey _ _ _) _).bind fun _ => ?_
    refine (only_repo (.createIdentityActivate _ _) _).bind fun _ => ?_
    exact (only_writeAudit (.createIdentityAudit _ _)).bind fun _ => trivial
  | getIdentity tenantID id =>
    exact only_respond ((only_repo (.getIdentity _ _) _).bind fun _ => only_orFail _ _)
  | getIdentityByHandle tenantID handle =>
    exact only_respond ((only_repo (.getIdentityByHandle _ _) _).bind fun _ => only_orFail _ _)
  | listIdentities tenantID filter =>
    exact only_respond ((only_repo (.listIdentities _ _) _).bind fun _ => only_orFail _ _)
  | updateIdentity input =>
    refine only_respond ((only_refuseIf _ _).bind fun _ => ?_)
    refine (only_repo (.updateIdentityGet _) _).bind fun existing => ?_
    refine (only_encryptAttributes (.updateIdentityEncrypt _) _).bind fun enc => ?_
    refine (only_orFail _ _).bind fun encryptedAttrs => ?_
    exact (only_repo (.updateIdentityUpdate _ _ rfl rfl) _).bind fun _ => only_orFail _ _
  | deactivateIdentity tenantID id actorID =>
    exact only_respond (only_changeStatus (.deactivateGet ..) (.deactivateWrite ..)
      fun _ _ => .deactivateAudit ..)
  | suspendIdentity tenantID id actorID =>
    exact only_respond (only_changeStatus (.suspendGet ..) (.suspendWrite ..) fun _ _ =>
      .suspendAudit ..)
  | reactivateIdentity tenantID id actorID =>
    exact only_respond (only_changeStatus (.reactivateGet ..) (.reactivateWrite ..)
      fun _ _ => .reactivateAudit ..)
  | generateKey input =>
    refine only_respond ((only_repo (.generateKeyIdentity _) _).bind fun ident => ?_)
    refine (only_refuseIf _ _).bind fun _ => ?_
    refine only_generateKeyPair_bind (.generateKeyPair _) fun key hactive => ?_
    refine (only_repo (.generateKeyCreate _ _ hactive) _).bind fun createdKey => ?_
    exact (only_writeAudit (.generateKeyAudit _ _)).bind fun _ => trivial
  | getKey tenantID keyID => exact only_respond (only_repo (.getKey _ _) _)
  | listKeys tenantID identityID => exact only_respond (only_repo (.listKeys _ _) _)
  | rotateKey tenantID identityID oldKeyID actorID =>
    refine only_respond ((only_repo (.rotateKeyGet ..) _).bind fun oldKey => ?_)
    refine ⟨.rotateKeyNow .., fun now => ?_⟩
    refine (only_refuseIf _ _).bind fun _ => ?_
    refine only_generateKeyPair_bind (.rotateKeyPair _ _ _ _) fun newKey hactive => ?_
    refine (only_repo (.rotateKeyCreate _ _ _ _ _ hactive) _).bind fun createdKey => ?_
    refine (only_repo (.rotateKeyRotate ..) _).bind fun _ => ?_
    refine (only_repo (.rotateKeyIdentity ..) _).bind fun ident => ?_
    refine Program.Only.bind ?_ fun _ =>
      (only_writeAudit (.rotateKeyAudit _ _ _ _ _)).bind fun _ => trivial
    split
    · exact only_repo (.rotateKeyPrimaryKey ..) _
    · trivial
  | revokeKey tenantID keyID actorID =>
    refine only_respond ((only_repo (.revokeKeyGet ..) _).bind fun _ => ?_)
    refine (only_repo (.revokeKeyRevoke ..) _).bind fun _ => ?_
    exact only_writeAudit (.revokeKeyAudit _ _ _ _)
  | markCompromised tenantID keyID => exact only_respond (only_repo (.markCompromised _ _) _)
  | deleteKey keyRef => exact only_respond ⟨.deleteKey _, only_orFail _⟩
  | createTenant input =>
    refine only_respond ((only_orFail _ _).bind fun _ => ?_)
    refine (only_repo (.createTenantCreate _ _) _).bind fun created => ?_
    exact (only_writeAudit (.createTenantAudit _ _)).bind fun _ => trivial
  | getTenant id => exact only_respond (only_repo (.getTenant _) _)
  | getTenantBySlug slug => exact only_respond (only_repo (.getTenantBySlug _) _)
  | suspendTenant id =>
    refine only_respond ((only_repo (.suspendTenantGet _) _).bind fun tenant => ?_)
    refine (only_refuseIf _ _).bind fun _ => ?_
    refine (only_repo (.suspendTenantWrite _) _).bind fun _ => ?_
    exact only_writeAudit (.suspendTenantAudit _ _)
  | activateTenant id =>
    refine only_respond ((only_repo (.activateTenantGet _) _).bind fun tenant => ?_)
    refine (only_refuseIf _ _).bind fun _ => ?_
    exact only_repo (.activateTenantWrite _) _

end Verion.Service
