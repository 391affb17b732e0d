import Verion.Library.Fronts
import Verion.Service.Requests

/-!
# What the services fail with

Callers tell errors apart by the sentinels they match. Here is which ones each method can
return, whatever the tables hold and whatever fails on the way: the sentinels of the calls
it makes, and its own.
-/

namespace Verion

/-- Of the sentinels the error matches none but these. -/
def Error.Within (sentinels : List Sentinel) (e : Error) : Prop :=
  ∀ s, e.is s = true → s ∈ sentinels

theorem Error.Within.mono {S S' : List Sentinel} {e : Error} (h : e.Within S) (hS : S ⊆ S') :
    e.Within S' :=
  fun s hs => hS (h s hs)

theorem within_pg (S : List Sentinel) (e : PgError) : (Error.pg e).Within S :=
  fun _ h => nomatch h

theorem within_text (S : List Sentinel) (message : String) : (Error.text message).Within S :=
  fun _ h => nomatch h

/-- A context changes nothing. -/
theorem within_wrap {S : List Sentinel} (context : String) {e : Error} (h : e.Within S) :
    (Error.wrap context e).Within S :=
  h

theorem within_sentinel {S : List Sentinel} {t : Sentinel} (h : t ∈ S) :
    (Error.sentinel t).Within S := by
  intro s hs
  rwa [← beq_iff_eq.mp hs]

theorem within_validation {S : List Sentinel} (field message : String)
    (h : Sentinel.invalidInput ∈ S) : (Error.validation field message).Within S := by
  intro s hs
  rwa [beq_iff_eq.mp hs]

namespace Postgres

open Calls

variable {Attrs α ρ : Type} {S : List Sentinel}

/-! ### Repositories -/

def TenantCall.sentinels : TenantCall → List Sentinel
  | .create _ => [.alreadyExists]
  | .getByID _ | .getBySlug _ | .update _ => [.notFound]
  | .updateStatus .. | .list _ => []

def IdentityCall.sentinels : IdentityCall Attrs → List Sentinel
  | .create _ => [.handleTaken]
  | .getByID .. | .getByHandle .. => [.notFound]
  | .update _ => [.versionConflict]
  | .updateStatus .. | .setPrimaryKey .. | .list .. | .count .. => []

def KeyCall.sentinels : KeyCall → List Sentinel
  | .getByID .. | .getByFingerprint .. | .getActiveByPurpose .. => [.keyNotFound]
  | .create _ | .listByIdentity .. | .rotate .. | .revoke .. | .markCompromised .. => []

def CredentialCall.sentinels : CredentialCall → List Sentinel
  | .create _ => [.alreadyExists]
  | .getByID .. | .getWebAuthnByCredentialID .. => [.credentialNotFound]
  | .listByIdentity .. | .updateSignCount .. | .updateLastUsed .. | .revoke .. => []

/-- An audit event is never a sentinel's matter. -/
def RepoCall.sentinels : RepoCall Attrs → List Sentinel
  | .tenants c => c.sentinels
  | .identities c => c.sentinels
  | .keys c => c.sentinels
  | .credentials c => c.sentinels
  | .audit _ => []

/-- The replies of the driver are of any kind. -/
abbrev Script.Within (S : List Sentinel) (p : Script α) : Prop :=
  p.FailsOnly (fun _ _ => True) (Error.Within S)

section Routes

variable {q : Query} {finish : Except PgError (List q.Row) → Except Error α}

theorem within_ask (h : ∀ r x, finish r = .error x → x.Within S) : Script.Within S (ask q finish) :=
  fun r _ => .ofExcept fun x hx => h r x hx

theorem within_check (context : String) (r : Except PgError α) :
    Script.Within S (check (fun e => .wrap context (.pg e)) r) := by
  cases r with
  | ok a => trivial
  | error e => exact within_wrap context (within_pg S e)

theorem within_viaPool (h : ∀ r x, finish r = .error x → x.Within S) :
    Script.Within S (viaPool q finish) := by
  intro r _
  cases r with
  | ok u => exact within_ask h
  | error e => exact .ofExcept fun x hx => h _ x hx

theorem within_withTenantConn {fn : Script α} (tenantID : String) (h : Script.Within S fn) :
    Script.Within S (withTenantConn tenantID fn) := by
  intro r _
  refine (within_check "postgres: acquire connection" r).bind fun _ r' _ => ?_
  exact (within_check "postgres: set tenant context" r').bind fun _ => h

/-- One query over the connection of the tenant. -/
theorem within_tenantQuery (tenantID : String) (h : ∀ r x, finish r = .error x → x.Within S) :
    Script.Within S (withTenantConn tenantID (ask q finish)) :=
  within_withTenantConn tenantID (within_ask h)

theorem within_withTenantTx {fn : Script α} (tenantID : String) (h : Script.Within S fn) :
    Script.Within S (withTenantTx tenantID fn) := by
  intro r _
  refine (within_check "postgres: acquire connection" r).bind fun _ r' _ => ?_
  refine (within_check "postgres: begin transaction" r').bind fun _ r'' _ => ?_
  cases r'' with
  | error e => exact fun _ _ => within_pg S e
  | ok u =>
    refine Program.FailsOnly.attempt_bind h (fun a r₃ _ => ?_) fun e he _ _ => he
    exact (within_check "postgres: commit" r₃).bind fun _ => trivial

theorem within_mapError {s : Script α} {f : Error → Error} {S' : List Sentinel}
    (hs : Script.Within S s) (hf : ∀ e, e.Within S → (f e).Within S') :
    Script.Within S' (CredentialRepo.mapError f s) :=
  Program.FailsOnly.attempt_bind hs (fun _ => trivial) hf

end Routes

section Answers

variable {scan : ρ → α} {fail : Error → Error}

theorem within_single (h : ∀ e, (fail (.pg e)).Within S) (r : Except PgError (List ρ)) (x : Error)
    (hx : single scan fail r = .error x) : x.Within S := by
  rcases r with e | rows
  · cases hx
    exact h e
  · cases rows with
    | nil =>
      cases hx
      exact h .noRows
    | cons row rest => cases hx

theorem within_many (h : ∀ e, (fail (.pg e)).Within S) (r : Except PgError (List ρ)) (x : Error)
    (hx : many scan fail r = .error x) : x.Within S := by
  rcases r with e | rows
  · cases hx
    exact h e
  · cases hx

theorem within_done (h : ∀ e, (fail (.pg e)).Within S) (r : Except PgError (List ρ)) (x : Error)
    (hx : done fail r = .error x) : x.Within S := by
  rcases r with e | rows
  · cases hx
    exact h e
  · cases hx

theorem within_ifUnique {domain : Sentinel} (h : domain ∈ S) (context : String) {e : Error}
    (he : e.Within S) : (ifUnique domain context e).Within S := by
  unfold ifUnique
  split
  · exact within_sentinel h
  · exact he

theorem within_ifNotFound {domain : Error} (h : domain.Within S) (context : String) {e : Error}
    (he : e.Within S) : (ifNotFound domain context e).Within S := by
  unfold ifNotFound
  split
  · exact h
  · exact he

theorem within_found (r : Except PgError (List KeyRow)) (x : Error)
    (hx : KeyRepo.found r = .error x) : x.Within [.keyNotFound] := by
  refine within_single (fun e => ?_) r x hx
  split
  · exact within_sentinel (List.mem_singleton_self _)
  · exact within_pg _ e

end Answers

theorem within_notFound (entityType id : String) :
    (Error.notFound entityType id).Within [.notFound] := by
  intro s hs
  exact List.mem_singleton.mpr (beq_iff_eq.mp hs)

theorem within_insertTx (now : Time) (event : AuditEvent) :
    Script.Within S (AuditRepo.insertTx now event) :=
  within_ask (within_single fun e => within_pg S e)

theorem within_tenants (c : TenantCall) : Script.Within c.sentinels c.script := by
  have hlookup : ∀ (key context : String) (e : PgError),
      (ifNotFound (.notFound "tenant" key) context (.pg e)).Within [.notFound] :=
    fun key context e => within_ifNotFound (within_notFound _ _) context (within_pg _ e)
  cases c with
  | create t =>
    refine within_viaPool (within_single fun e => ?_)
    exact within_ifUnique (List.mem_singleton_self _) _ (within_pg _ e)
  | getByID id => exact within_viaPool (within_single (hlookup _ _))
  | getBySlug slug => exact within_viaPool (within_single (hlookup _ _))
  | update t => exact within_viaPool (within_single (hlookup _ _))
  | updateStatus id status => exact within_viaPool (within_done fun e => within_pg _ e)
  | list filter => exact within_viaPool (within_many fun e => within_pg _ e)

theorem within_identities (now : Time) (c : IdentityCall Attrs) :
    Script.Within c.sentinels (c.script now) := by
  have hlookup : ∀ (key context : String) (e : PgError),
      (ifNotFound (.notFound "identity" key) context (.pg e)).Within [.notFound] :=
    fun key context e => within_ifNotFound (within_notFound _ _) context (within_pg _ e)
  cases c with
  | create ident =>
    refine within_withTenantTx _ (Program.FailsOnly.bind (within_ask ?_) fun result => ?_)
    · refine within_single fun e => ?_
      exact within_ifUnique (List.mem_singleton_self _) _ (within_pg _ e)
    · exact (within_insertTx now _).bind fun _ => trivial
  | getByID tenantID id =>
    exact within_tenantQuery _ (within_single (hlookup _ _))
  | getByHandle tenantID handle =>
    exact within_tenantQuery _ (within_single (hlookup _ _))
  | update ident =>
    refine within_tenantQuery _ (within_single fun e => ?_)
    refine within_ifNotFound (fun s hs => ?_) _ (within_pg _ e)
    exact List.mem_singleton.mpr (beq_iff_eq.mp hs)
  | updateStatus tenantID id status =>
    exact within_tenantQuery _ (within_done fun e => within_pg _ e)
  | setPrimaryKey tenantID identityID keyID =>
    exact within_tenantQuery _ (within_done fun e => within_pg _ e)
  | list tenantID filter =>
    exact within_tenantQuery _ (within_many fun e => within_pg _ e)
  | count tenantID filter =>
    exact within_tenantQuery _ (within_single fun e => within_pg _ e)

theorem within_keys (c : KeyCall) : Script.Within c.sentinels c.script := by
  cases c with
  | create key =>
    exact within_tenantQuery _ (within_single fun e => within_pg _ e)
  | getByID tenantID id => exact within_tenantQuery _ within_found
  | getByFingerprint tenantID fingerprint =>
    exact within_tenantQuery _ within_found
  | getActiveByPurpose tenantID identityID purpose =>
    exact within_tenantQuery _ within_found
  | listByIdentity tenantID identityID status =>
    exact within_tenantQuery _ (within_many fun e => within_pg _ e)
  | rotate tenantID oldKeyID newKeyID =>
    exact within_tenantQuery _ (within_done fun e => within_pg _ e)
  | revoke tenantID keyID =>
    exact within_tenantQuery _ (within_done fun e => within_pg _ e)
  | markCompromised tenantID keyID =>
    exact within_tenantQuery _ (within_done fun e => within_pg _ e)

theorem within_credentials (c : CredentialCall) : Script.Within c.sentinels c.script := by
  have hplain : ∀ {q : Query} {scan : q.Row → Credential} (tenantID : String),
      Script.Within [] (withTenantConn tenantID (ask q (single scan fun e => e))) :=
    fun tenantID => within_tenantQuery _ (within_single fun e => within_pg _ e)
  have hlookup : ∀ (context : String) (e : Error), e.Within [] →
      (ifNotFound (.sentinel .credentialNotFound) context e).Within [.credentialNotFound] :=
    fun context e he => within_ifNotFound (within_sentinel (List.mem_singleton_self _)) context
      (he.mono (List.nil_subset _))
  cases c with
  | create cred =>
    refine within_mapError (hplain _) fun e he => ?_
    exact within_ifUnique (List.mem_singleton_self _) _ (he.mono (List.nil_subset _))
  | getByID tenantID id => exact within_mapError (hplain _) (hlookup _)
  | getWebAuthnByCredentialID tenantID credentialID => exact within_mapError (hplain _) (hlookup _)
  | listByIdentity tenantID identityID status =>
    exact within_viaPool (within_many fun e => within_pg _ e)
  | updateSignCount tenantID credentialID count =>
    exact within_viaPool (within_done fun e => within_pg _ e)
  | updateLastUsed tenantID credentialID at_ =>
    exact within_viaPool (within_done fun e => within_pg _ e)
  | revoke tenantID credentialID => exact within_viaPool (within_done fun e => within_pg _ e)

theorem within_audit (now : Time) (c : AuditCall) : Script.Within [] (c.script now) := by
  cases c with
  | insert event => exact within_withTenantConn _ (within_insertTx now event)
  | getByID tenantID id =>
    exact within_tenantQuery _ (within_single fun e => within_pg _ e)
  | listByEntity tenantID entityType entityID limit offset =>
    exact within_tenantQuery _ (within_many fun e => within_pg _ e)
  | listByActor tenantID actorID limit offset =>
    exact within_tenantQuery _ (within_many fun e => within_pg _ e)
  | listByTenant tenantID filter =>
    exact within_tenantQuery _ (within_many fun e => within_pg _ e)

theorem within_script (now : Time) (c : RepoCall Attrs) :
    Script.Within c.sentinels (c.script now) := by
  cases c with
  | tenants c => exact within_tenants c
  | identities c => exact within_identities now c
  | keys c => exact within_keys c
  | credentials c => exact within_credentials c
  | audit c => exact within_audit now c

end Postgres

namespace Service

open Calls Postgres

variable {Attrs α β : Type} {P : Primitives Attrs} {S : List Sentinel}

/-! ### Calls -/

/-- The errors the calls can answer with: those of the key store and of the cipher match no
sentinel. -/
def Answers : (c : Op Attrs) → c.Reply → Prop
  | .repo c, r => ∀ x, r = .error x → x.Within c.sentinels
  | .generateKey _ _, r => ∀ x, r = .error x → x.Within []
  | .deleteKey _, r => ∀ x, r = .error x → x.Within []
  | .encrypt _, r => ∀ x, r = .error x → x.Within []
  | .now, _ => True

theorem within_store {keyID : String} {key : PrivateKey} {w : World} {x : Error}
    (h : (store keyID key w).1 = .error x) : x.Within [] := by
  unfold store at h
  split at h
  · cases h
    exact within_text _ _
  · cases h

theorem within_generate {algorithm : KeyAlgorithm} {keyID : String} {secret : Option Bytes}
    {w : World} {x : Error} (h : (generateAndStore P algorithm keyID secret w).1 = .error x) :
    x.Within [] := by
  cases secret with
  | none =>
    cases h
    exact within_wrap _ (within_text _ _)
  | some bytes =>
    unfold generateAndStore at h
    cases hstore : store keyID ⟨algorithm, bytes⟩ w with
    | mk r w' =>
      cases r with
      | ok keyRef => simp only [hstore, reduceCtorEq] at h
      | error e =>
        simp only [hstore, Except.error.injEq] at h
        rw [← h]
        exact within_wrap _ (within_store (congrArg Prod.fst hstore))

theorem within_delete {keyRef : String} {w : World} {x : Error}
    (h : (delete keyRef w).1 = .error x) : x.Within [] := by
  unfold delete at h
  split at h
  · cases h
  · cases h
    exact within_text _ _

theorem within_encrypt {plaintext : Bytes} {iv : Option IV} {x : Error}
    (h : encrypt P plaintext iv = .error x) : x.Within [] := by
  unfold encrypt at h
  split at h
  · cases h
    exact within_text _ _
  · cases iv with
    | none =>
      cases h
      exact within_wrap _ (within_text _ _)
    | some iv => cases h

theorem answers_exec (c : Op Attrs) (e : Env) (w : World) : Answers c (exec P c e w).1 := by
  cases c with
  | repo c =>
    intro x hx
    have hrun : ((c.script e.now).run Statement.exec e.statements ⟨⟨none, none⟩, w.db⟩).1 =
        .error x := hx
    exact (within_script e.now c).run (fun _ _ _ => trivial) hrun
  | generateKey algorithm keyID =>
    intro x hx
    cases algorithm <;> exact within_generate hx
  | deleteKey keyRef => exact fun x hx => within_delete hx
  | encrypt plaintext => exact fun x hx => within_encrypt hx
  | now => trivial

/-! ### Rules for the building blocks -/

abbrev Svc.Within (S : List Sentinel) (p : Svc Attrs α) : Prop :=
  p.FailsOnly Answers (Error.Within S)

theorem within_orFail {f : Error → Error} {x : Except Error α}
    (h : ∀ e, x = .error e → (f e).Within S) : Svc.Within S (orFail f x : Svc Attrs α) := by
  cases x with
  | ok a => trivial
  | error e => exact h e rfl

theorem within_refuseIf {cond : Prop} [Decidable cond] {e : Error} (h : e.Within S) :
    Svc.Within S (refuseIf cond e : Svc Attrs Unit) := by
  unfold refuseIf
  split
  · exact h
  · trivial

theorem within_repo {c : RepoCall Attrs} {f : Error → Error} (hf : ∀ e s, (f e).is s = e.is s)
    (hc : c.sentinels.all S.contains = true) : Svc.Within S (repo c f) := by
  intro r hr
  refine within_orFail fun e he s hs => ?_
  have hmem : s ∈ c.sentinels := hr e he s ((hf e s).symm.trans hs)
  exact List.contains_iff_mem.mp (List.all_eq_true.mp hc s hmem)

theorem within_wrapped {c : RepoCall Attrs} {context : String}
    (hc : c.sentinels.all S.contains = true) : Svc.Within S (repo c (wrapRepoError · context)) :=
  within_repo (fun e s => wrapRepoError_is e context s) hc

theorem within_writeAudit (event : AuditEvent) :
    Svc.Within S (writeAudit event : Svc Attrs Unit) :=
  within_repo (fun _ _ => rfl) rfl

theorem within_generateCall {algorithm : KeyAlgorithm} {keyID context : String} :
    Svc.Within S (.call (.generateKey algorithm keyID) (orFail (.wrap context)) : Svc Attrs _) :=
  fun _ hr => within_orFail fun e he => (hr e he).mono (List.nil_subset S)

/-- The outcome of the encryption is used as `orFail` has it. -/
theorem within_encryptAttributes_bind {attrs : Attrs}
    {g : Except Error (Option Bytes) → Svc Attrs α}
    (hg : ∀ r, (∀ x, r = .error x → x.Within S) → Svc.Within S (g r)) :
    Svc.Within S (encryptAttributes P attrs >>= g) := by
  unfold encryptAttributes
  split
  · exact hg _ fun x hx => nomatch hx
  · split
    · refine hg _ fun x hx => ?_
      cases hx
      exact within_wrap _ (within_text _ _)
    · intro r hr
      cases r with
      | error e =>
        refine hg _ fun x hx => ?_
        cases hx
        exact (hr e rfl).mono (List.nil_subset S)
      | ok sealed => exact hg _ fun x hx => nomatch hx

theorem within_decrypt {ciphertext iv : Bytes} {x : Error}
    (h : decrypt P ciphertext iv = .error x) : x.Within S := by
  unfold decrypt at h
  split at h
  · cases h
    exact within_text _ _
  · split at h
    · cases h
      exact within_text _ _
    · split at h
      · cases h
        exact within_text _ _
      · cases h

theorem within_decryptAttributes {ident : Identity Attrs} {x : Error}
    (h : decryptAttributes P ident = .error x) : x.Within S := by
  unfold decryptAttributes at h
  dsimp only at h
  split at h
  · cases h
  · split at h
    · cases h
      exact within_text _ _
    · split at h
      · rename_i e hdecrypt
        cases h
        exact within_wrap _ (within_decrypt hdecrypt)
      · split at h
        · cases h
          exact within_wrap _ (within_text _ _)
        · cases h

theorem within_decryptAll {idents : List (Identity Attrs)} {x : Error}
    (h : decryptAll P idents = .error x) : x.Within S := by
  induction idents with
  | nil => cases h
  | cons ident rest ih =>
    rw [decryptAll] at h
    cases hident : decryptAttributes P ident with
    | error e =>
      simp only [hident, Except.error.injEq] at h
      rw [← h]
      exact within_wrap _ (within_decryptAttributes hident)
    | ok ident' =>
      cases hrest : decryptAll P rest with
      | error e =>
        simp only [hident, hrest, Except.error.injEq] at h
        exact ih (hrest.trans (congrArg Except.error h))
      | ok out => simp only [hident, hrest, reduceCtorEq] at h

/-! ### Methods -/

theorem within_validateCreateIdentity {input : CreateIdentityInput Attrs} {x : Error}
    (hS : Sentinel.invalidInput ∈ S) (h : validateCreateIdentityInput input = .error x) :
    x.Within S := by
  have hvalidation : ∃ field message, x = .validation field message := by
    unfold validateCreateIdentityInput at h
    repeat' split at h
    all_goals cases h
    all_goals exact ⟨_, _, rfl⟩
  obtain ⟨field, message, rfl⟩ := hvalidation
  exact within_validation field message hS

theorem within_validateCreateTenant {input : CreateTenantInput} {x : Error}
    (hS : Sentinel.invalidInput ∈ S) (h : validateCreateTenantInput input = .error x) :
    x.Within S := by
  have hvalidation : ∃ field message, x = .validation field message := by
    unfold validateCreateTenantInput at h
    repeat' split at h
    all_goals cases h
    all_goals exact ⟨_, _, rfl⟩
  obtain ⟨field, message, rfl⟩ := hvalidation
  exact within_validation field message hS

theorem within_generateKeyPair (tenantID identityID : String) (keyType : KeyType)
    (purpose : KeyPurpose) (hS : Sentinel.invalidInput ∈ S) :
    Svc.Within S (generateKeyPair tenantID identityID keyType purpose : Svc Attrs IdentityKey) := by
  unfold generateKeyPair
  split
  · exact within_validation _ _ hS
  · exact within_generateCall.bind fun _ => trivial

theorem within_createIdentity (input : CreateIdentityInput Attrs) :
    Svc.Within [.invalidInput, .notFound, .tenantInactive, .handleTaken]
      (createIdentity P input) := by
  refine (within_orFail fun e he => within_validateCreateIdentity (by decide) he).bind fun _ => ?_
  refine (within_wrapped rfl).bind fun tenant => ?_
  refine (within_refuseIf (within_sentinel (by decide))).bind fun _ => ?_
  refine within_encryptAttributes_bind fun r hr => ?_
  refine (within_orFail fun e he => within_wrap _ (hr e he)).bind fun encrypted => ?_
  refine (within_wrapped rfl).bind fun created => ?_
  refine within_generateCall.bind fun generated => ?_
  refine (within_wrapped rfl).bind fun createdKey => ?_
  refine (within_wrapped rfl).bind fun _ => ?_
  refine (within_wrapped rfl).bind fun _ => ?_
  exact (within_writeAudit _).bind fun _ => trivial

theorem within_updateIdentity (input : UpdateIdentityInput Attrs) :
    Svc.Within [.invalidInput, .notFound, .versionConflict] (updateIdentity P input) := by
  refine (within_refuseIf (within_validation _ _ (by decide))).bind fun _ => ?_
  refine (within_wrapped rfl).bind fun existing => ?_
  refine within_encryptAttributes_bind fun r hr => ?_
  refine (within_orFail fun e he => within_wrap _ (hr e he)).bind fun encrypted => ?_
  refine (within_wrapped rfl).bind fun updated => ?_
  exact within_orFail fun e he => within_wrap _ (within_decryptAttributes he)

theorem within_changeStatus (status : IdentityStatus)
    (event getContext writeContext tenantID id actorID : String) :
    Svc.Within [.notFound, .identityTerminal]
      (changeStatus status event getContext writeContext tenantID id actorID : Svc Attrs Unit) := by
  refine (within_wrapped rfl).bind fun ident => ?_
  refine (within_refuseIf (within_sentinel (by decide))).bind fun _ => ?_
  exact (within_wrapped rfl).bind fun _ => within_writeAudit _

theorem within_generateKey (input : GenerateKeyInput) :
    Svc.Within [.notFound, .identityInactive, .invalidInput]
      (generateKey input : Svc Attrs IdentityKey) := by
  refine (within_wrapped rfl).bind fun ident => ?_
  refine (within_refuseIf (within_sentinel (by decide))).bind fun _ => ?_
  refine (within_generateKeyPair _ _ _ _ (by decide)).bind fun key => ?_
  refine (within_wrapped rfl).bind fun createdKey => ?_
  exact (within_writeAudit _).bind fun _ => trivial

theorem within_rotateKey (tenantID identityID oldKeyID actorID : String) :
    Svc.Within [.keyNotFound, .keyNotUsable, .invalidInput, .notFound]
      (rotateKey tenantID identityID oldKeyID actorID : Svc Attrs IdentityKey) := by
  refine (within_wrapped rfl).bind fun oldKey now _ => ?_
  refine (within_refuseIf (within_sentinel (t := .keyNotUsable) (by simp))).bind fun _ => ?_
  refine (within_generateKeyPair _ _ _ _ (by decide)).bind fun newKey => ?_
  refine (within_wrapped rfl).bind fun createdKey => ?_
  refine (within_wrapped rfl).bind fun _ => ?_
  refine (within_wrapped rfl).bind fun ident => ?_
  refine Program.FailsOnly.bind ?_ fun _ => (within_writeAudit _).bind fun _ => trivial
  split
  · exact within_wrapped rfl
  · trivial

theorem within_revokeKey (tenantID keyID actorID : String) :
    Svc.Within [.keyNotFound] (revokeKey tenantID keyID actorID : Svc Attrs Unit) := by
  refine (within_wrapped rfl).bind fun key => ?_
  exact (within_wrapped rfl).bind fun _ => within_writeAudit _

theorem within_createTenant (input : CreateTenantInput) :
    Svc.Within [.invalidInput, .alreadyExists] (createTenant input : Svc Attrs Tenant) := by
  refine (within_orFail fun e he => within_validateCreateTenant (by decide) he).bind fun _ => ?_
  refine (within_wrapped rfl).bind fun created => ?_
  exact (within_writeAudit _).bind fun _ => trivial

theorem within_suspendTenant (id : String) :
    Svc.Within [.notFound, .tenantInactive] (suspendTenant id : Svc Attrs Unit) := by
  refine (within_wrapped rfl).bind fun tenant => ?_
  refine (within_refuseIf (within_sentinel (by decide))).bind fun _ => ?_
  exact (within_wrapped rfl).bind fun _ => within_writeAudit _

theorem within_activateTenant (id : String) :
    Svc.Within [.notFound, .tenantInactive] (activateTenant id : Svc Attrs Unit) := by
  refine (within_wrapped rfl).bind fun tenant => ?_
  refine (within_refuseIf (within_sentinel (by decide))).bind fun _ => ?_
  exact within_wrapped rfl

theorem within_respond {f : β → Response Attrs} {p : Svc Attrs β} (h : Svc.Within S p) :
    Svc.Within S (respond f p) :=
  Program.FailsOnly.bind h fun _ => trivial

/-- The sentinels of each method. -/
def Request.sentinels : Request Attrs → List Sentinel
  | .createIdentity _ => [.invalidInput, .notFound, .tenantInactive, .handleTaken]
  | .getIdentity .. | .getIdentityByHandle .. => [.notFound]
  | .listIdentities .. | .listKeys .. => []
  | .updateIdentity _ => [.invalidInput, .notFound, .versionConflict]
  | .deactivateIdentity .. | .suspendIdentity .. | .reactivateIdentity .. =>
    [.notFound, .identityTerminal]
  | .generateKey _ => [.notFound, .identityInactive, .invalidInput]
  | .getKey .. | .revokeKey .. => [.keyNotFound]
  | .rotateKey .. => [.keyNotFound, .keyNotUsable, .invalidInput, .notFound]
  | .markCompromised .. | .deleteKey _ => []
  | .createTenant _ => [.invalidInput, .alreadyExists]
  | .getTenant _ | .getTenantBySlug _ => [.notFound]
  | .suspendTenant _ | .activateTenant _ => [.notFound, .tenantInactive]

theorem within_request (P : Primitives Attrs) (req : Request Attrs) :
    Svc.Within req.sentinels (req.program P) := by
  cases req with
  | createIdentity input => exact within_respond (within_createIdentity input)
  | getIdentity tenantID id =>
    refine within_respond ((within_wrapped rfl).bind fun ident => ?_)
    exact within_orFail fun e he => within_wrap _ (within_decryptAttributes he)
  | getIdentityByHandle tenantID handle =>
    refine within_respond ((within_wrapped rfl).bind fun ident => ?_)
    exact within_orFail fun e he => within_wrap _ (within_decryptAttributes he)
  | listIdentities tenantID filter =>
    refine within_respond ((within_wrapped rfl).bind fun idents => ?_)
    exact within_orFail fun e he => within_decryptAll he
  | updateIdentity input => exact within_respond (within_updateIdentity input)
  | deactivateIdentity tenantID id actorID =>
    exact within_respond (within_changeStatus _ _ _ _ _ _ _)
  | suspendIdentity tenantID id actorID =>
    exact within_respond (within_changeStatus _ _ _ _ _ _ _)
  | reactivateIdentity tenantID id actorID =>
    exact within_respond (within_changeStatus _ _ _ _ _ _ _)
  | generateKey input => exact within_respond (within_generateKey input)
  | getKey tenantID keyID => exact within_respond (within_wrapped rfl)
  | listKeys tenantID identityID => exact within_respond (within_wrapped rfl)
  | rotateKey tenantID identityID oldKeyID actorID =>
    exact within_respond (within_rotateKey _ _ _ _)
  | revokeKey tenantID keyID actorID => exact within_respond (within_revokeKey _ _ _)
  | markCompromised tenantID keyID =>
    exact within_respond (within_repo (fun _ _ => rfl) rfl)
  | deleteKey keyRef => exact within_respond fun r hr => within_orFail fun e he => hr e he
  | createTenant input => exact within_respond (within_createTenant input)
  | getTenant id => exact within_respond (within_wrapped rfl)
  | getTenantBySlug slug => exact within_respond (within_wrapped rfl)
  | suspendTenant id => exact within_respond (within_suspendTenant id)
  | activateTenant id => exact within_respond (within_activateTenant id)

theorem request_error_within {req : Request Attrs} {es : Nat → Env} {w : World} {x : Error}
    (h : ((req.program P).run (exec P) es w).1 = .error x) : x.Within req.sentinels :=
  (within_request P req).run answers_exec h

/-- Whatever the tables and the key store hold and whatever fails on the way, the error of a
method matches none but its own sentinels. -/
theorem methods_fail_within (P : Primitives Attrs) (req : Request Attrs) (es : Nat → Env)
    (w : World) (x : Error) (h : ((req.program P).run (exec P) es w).1 = .error x) :
    ∀ s, x.is s = true → s ∈ req.sentinels :=
  request_error_within h

/-- Nobody has the id 3. -/
def suspendNobody : Request Bytes :=
  .suspendIdentity (UUID.ofNat 1).toText (UUID.ofNat 3).toText ""

def failedWith (s : Sentinel) : Except Error α → Bool
  | .ok _ => false
  | .error x => x.is s

theorem failedWith_eq_true {s : Sentinel} {r : Except Error α} (h : failedWith s r = true) :
    ∃ x, r = .error x ∧ x.is s = true := by
  cases r with
  | ok a => cases h
  | error x => exact ⟨x, rfl, h⟩

theorem suspendNobody_not_found :
    ∃ x, ((suspendNobody.program plainPrimitives).run (exec plainPrimitives)
        (fun n => calm (n + 3)) smallWorld).1 = .error x ∧ x.is .notFound = true ∧
      ∀ s, x.is s = true → s ∈ [Sentinel.notFound, .identityTerminal] := by
  have hrun : failedWith .notFound ((suspendNobody.program plainPrimitives).run
      (exec plainPrimitives) (fun n => calm (n + 3)) smallWorld).1 = true := by
    decide +kernel
  obtain ⟨x, hx, hnotFound⟩ := failedWith_eq_true hrun
  exact ⟨x, hx, hnotFound, methods_fail_within plainPrimitives suspendNobody _ smallWorld x hx⟩

end Service

end Verion
