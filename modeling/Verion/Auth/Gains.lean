import Verion.Auth.Coherence
import Verion.Service.Credentials

/-!
# What requests create for an identity

A key, a credential, a session record and a token are each created by one kind of
call, which names the identity. `Grants` asks of these calls that the identity is
allowed; a run that makes no others leaves nothing new to any other identity.
-/

namespace Verion.Auth

open Calls Postgres Service

variable {Attrs α β : Type}

/-- Something of the identity `X` that `w'` has and `w` has not. -/
inductive Gain (w w' : World) (X : UUID) : Prop where
  | key (k : UUID) (key : KeyRow) (hget : w'.svc.db.identityKeys.get? k = some key)
      (hnew : w.svc.db.identityKeys.get? k = none) (hX : key.identityID = X)
  | credential (k : UUID) (cred : CredentialRow) (hget : w'.svc.db.credentials.get? k = some cred)
      (hnew : w.svc.db.credentials.get? k = none) (hX : cred.identityID = X)
  | session (k : String) (data : Sessions.SessionData)
      (hget : w'.sessions.text k = some (some data)) (hnew : w.sessions.text k ≠ some (some data))
      (hX : UUID.ofText? data.identityID = some X)
  | token (claims : Claims) (hnew : w.issued.count claims < w'.issued.count claims)
      (hX : UUID.ofText? claims.subject = some X)

def Active (w : World) (X : UUID) : Prop :=
  ∃ row, w.svc.db.identities.get? X = some row ∧ row.status = .active

/-- `CreateIdentity` creates the first key of the identity it inserts. -/
def Creates (req : Request Attrs) (w : World) (X : UUID) : Prop :=
  (∃ input, req = .service (.createIdentity input)) ∧ w.svc.db.identities.get? X = none

/-! ### One call -/

/-- What the call creates is for an identity that is `ok`. -/
def Grants (ok : UUID → Prop) : Op Attrs → Prop
  | .svc (.repo (.keys (.create key))) => ∀ X, UUID.ofText? key.identityID = some X → ok X
  | .svc (.repo (.credentials (.create cred))) => ∀ X, UUID.ofText? cred.identityID = some X → ok X
  | .session (.write (.set _ (some data) _)) => ∀ X, UUID.ofText? data.identityID = some X → ok X
  | .issue claims _ => ∀ X, UUID.ofText? claims.subject = some X → ok X
  | _ => True

/-- The rows that are new since `v₀` are of identities that are `ok`. -/
structure RowsFair (ok : UUID → Prop) (v₀ v : Service.World) : Prop where
  keys : ∀ k key, v.db.identityKeys.get? k = some key → v₀.db.identityKeys.get? k = none →
    ok key.identityID
  credentials : ∀ k cred, v.db.credentials.get? k = some cred → v₀.db.credentials.get? k = none →
    ok cred.identityID

structure Fair (ok : UUID → Prop) (w₀ w : World) : Prop where
  rows : RowsFair ok w₀.svc w.svc
  sessions : ∀ k data, w.sessions.text k = some (some data) →
    w₀.sessions.text k ≠ some (some data) → ∀ X, UUID.ofText? data.identityID = some X → ok X
  tokens : ∀ claims, w₀.issued.count claims < w.issued.count claims →
    ∀ X, UUID.ofText? claims.subject = some X → ok X

section Step

variable {ok : UUID → Prop}

theorem Fair.gain {w₀ w : World} (h : Fair ok w₀ w) {X : UUID} (hX : Gain w₀ w X) : ok X := by
  cases hX with
  | key k key hget hnew hX => exact hX ▸ h.rows.keys k key hget hnew
  | credential k cred hget hnew hX => exact hX ▸ h.rows.credentials k cred hget hnew
  | session k data hget hnew hX => exact h.sessions k data hget hnew X hX
  | token claims hnew hX => exact h.tokens claims hnew X hX

theorem RowsFair.refl (v : Service.World) : RowsFair ok v v where
  keys _ _ hget hnew := absurd (hget.symm.trans hnew) (Option.some_ne_none _)
  credentials _ _ hget hnew := absurd (hget.symm.trans hnew) (Option.some_ne_none _)

theorem RowsFair.of_db {v₀ v v' : Service.World} (h : RowsFair ok v₀ v) (hdb : v'.db = v.db) :
    RowsFair ok v₀ v' where
  keys k key hget := h.keys k key (hdb ▸ hget)
  credentials k cred hget := h.credentials k cred (hdb ▸ hget)

theorem RowsFair.exec {P : Primitives Attrs} {v₀ v : Service.World} (h : RowsFair ok v₀ v)
    {c : Service.Op Attrs} (hc : Grants ok (.svc c)) (e : Service.Env) :
    RowsFair ok v₀ (Service.exec P c e v).2 where
  keys k key hget hnew := by
    rcases (exec_keyStep P c e v).origin hget with ⟨old, hold, hI⟩ | ⟨new, hop, -, hI⟩
    · exact hI ▸ h.keys k old hold hnew
    · obtain rfl : c = _ := hop
      exact hc _ hI
  credentials k cred hget hnew := by
    rcases (exec_credentialStep P c e v).origin hget with ⟨old, hold, hI, -⟩ | ⟨new, rfl, -, hI, -⟩
    · exact hI ▸ h.credentials k old hold hnew
    · exact hc _ hI

theorem Fair.refl (w : World) : Fair ok w w where
  rows := .refl w.svc
  sessions _ _ hget hnew := absurd hget hnew
  tokens _ hnew := absurd hnew (Nat.lt_irrefl _)

theorem Fair.untouched {w₀ w w' : World} (h : Fair ok w₀ w) (hw : Untouched w w') :
    Fair ok w₀ w' where
  rows := hw.svc ▸ h.rows
  sessions k data hget := h.sessions k data (by
    unfold Redis.Server.text at hget ⊢
    rwa [hw.sessions] at hget)
  tokens claims := hw.issued ▸ h.tokens claims

/-- A call whose grants are `ok` leaves the world fair. -/
theorem Fair.exec {D : Deps Attrs} {w₀ w : World} (h : Fair ok w₀ w) {c : Op Attrs}
    (hc : Grants ok c) (e : Env) : Fair ok w₀ (exec D c e w).2 := by
  cases c with
  | svc c => exact ⟨h.rows.exec hc e.svc, h.sessions, h.tokens⟩
  | session c =>
    refine ⟨h.rows, fun k data hget hnew X hX => ?_, h.tokens⟩
    rcases Redis.exec_text c e.redis w.sessions hget with hold | ⟨ttl, rfl⟩
    · exact h.sessions k data hold hnew X hX
    · exact hc X hX
  | issue claims sessionID =>
    refine ⟨h.rows, h.sessions, fun claims' hnew X hX => ?_⟩
    by_cases hsame : claims' = D.tokens.stamped claims sessionID e.svc.now
    · subst hsame
      exact hc X hX
    · refine h.tokens claims' ?_ X hX
      rwa [show (Auth.exec D (.issue claims sessionID) e w).2.issued =
        D.tokens.stamped claims sessionID e.svc.now :: w.issued from rfl,
        List.count_cons_of_ne (Ne.symm hsame)] at hnew
  | _ => exact ⟨h.rows, h.sessions, h.tokens⟩

end Step

/-! ### Requests of the services -/

/-- A rotation that can insert a key inserts it for an active identity: if the old key is a
trusted one of the tenant and the identity that is named has no active key of its purpose,
then this identity, where it is stored, is active. -/
def RotatesForActive : Request Attrs → World → Prop
  | .service (.rotateKey tenantID identityID oldKeyID _), w => ∀ K key I row,
      UUID.ofText? oldKeyID = some K → w.svc.db.identityKeys.get? K = some key →
      UUID.ofText? tenantID = some key.tenantID → key.status.isTrusted = true →
      UUID.ofText? identityID = some I → w.svc.db.identities.get? I = some row →
      (∀ r ∈ w.svc.db.identityKeys.rows, r.status = .active → r.identityID = I →
        r.purpose ≠ key.purpose) → row.status = .active
  | _, _ => True

section Services

variable {P : Primitives Attrs} {ok : UUID → Prop} {v₀ v : Service.World}

/-- Calls that grant nothing. -/
def GrantsNothing : Service.Op Attrs → Prop
  | .repo (.keys (.create _)) | .repo (.credentials (.create _)) => False
  | _ => True

theorem GrantsNothing.grants {c : Service.Op Attrs} (hc : GrantsNothing c) :
    Grants ok (.svc c) := by
  unfold Grants
  split
  · rename_i heq
    cases heq
    exact absurd hc not_false
  · rename_i heq
    cases heq
    exact absurd hc not_false
  · trivial
  · trivial
  · trivial

theorem nothing_bind {q : Svc Attrs α} {f : α → Svc Attrs β} (hq : q.Only GrantsNothing)
    (h : RowsFair ok v₀ v)
    (hf : ∀ a v, RowsFair ok v₀ v → (f a).Ends (Service.exec P) (fun _ => RowsFair ok v₀) v) :
    (q >>= f).Ends (Service.exec P) (fun _ => RowsFair ok v₀) v :=
  hq.ends_bind (fun _ e _ hc h => h.exec hc.grants e) (fun _ _ h => h) h hf

/-- A key that is inserted for an identity that is `ok`. -/
theorem grantKey_bind {k : IdentityKey} {f : Error → Error} {g : IdentityKey → Svc Attrs α}
    (h : RowsFair ok v₀ v)
    (hok : ∀ e x, (Service.exec P (.repo (.keys (.create k))) e v).1 = .ok x →
      ∀ X, UUID.ofText? k.identityID = some X → ok X)
    (hg : ∀ x v, RowsFair ok v₀ v → (g x).Ends (Service.exec P) (fun _ => RowsFair ok v₀) v) :
    (Service.repo (.keys (.create k)) f >>= g).Ends (Service.exec P) (fun _ => RowsFair ok v₀) v :=
  Service.ends_repo_bind (fun e x hx => hg x _ (RowsFair.exec (c := .repo (.keys (.create k))) h
    (hok e x hx) e)) fun _ => h

theorem createIdentity_fair (input : CreateIdentityInput Attrs)
    (hok : ∀ X, v.db.identities.get? X = none → ok X) :
    (createIdentity P input).Ends (Service.exec P) (fun _ => RowsFair ok v) v := by
  refine Service.ends_orFail_bind (fun _ _ => ?_) fun _ _ => .refl v
  refine Service.ends_repo_bind (fun e tenant _ => ?_) fun _ => .refl v
  rw [exec_read rfl]
  refine Service.ends_refuseIf_bind (.refl v) fun _ => ?_
  refine ends_encryptAttributes_bind fun enc _ _ => ?_
  refine Service.ends_orFail_bind (fun encryptedAttrs _ => ?_) fun _ _ => .refl v
  refine Service.ends_repo_bind (fun e created hcreated => ?_) fun _ => .refl v
  obtain ⟨st, T, by_, hT, hfresh, -, rfl⟩ := exec_createIdentity_ok hcreated
  have hkeep : ∀ c : Service.Op Attrs, GrantsNothing c →
      RowsFair ok v (Service.exec P c e v).2 := fun c hc => (RowsFair.refl v).exec hc.grants e
  refine nothing_bind ⟨trivial, Service.only_orFail _⟩ (hkeep _ trivial) fun generated w h => ?_
  refine grantKey_bind h (fun _ _ _ X hX => ?_) fun createdKey w h => ?_
  · obtain rfl : st.newID = X := Option.some.inj ((UUID.ofText?_toText _).symm.trans hX)
    exact hok _ hfresh
  refine nothing_bind (Service.only_repo trivial _) h fun _ w h => ?_
  refine nothing_bind (Service.only_repo trivial _) h fun _ w h => ?_
  exact nothing_bind (only_writeAudit trivial) h fun _ _ h => h

theorem generateKey_fair (input : GenerateKeyInput)
    (hok : ∀ X row, v.db.identities.get? X = some row → row.status = .active → ok X) :
    (generateKey input : Svc Attrs IdentityKey).Ends (Service.exec P) (fun _ => RowsFair ok v)
      v := by
  refine Service.ends_repo_bind (fun e ident hident => ?_) fun _ => .refl v
  obtain ⟨T, I, row, hT, hI, hget, rfl, rfl⟩ := getByID_ok hident
  rw [exec_read rfl]
  refine Service.ends_refuseIf_bind (.refl v) fun hactive => ?_
  refine ends_generateKeyPair_bind (fun algorithm generated w hdb => ?_)
    fun _ w hdb => (RowsFair.refl v).of_db hdb
  refine grantKey_bind ((RowsFair.refl v).of_db hdb) (fun _ _ _ X hX => ?_) fun createdKey w h => ?_
  · obtain rfl : I = X := Option.some.inj (hI.symm.trans hX)
    exact hok I row hget (not_not.mp hactive)
  · exact nothing_bind (only_writeAudit trivial) h fun _ _ h => h

theorem rotateKey_fair {tenantID identityID oldKeyID actorID : String}
    (hok : ∀ K key I, UUID.ofText? oldKeyID = some K → v.db.identityKeys.get? K = some key →
      UUID.ofText? tenantID = some key.tenantID → key.status.isTrusted = true →
      UUID.ofText? identityID = some I → (v.db.identities.get? I).isSome →
      (∀ r ∈ v.db.identityKeys.rows, r.status = .active → r.identityID = I →
        r.purpose ≠ key.purpose) → ok I) :
    (rotateKey tenantID identityID oldKeyID actorID : Svc Attrs IdentityKey).Ends (Service.exec P)
      (fun _ => RowsFair ok v) v := by
  refine Service.ends_repo_bind (fun e oldKey hold => ?_) fun _ => .refl v
  obtain ⟨T, K, key, hT, hK, hget, rfl, rfl⟩ := getKeyByID_ok hold
  rw [exec_read rfl]
  refine ends_now_bind fun now => ?_
  refine Service.ends_refuseIf_bind (.refl v) fun husable => ?_
  have husable : (scanKey key).isUsable now = true := by simpa using husable
  have htrusted : key.status.isTrusted = true := IdentityKey.isTrusted_of_isUsable husable
  refine ends_generateKeyPair_bind (fun algorithm generated w hdb => ?_)
    fun _ w hdb => (RowsFair.refl v).of_db hdb
  refine grantKey_bind ((RowsFair.refl v).of_db hdb)
    (fun e x hx I hI => ?_) fun createdKey w h => ?_
  · obtain ⟨I', hI', -, hident, hunique⟩ := exec_createKey_checks hx
    obtain rfl : I' = I := Option.some.inj (hI'.symm.trans hI)
    rw [hdb] at hident hunique
    exact hok K key I' hK hget hT htrusted hI hident (hunique rfl)
  refine nothing_bind (Service.only_repo trivial _) h fun _ w h => ?_
  refine nothing_bind (Service.only_repo trivial _) h fun ident w h => ?_
  refine nothing_bind ?_ h fun _ w h => nothing_bind (only_writeAudit trivial) h fun _ _ h => h
  split
  · exact Service.only_repo trivial _
  · trivial

/-- The identities that a request may create something for. -/
abbrev Entitled (req : Request Attrs) (w : World) (X : UUID) : Prop :=
  Active w X ∨ Creates req w X

theorem service_fair {req : Service.Request Attrs} {w : World}
    (hrot : RotatesForActive (.service req) w) :
    (req.program P).Ends (Service.exec P)
      (fun _ => RowsFair (Entitled (.service req) w) w.svc) w.svc := by
  by_cases hnothing : ∀ c, Service.MayCall req c → GrantsNothing c
  · exact ((Service.program_only P req).mono hnothing).ends (fun _ e _ hc h => h.exec hc.grants e)
      (fun _ _ h => h) (.refl w.svc)
  · cases req with
    | createIdentity input =>
      exact Service.ends_respond (createIdentity_fair input fun X hX => .inr ⟨⟨input, rfl⟩, hX⟩)
    | generateKey input =>
      exact Service.ends_respond (generateKey_fair input fun X row hX hactive =>
        .inl ⟨row, hX, hactive⟩)
    | rotateKey tenantID identityID oldKeyID actorID =>
      refine Service.ends_respond
        (rotateKey_fair fun K key I hK hget hT htrusted hI hident hun => ?_)
      obtain ⟨row, hrow⟩ := Option.isSome_iff_exists.mp hident
      exact .inl ⟨row, hrow, hrot K key I row hK hget hT htrusted hI hrow hun⟩
    | _ => exact absurd (fun c hc => by cases hc <;> trivial) hnothing

end Services

/-! ### Ceremonies -/

section Ceremonies

variable {D : Deps Attrs} {ok : UUID → Prop} {w : World}

theorem asserts_grants {tenantID : String} {c : Op Attrs} (hc : Asserts tenantID c) :
    Grants ok c := by
  obtain ⟨hc, hopens⟩ := hc
  cases hc with
  | looks hc =>
    cases hc with
    | outer houter =>
      cases c with
      | svc c => exact absurd houter not_false
      | session c => exact absurd trivial hopens
      | issue claims sessionID => exact absurd trivial hopens
      | _ => trivial
    | now => trivial
    | read hc =>
      unfold Grants
      split
      · rename_i heq; cases heq; cases hc
      · rename_i heq; cases heq; cases hc
      all_goals trivial
  | _ => trivial

theorem mute_fair {q : Ceremony Attrs α} (hq : q.Only Mute) :
    q.Ends (exec D) (fun _ => Fair ok w) w :=
  hq.ends (J := Fair ok w) (fun _ e w' hc h => h.untouched (.exec hc e w'))
    (fun _ _ h => h) (.refl w)

theorem registerComplete_fair {ttl : Nat} {tenantID identityID sessionID : String}
    {r : HttpRequest} :
    (registerComplete D.primitives ttl tenantID identityID sessionID r).Ends (exec D)
      (fun _ => Fair ok w) w := by
  unfold registerComplete
  split
  · exact .refl w
  · refine (Program.ensures_attempt_bind _ _ _).mpr ((finishRegistration_fails _ _ _ _).mono ?_)
    rintro _ w' ⟨⟨e, rfl⟩, hw⟩
    exact (Fair.refl w).untouched hw

theorem finishAssertion_fair (tenantID handle sessionID : String) (body : Bytes) :
    (finishAssertion D.primitives tenantID handle sessionID body).Ends (exec D)
      (fun _ => Fair ok w) w :=
  (finishAssertion_asserts ..).ends (fun _ e _ hc h => h.exec (asserts_grants hc) e)
    (fun _ _ h => h) (.refl w)

/-- The session and the token are for the identity whose assertion was accepted. -/
theorem loginComplete_fair {ttl : Nat} {tenantID handle sessionID : String} {r : HttpRequest}
    (hok : ∀ X, Active w X → ok X) :
    (loginComplete D.primitives ttl tenantID handle sessionID r).Ends (exec D)
      (fun _ => Fair ok w) w := by
  unfold loginComplete
  split
  · exact .refl w
  · have hassert : (finishAssertion D.primitives tenantID handle sessionID r.body).Ends (exec D)
        (fun _ => Fair ok w) w := finishAssertion_fair _ _ _ _
    refine (Program.ensures_attempt_bind _ _ _).mpr
      ((hassert.and (finishAssertion_returns _ _ _ _)).mono ?_)
    rintro result w' ⟨hfair, hreturns⟩
    cases result with
    | error e => exact hfair
    | ok ident =>
      obtain ⟨row, attrs, rfl, -, hget, hactive⟩ := hreturns ident rfl
      have hgrant : ∀ X, UUID.ofText? (loaded row attrs : Identity Attrs).id = some X → ok X := by
        intro X hX
        obtain rfl : row.id = X := Option.some.inj ((UUID.ofText?_toText _).symm.trans hX)
        exact hok _ ⟨row, hget, hactive⟩
      refine Program.Only.ends (p := Grants ok) (fun _ e _ hc h => h.exec hc e) (fun _ _ h => h)
        (only_openSession trivial trivial (fun c hc => ?_) (fun _ => hgrant) ..) hfair
      unfold Grants
      split
      · rename_i heq; cases heq
      · rename_i heq; cases heq
      · rename_i heq
        cases heq
        obtain ⟨data, ⟨⟩, hI, -⟩ := hc _ _ _ rfl
        exact hI ▸ hgrant
      · rename_i heq; cases heq
      · trivial

/-- A request creates nothing for an identity that is not entitled. -/
theorem request_fair {req : Request Attrs} (hrot : RotatesForActive req w) :
    (req.program D).Ends (exec D) (fun _ => Fair (Entitled req w) w) w := by
  cases req with
  | service req =>
    refine ends_respond (Program.Ends.embed (servicePart D)
      (F := fun w' => w'.sessions = w.sessions ∧ w'.issued = w.issued) (fun _ _ _ h => h) ⟨rfl, rfl⟩
      ((service_fair hrot).mono ?_))
    rintro r _ hrows w' ⟨hsessions, hissued⟩ rfl
    refine ⟨hrows, ?_, ?_⟩
    · rw [hsessions]
      exact (Fair.refl w).sessions
    · rw [hissued]
      exact (Fair.refl w).tokens
  | beginRegistration => exact ends_respond (mute_fair (beginRegistration_mute ..))
  | beginAssertion => exact ends_respond (mute_fair (beginAssertion_mute ..))
  | registerBegin => exact ends_respond (mute_fair (registerBegin_mute _))
  | loginBegin => exact ends_respond (mute_fair (loginBegin_mute _))
  | finishRegistration =>
    refine ends_respond ((finishRegistration_fails _ _ _ _).mono ?_)
    rintro _ w' ⟨-, hw⟩
    exact (Fair.refl w).untouched hw
  | registerComplete => exact ends_respond registerComplete_fair
  | finishAssertion => exact ends_respond (finishAssertion_fair _ _ _ _)
  | loginComplete => exact ends_respond (loginComplete_fair fun _ => .inl)

end Ceremonies

/-- In every run of complete requests whose rotations meet `RotatesForActive`, whatever a
request creates for an identity that it does not itself insert, this identity is active. -/
theorem run_gains_active (D : Deps Attrs) (steps : List (Request Attrs × (Nat → Env))) (w₀ : World)
    (hrot : ∀ req es w, (req, es, w) ∈ Program.trail (exec D) (Request.program D) steps w₀ →
      RotatesForActive req w) :
    ∀ req es w, (req, es, w) ∈ Program.trail (exec D) (Request.program D) steps w₀ →
      ∀ X, Gain w ((req.program D).run (exec D) es w).2 X → Active w X ∨ Creates req w X := by
  intro req es w hmem X hgain
  exact ((request_fair (hrot req es w hmem)).run es).gain hgain

def statusOf (i : Nat) (w : World) : Option IdentityStatus :=
  (w.svc.db.identities.get? (.ofNat i)).map IdentityRow.status

theorem gain_of_keyOwner {w w' : World} {k : Nat} {T X : UUID}
    (h : keyOwner k w = none ∧ keyOwner k w' = some (T, X)) : Gain w w' X := by
  obtain ⟨hold, hnew⟩ := h
  obtain ⟨key, hget, howner⟩ := Option.map_eq_some_iff.mp hnew
  exact .key _ key hget (Option.map_eq_none_iff.mp hold) (congrArg Prod.snd howner)

/-- Tenant 10 with identities 31 and 41; key 43 of the second is revoked. -/
def twoOwners : List (Request Bytes × (Nat → Env)) :=
  oneTenant ++ [(newIdentity 10 "bob", calmFrom 40),
    (.service (.revokeKey (UUID.ofNat 10).toText (UUID.ofNat 43).toText ""), calmFrom 45)]

/-- A rotation of key 33 of identity 31 that names identity 41. -/
def rotateForOther : Request Bytes × (Nat → Env) :=
  (.service (.rotateKey (UUID.ofNat 10).toText (UUID.ofNat 41).toText (UUID.ofNat 33).toText ""),
    calmFrom 60)

theorem rotation_for_active :
    let w := after twoOwners
    let w' := (rotateForOther.1.program plainDeps).run (exec plainDeps) rotateForOther.2 w
    Gain w w'.2 (.ofNat 41) ∧
      (Active w (.ofNat 41) ∨ Creates rotateForOther.1 w (.ofNat 41)) := by
  intro w w'
  have hruns : statusOf 41 w = some .active ∧
      keyOwner 63 w = none ∧ keyOwner 63 w'.2 = some (.ofNat 10, .ofNat 41) := by
    decide +kernel
  have hgain : Gain w w'.2 (.ofNat 41) := gain_of_keyOwner hruns.2
  refine ⟨hgain, run_gains_active plainDeps (twoOwners ++ [rotateForOther]) .empty ?_ _ _ _
    (.tail _ (.tail _ (.tail _ (.tail _ (.head _))))) _ hgain⟩
  intro req es v hmem
  simp only [twoOwners, oneTenant, List.cons_append, List.nil_append, Program.trail,
    List.mem_cons, List.not_mem_nil, or_false] at hmem
  rcases hmem with h | h | h | h | h <;> cases h
  · trivial
  · trivial
  · trivial
  · trivial
  · intro K key I row _ _ _ _ hI hrow _
    obtain rfl : UUID.ofNat 41 = I := Option.some.inj ((UUID.ofText?_toText _).symm.trans hI)
    obtain ⟨row', hrow', hactive⟩ := Option.map_eq_some_iff.mp hruns.1
    obtain rfl : row = row' := Option.some.inj (hrow.symm.trans hrow')
    exact hactive

/-- Besides, the second identity is suspended. -/
def suspendedOwner : List (Request Bytes × (Nat → Env)) :=
  twoOwners ++
    [(.service (.suspendIdentity (UUID.ofNat 10).toText (UUID.ofNat 41).toText ""), calmFrom 50)]

/-- A rotation of the key of identity 31 that names the suspended identity. -/
theorem rotation_for_suspended :
    let w := after suspendedOwner
    let req : Request Bytes := .service (.rotateKey (UUID.ofNat 10).toText
      (UUID.ofNat 41).toText (UUID.ofNat 33).toText "")
    Reachable plainDeps (fun _ _ => True) w ∧ statusOf 41 w = some .suspended ∧
      Gain w ((req.program plainDeps).run (exec plainDeps) (calmFrom 60) w).2 (.ofNat 41) ∧
      ¬ (Active w (.ofNat 41) ∨ Creates req w (.ofNat 41)) := by
  intro w req
  have hruns : statusOf 41 w = some .suspended ∧ keyOwner 63 w = none ∧
      keyOwner 63 ((req.program plainDeps).run (exec plainDeps) (calmFrom 60) w).2 =
        some (.ofNat 10, .ofNat 41) := by decide +kernel
  obtain ⟨hstatus, hgain⟩ := hruns
  refine ⟨(Program.Served.refl _).serve fun _ _ _ => trivial, hstatus, gain_of_keyOwner hgain, ?_⟩
  obtain ⟨row, hrow, hsuspended⟩ := Option.map_eq_some_iff.mp hstatus
  rintro (⟨row', hrow', hactive⟩ | ⟨-, hnone⟩)
  · obtain rfl : row = row' := Option.some.inj (hrow.symm.trans hrow')
    rw [hsuspended] at hactive
    cases hactive
  · rw [hrow] at hnone
    cases hnone

end Verion.Auth
