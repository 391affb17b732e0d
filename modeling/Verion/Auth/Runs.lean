import Verion.Auth.Ceremonies
import Verion.Library.Interleaving
import Verion.Service.Runs

/-!
# Rules for the ceremonies

The ceremonies call the services, and besides them Redis, the library, the random
source and the token service. Only the former reach the tables: a call that is
`Outer` leaves them, and a ceremony that creates nothing is `Plain`.
-/

namespace Verion.Auth

open Calls Postgres Service

variable {Attrs α β : Type} {D : Deps Attrs}

/-- The calls that are no calls of the services. -/
def Outer : Op Attrs → Prop
  | .svc _ => False
  | _ => True

/-- The calls that open a session or hand out a token. -/
def Opens : Op Attrs → Prop
  | .session _ | .issue .. => True
  | _ => False

theorem exec_outer {c : Op Attrs} (hc : Outer c) (e : Env) (w : World) :
    (exec D c e w).2.svc = w.svc := by
  cases c with
  | svc c => exact absurd hc not_false
  | _ => rfl

/-! ### Calls on every path -/

section Only

variable {p : Op Attrs → Prop}

theorem only_service {q : Svc Attrs α} (hq : q.Only fun c => p (.svc c)) (context : String) :
    (service q context).Only p :=
  hq.embed fun _ hc => hc

theorem only_repo {c : RepoCall Attrs} (hc : p (.svc (.repo c))) (context : String) :
    (repo c context).Only p :=
  only_service (Service.only_repo hc _) context

theorem only_dropError {c : RepoCall Attrs} (hc : p (.svc (.repo c))) : (dropError c).Only p :=
  ⟨hc, fun _ => trivial⟩

theorem only_refuseIf (cond : Prop) [Decidable cond] (e : AuthError) :
    (refuseIf cond e : Ceremony Attrs Unit).Only p := by
  unfold refuseIf
  split <;> trivial

theorem only_orFail (f : String → AuthError) (x : Except String α) :
    (orFail f x : Ceremony Attrs α).Only p := by
  cases x <;> trivial

theorem only_getIdentity {P : Primitives Attrs} {tenantID id : String}
    (hc : p (.svc (.repo (.identities (.getByID tenantID id))))) (context : String) :
    (service (getIdentity P tenantID id) context).Only p :=
  only_service ((Service.only_repo hc _).bind fun _ => Service.only_orFail _ _) context

theorem only_getIdentityByHandle {P : Primitives Attrs} {tenantID handle : String}
    (hc : p (.svc (.repo (.identities (.getByHandle tenantID handle))))) (context : String) :
    (service (getIdentityByHandle P tenantID handle) context).Only p :=
  only_service ((Service.only_repo hc _).bind fun _ => Service.only_orFail _ _) context

section Challenges

variable (houter : ∀ c, Outer c → ¬ Opens c → p c)

include houter

theorem only_getChallenge (challengeID getContext unmarshalContext : String) :
    (getChallenge challengeID getContext unmarshalContext).Only p := by
  refine ⟨houter _ trivial not_false, fun r => ?_⟩
  cases r with
  | error e => trivial
  | ok found =>
    cases found with
    | none => trivial
    | some doc => cases doc <;> trivial

theorem only_keepChallenge (session : LibrarySession) (context : String) :
    (keepChallenge session context).Only p := by
  refine Program.Only.bind ⟨houter _ trivial not_false, fun r => ?_⟩ fun sessionID => ?_
  · cases r <;> trivial
  · refine Program.Only.bind ⟨houter _ trivial not_false, fun r => ?_⟩ fun _ => trivial
    cases r <;> trivial

end Challenges

/-- A session is opened with one record and one token. -/
theorem only_openSession {identityID tenantID : String} {claims : Claims} (hrandom : p .random)
    (hnow : p (.svc .now))
    (hsession : ∀ c, (∀ k doc t, c = .write (.set k doc t) → ∃ data, doc = some data ∧
      data.identityID = identityID ∧ data.tenantID = tenantID) → p (.session c))
    (hissue : ∀ sessionID, p (.issue claims sessionID)) (ttl : Nat) (handle : String)
    (r : HttpRequest) (answer : String → String → HttpResponse) :
    (openSession ttl identityID tenantID handle r claims answer).Only p := by
  refine Program.Only.bind ⟨hrandom, fun r => ?_⟩ fun authSessionID => ?_
  · cases r <;> trivial
  · refine Program.Only.bind ⟨hnow, fun _ => trivial⟩ fun createdAt => ?_
    refine Program.Only.bind ⟨hnow, fun _ => trivial⟩ fun lastSeenAt => ?_
    refine Program.Only.bind (Program.Only.attempt ?_) fun created => ?_
    · refine (Sessions.create_sets _ _).embed fun c hc => hsession c fun k doc t hset => ?_
      obtain ⟨-, rfl⟩ := hc k doc t hset
      exact ⟨_, rfl, rfl, rfl⟩
    · cases created with
      | error e => trivial
      | ok _ => exact Program.Only.bind ⟨hissue _, fun _ => trivial⟩ fun _ => trivial

end Only

/-- The calls that leave the tables. -/
inductive Looks : Op Attrs → Prop where
  | outer {c : Op Attrs} (hc : Outer c) : Looks c
  | now : Looks (.svc .now)
  | read {c : RepoCall Attrs} (hc : c.target = none) : Looks (.svc (.repo c))

theorem Looks.exec {c : Op Attrs} (hc : Looks c) (e : Env) (w : World) :
    (Auth.exec D c e w).2.svc = w.svc := by
  cases hc with
  | outer hc => exact exec_outer hc e w
  | now => rfl
  | read hc => exact exec_read (P := D.primitives) hc e.svc w.svc

/-- Those that leave the sessions and the tokens as well. -/
abbrev Mute (c : Op Attrs) : Prop :=
  Looks c ∧ ¬ Opens c

/-- The tables, the session records and the tokens are as they were. -/
structure Untouched (w w' : World) : Prop where
  svc : w'.svc = w.svc
  sessions : w'.sessions.entries = w.sessions.entries
  issued : w'.issued = w.issued

theorem Untouched.refl (w : World) : Untouched w w := ⟨rfl, rfl, rfl⟩

theorem Untouched.trans {w w' w'' : World} (h : Untouched w w') (h' : Untouched w' w'') :
    Untouched w w'' :=
  ⟨h'.svc.trans h.svc, h'.sessions.trans h.sessions, h'.issued.trans h.issued⟩

theorem Untouched.exec {c : Op Attrs} (hc : Mute c) (e : Env) (w : World) :
    Untouched w (Auth.exec D c e w).2 := by
  refine ⟨hc.1.exec e w, ?_, ?_⟩
  · cases c with
    | session c => exact absurd trivial hc.2
    | _ => rfl
  · cases c with
    | issue claims sessionID => exact absurd trivial hc.2
    | _ => rfl

/-- The calls of a ceremony of a tenant that creates nothing: besides looking, it writes
the events and counters of the tenant. -/
inductive Plain (tenantID : String) : Op Attrs → Prop where
  | looks {c : Op Attrs} (hc : Looks c) : Plain tenantID c
  | event (e : AuditEvent) (he : e.tenantID = tenantID) :
      Plain tenantID (.svc (.repo (.audit (.insert e))))
  | signCount (id : String) (n : Int) :
      Plain tenantID (.svc (.repo (.credentials (.updateSignCount tenantID id n))))
  | lastUsed (id : String) (t : Time) :
      Plain tenantID (.svc (.repo (.credentials (.updateLastUsed tenantID id t))))

/-- Those of an assertion, which opens no session. -/
abbrev Asserts (tenantID : String) (c : Op Attrs) : Prop :=
  Plain tenantID c ∧ ¬ Opens c

section Plain

variable {P : Primitives Attrs} {tenantID : String}

theorem beginRegistration_mute (tenantID identityID : String) :
    (beginRegistration P tenantID identityID).Only Mute := by
  refine (only_getIdentity ⟨.read rfl, not_false⟩ _).bind fun ident => ?_
  refine (only_refuseIf _ _).bind fun _ => ?_
  refine (only_repo ⟨.read rfl, not_false⟩ _).bind fun existingCreds => ?_
  refine Program.Only.bind ⟨⟨.outer trivial, not_false⟩, fun _ => trivial⟩ fun reply => ?_
  refine (only_orFail _ _).bind fun out => ?_
  exact (only_keepChallenge (fun _ hc ho => ⟨.outer hc, ho⟩) _ _).bind fun _ => trivial

theorem passkeys_mute (tenantID identityID context : String) :
    (passkeys tenantID identityID context : Ceremony Attrs _).Only Mute :=
  (only_repo ⟨.read rfl, not_false⟩ _).bind fun _ => trivial

theorem beginAssertion_mute (tenantID handle : String) :
    (beginAssertion P tenantID handle).Only Mute := by
  refine (only_getIdentityByHandle ⟨.read rfl, not_false⟩ _).bind fun ident => ?_
  refine (only_refuseIf _ _).bind fun _ => ?_
  refine (passkeys_mute _ _ _).bind fun passkeyCreds => ?_
  refine Program.Only.bind ?_ fun reply => ?_
  · split
    · exact ⟨⟨.outer trivial, not_false⟩, fun _ => trivial⟩
    · exact ⟨⟨.outer trivial, not_false⟩, fun _ => trivial⟩
  · refine (only_orFail _ _).bind fun out => ?_
    exact (only_keepChallenge (fun _ hc ho => ⟨.outer hc, ho⟩) _ _).bind fun _ => trivial

theorem openSession_looks (ttl : Nat) (identityID tenantID handle : String) (r : HttpRequest)
    (claims : Claims) (answer : String → String → HttpResponse) :
    (openSession ttl identityID tenantID handle r claims answer : Ceremony Attrs _).Only Looks :=
  only_openSession (.outer trivial) .now (fun _ _ => .outer trivial) (fun _ => .outer trivial) ..

theorem advanceCounter_asserts (identityID : String) (stored : Credential) (newCount : UInt32) :
    (advanceCounter tenantID identityID stored newCount : Ceremony Attrs Unit).Only
      (Asserts tenantID) := by
  unfold advanceCounter
  split
  · exact (only_dropError ⟨.event _ rfl, not_false⟩).bind fun _ => trivial
  · refine (only_dropError ⟨.signCount _ _, not_false⟩).bind fun _ => ?_
    exact Program.Only.bind ⟨⟨.looks .now, not_false⟩, fun _ => trivial⟩
      fun at_ => only_dropError ⟨.lastUsed _ _, not_false⟩

theorem finishAssertion_asserts (handle sessionID : String) (body : Bytes) :
    (finishAssertion P tenantID handle sessionID body).Only (Asserts tenantID) := by
  refine (only_getIdentityByHandle ⟨.looks (.read rfl), not_false⟩ _).bind fun ident => ?_
  refine (only_refuseIf _ _).bind fun _ => ?_
  refine ((passkeys_mute _ _ _).mono fun _ hc => ⟨.looks hc.1, hc.2⟩).bind fun passkeyCreds => ?_
  refine (only_getChallenge (fun _ hc ho => ⟨.looks (.outer hc), ho⟩) _ _ _).bind fun session => ?_
  refine Program.Only.bind ⟨⟨.looks (.outer trivial), not_false⟩, fun _ => trivial⟩ fun reply => ?_
  cases reply with
  | error text => exact (only_dropError ⟨.event _ rfl, not_false⟩).bind fun _ => trivial
  | ok credential =>
    refine Program.Only.bind ?_
      fun _ => (only_dropError ⟨.event _ rfl, not_false⟩).bind fun _ => trivial
    split
    · exact advanceCounter_asserts _ _ _
    · trivial

end Plain

/-- The calls of `FinishRegistration`. -/
inductive Registers (P : Primitives Attrs) (tenantID identityID : String) : Op Attrs → Prop where
  | plain {c : Op Attrs} (hc : Plain tenantID c) : Registers P tenantID identityID c
  | key (credential : LibraryCredential) : Registers P tenantID identityID
      (.svc (.repo (.keys (.create (registeredKey P tenantID identityID credential)))))
  | primaryKey (keyID : String) : Registers P tenantID identityID
      (.svc (.repo (.identities (.setPrimaryKey tenantID identityID keyID))))
  | credential (keyID : String) (credential : LibraryCredential) : Registers P tenantID identityID
      (.svc (.repo (.credentials (.create
        (registeredCredential tenantID identityID keyID credential)))))

theorem only_finishRegistration {P : Primitives Attrs} {tenantID identityID : String}
    {p : Op Attrs → Prop} (houter : ∀ c, Outer c → ¬ Opens c → p c)
    (hread : ∀ c : RepoCall Attrs, c.target = none → p (.svc (.repo c)))
    (hkey : ∀ credential,
      p (.svc (.repo (.keys (.create (registeredKey P tenantID identityID credential))))))
    (hprimary : ∀ keyID, p (.svc (.repo (.identities (.setPrimaryKey tenantID identityID keyID)))))
    (hcredential : ∀ keyID credential, p (.svc (.repo (.credentials (.create
      (registeredCredential tenantID identityID keyID credential))))))
    (hevent : ∀ e : AuditEvent, e.tenantID = tenantID → p (.svc (.repo (.audit (.insert e)))))
    (sessionID : String) (body : Bytes) :
    (finishRegistration P tenantID identityID sessionID body).Only p := by
  refine (only_getIdentity (hread _ rfl) _).bind fun ident => ?_
  refine (only_repo (hread _ rfl) _).bind fun existingCreds => ?_
  refine (only_getChallenge houter _ _ _).bind fun session => ?_
  refine Program.Only.bind ⟨houter _ trivial not_false, fun _ => trivial⟩ fun reply => ?_
  refine (only_orFail _ _).bind fun credential => ?_
  refine (only_repo (hkey credential) _).bind fun createdKey => ?_
  refine Program.Only.bind ?_ fun _ => (only_repo (hcredential _ credential) _).bind
    fun createdCred => (only_dropError (hevent _ rfl)).bind fun _ => trivial
  split
  · exact only_repo (hprimary _) _
  · trivial

theorem finishRegistration_registers {P : Primitives Attrs} {tenantID identityID : String}
    (sessionID : String) (body : Bytes) :
    (finishRegistration P tenantID identityID sessionID body).Only
      (Registers P tenantID identityID) :=
  only_finishRegistration (fun _ hc _ => .plain (.looks (.outer hc)))
    (fun _ hc => .plain (.looks (.read hc))) .key .primaryKey .credential
    (fun e he => .plain (.event e he)) sessionID body

theorem finishRegistration_opensNothing {P : Primitives Attrs} {tenantID identityID : String}
    (sessionID : String) (body : Bytes) :
    (finishRegistration P tenantID identityID sessionID body).Only fun c => ¬ Opens c :=
  only_finishRegistration (fun _ _ ho => ho) (fun _ _ => not_false) (fun _ => not_false)
    (fun _ => not_false) (fun _ _ => not_false) (fun _ _ => not_false) sessionID body

theorem only_attempt_bind {p : Op Attrs → Prop} {q : Ceremony Attrs α}
    {f : Except AuthError α → Ceremony Attrs β} (hq : q.Only p) (hf : ∀ r, (f r).Only p) :
    (q.attempt >>= f).Only p :=
  hq.attempt.bind hf

theorem registerBegin_mute {P : Primitives Attrs} (body : Option (String × String)) :
    (registerBegin P body).Only Mute := by
  unfold registerBegin
  split
  · trivial
  · split
    · trivial
    · exact only_attempt_bind (beginRegistration_mute ..) fun r => by cases r <;> trivial

theorem loginBegin_mute {P : Primitives Attrs} (body : Option (String × String)) :
    (loginBegin P body).Only Mute := by
  unfold loginBegin
  split
  · trivial
  · split
    · trivial
    · exact only_attempt_bind (beginAssertion_mute ..) fun r => by cases r <;> trivial

theorem registerComplete_registers {P : Primitives Attrs} {tenantID identityID : String}
    (ttl : Nat) (sessionID : String) (r : HttpRequest) :
    (registerComplete P ttl tenantID identityID sessionID r).Only
      (Registers P tenantID identityID) := by
  unfold registerComplete
  split
  · trivial
  · refine only_attempt_bind (finishRegistration_registers ..) fun result => ?_
    cases result with
    | error e => trivial
    | ok result => exact (openSession_looks ..).mono fun _ hc => .plain (.looks hc)

theorem loginComplete_plain {P : Primitives Attrs} {tenantID : String} (ttl : Nat)
    (handle sessionID : String) (r : HttpRequest) :
    (loginComplete P ttl tenantID handle sessionID r).Only (Plain tenantID) := by
  unfold loginComplete
  split
  · trivial
  · refine only_attempt_bind ((finishAssertion_asserts ..).mono fun _ hc => hc.1) fun ident => ?_
    cases ident with
    | error e => trivial
    | ok ident => exact (openSession_looks ..).mono fun _ => .looks

/-- The calls a request can make. -/
inductive MayCall (P : Primitives Attrs) : Request Attrs → Op Attrs → Prop where
  | service {req : Service.Request Attrs} {c : Service.Op Attrs} (hc : Service.MayCall req c) :
      MayCall P (.service req) (.svc c)
  | looks {req : Request Attrs} {c : Op Attrs} (hc : Looks c) : MayCall P req c
  | finishRegistration {tenantID identityID sessionID : String} {body : Bytes} {c : Op Attrs}
      (hc : Registers P tenantID identityID c) :
      MayCall P (.finishRegistration tenantID identityID sessionID body) c
  | registerComplete {tenantID identityID sessionID : String} {r : HttpRequest} {c : Op Attrs}
      (hc : Registers P tenantID identityID c) :
      MayCall P (.registerComplete tenantID identityID sessionID r) c
  | finishAssertion {tenantID handle sessionID : String} {body : Bytes} {c : Op Attrs}
      (hc : Plain tenantID c) : MayCall P (.finishAssertion tenantID handle sessionID body) c
  | loginComplete {tenantID handle sessionID : String} {r : HttpRequest} {c : Op Attrs}
      (hc : Plain tenantID c) : MayCall P (.loginComplete tenantID handle sessionID r) c

theorem only_respond {p : Op Attrs → Prop} {f : α → Response Attrs} {q : Ceremony Attrs α}
    (hq : q.Only p) : (respond f q).Only p :=
  hq.bind fun _ => trivial

theorem program_only (D : Deps Attrs) (req : Request Attrs) :
    (req.program D).Only (MayCall D.primitives req) := by
  cases req with
  | service req =>
    exact only_respond ((Service.program_only D.primitives req).embed fun _ => .service)
  | beginRegistration => exact only_respond ((beginRegistration_mute ..).mono fun _ hc =>
      .looks hc.1)
  | beginAssertion => exact only_respond ((beginAssertion_mute ..).mono fun _ hc => .looks hc.1)
  | registerBegin => exact only_respond ((registerBegin_mute _).mono fun _ hc => .looks hc.1)
  | loginBegin => exact only_respond ((loginBegin_mute _).mono fun _ hc => .looks hc.1)
  | finishRegistration =>
    exact only_respond ((finishRegistration_registers ..).mono fun _ => .finishRegistration)
  | registerComplete =>
    exact only_respond ((registerComplete_registers ..).mono fun _ => .registerComplete)
  | finishAssertion =>
    exact only_respond ((finishAssertion_asserts ..).mono fun _ hc => .finishAssertion hc.1)
  | loginComplete => exact only_respond ((loginComplete_plain ..).mono fun _ => .loginComplete)

/-! ### Protocols -/

/-- Any number of requests over one world. -/
abbrev Requests (ι Attrs : Type) := Pool ι World (@Op.Reply Attrs) AuthError (Response Attrs)

def starting {ι : Type} (D : Deps Attrs) (w : World) (req : ι → Request Attrs) : Requests ι Attrs :=
  Pool.start w fun i => (req i).program D

section Obeys

variable {R : Protocol (@Op.Reply Attrs) AuthError α} {h : List (Event (@Op.Reply Attrs))}

theorem obeys_repo_bind {c : RepoCall Attrs} {context : String} {g : c.Result → Ceremony Attrs α}
    (hcall : R.call h (.svc (.repo c)))
    (hok : ∀ a, Possible (exec D) (.svc (.repo c)) (.ok a) →
      (g a).Obeys (exec D) R (⟨.svc (.repo c), .ok a⟩ :: h))
    (herr : ∀ h e, R.done h (.error e)) : (repo c context >>= g).Obeys (exec D) R h := by
  refine ⟨hcall, fun r hr => ?_⟩
  cases r with
  | ok a => exact hok a hr
  | error e => exact herr _ _

theorem obeys_respond {f : β → Response Attrs} {q : Ceremony Attrs β}
    {R : Protocol (@Op.Reply Attrs) AuthError (Response Attrs)}
    (hq : q.Obeys (exec D) ⟨R.call, fun h x => R.done h (x.map f)⟩ h) :
    (respond f q).Obeys (exec D) R h := by
  refine (Program.obeys_bind _ _ _).mpr (hq.mono ?_ ?_)
  · exact fun _ _ hcall => hcall
  · intro h x hx
    cases x <;> exact hx

/-- The events of the services. -/
def serviceEvent : Event (@Op.Reply Attrs) → Option (Ev Attrs)
  | ⟨.svc c, r⟩ => some ⟨c, r⟩
  | _ => none

/-- A protocol that the services keep is kept by their programs inside. -/
theorem obeys_embed {S : Protocol (@Service.Op.Reply Attrs) Error α} {g : Error → AuthError}
    (hcall : ∀ h c, S.call (h.filterMap serviceEvent) c → R.call h (.svc c))
    (hdone : ∀ h r, S.done (h.filterMap serviceEvent) r → R.done h (r.mapError g))
    {p : Svc Attrs α}
    (hp : p.Obeys (Service.exec D.primitives) S (h.filterMap serviceEvent)) :
    (p.embed services g).Obeys (exec D) R h := by
  refine Program.Obeys.embed serviceEvent (fun _ _ => rfl) (fun c r => ?_) hcall hdone hp
  rintro ⟨e, w, hr⟩
  exact ⟨e.svc, w.svc, hr⟩

end Obeys

/-! ### Runs from a world -/

/-- A stored identity as the identity service returns it. -/
def loaded (row : IdentityRow) (attrs : Option Attrs) : Identity Attrs :=
  { (scanIdentity row : Identity Attrs) with decryptedAttributes := attrs }

section Ends

variable {Q : Except AuthError α → World → Prop} {w : World}

theorem ends_service {q : Svc Attrs α} {context : String}
    (hq : q.Ends (Service.exec D.primitives) (fun r v =>
      Q (r.mapError fun e => .wrap context (.domain e)) { w with svc := v }) w.svc) :
    (service q context).Ends (exec D) Q w := by
  refine Program.Ends.embed (servicePart D) (F := fun w' => w' = { w with svc := w'.svc })
    (fun c e w' h => ?_) rfl (hq.mono fun r v hr w' hw' hv => ?_)
  · rw [h]
    rfl
  · rw [hw', show w'.svc = v from hv]
    exact hr

theorem ends_service_bind {q : Svc Attrs β} {context : String} {f : β → Ceremony Attrs α}
    (hq : q.Ends (Service.exec D.primitives) (fun r v => match r with
      | .ok a => (f a).Ends (exec D) Q { w with svc := v }
      | .error e => Q (.error (.wrap context (.domain e))) { w with svc := v }) w.svc) :
    (service q context >>= f).Ends (exec D) Q w := by
  refine (Program.ensures_bind _ _ _).mpr (ends_service (hq.mono fun r v hr => ?_))
  cases r <;> exact hr

theorem ends_repo_bind {c : RepoCall Attrs} {context : String} {g : c.Result → Ceremony Attrs α}
    (hok : ∀ e a, (Service.exec D.primitives (.repo c) e w.svc).1 = .ok a →
      (g a).Ends (exec D) Q { w with svc := (Service.exec D.primitives (.repo c) e w.svc).2 })
    (herr : ∀ x, Q (.error (.wrap context (.domain x))) w) :
    (repo c context >>= g).Ends (exec D) Q w :=
  ends_service_bind (Service.ends_repo hok herr)

/-- What follows a part that only looks finds the tables as they were. -/
theorem looks_bind {q : Ceremony Attrs β} {f : β → Ceremony Attrs α} (hq : q.Only Looks)
    (herr : ∀ e w', w'.svc = w.svc → Q (.error e) w')
    (hf : ∀ a w', w'.svc = w.svc → (f a).Ends (exec D) Q w') : (q >>= f).Ends (exec D) Q w :=
  hq.ends_bind (J := fun w' => w'.svc = w.svc)
    (fun _ e w' hc hw' => (hc.exec e w').trans hw') herr rfl hf

/-- What follows a part that is mute finds everything as it was. -/
theorem mute_bind {w₀ : World} {q : Ceremony Attrs β} {f : β → Ceremony Attrs α}
    (hq : q.Only Mute) (herr : ∀ e w', Untouched w₀ w' → Q (.error e) w') (hw : Untouched w₀ w)
    (hf : ∀ a w', Untouched w₀ w' → (f a).Ends (exec D) Q w') : (q >>= f).Ends (exec D) Q w :=
  hq.ends_bind (fun _ e w' hc hw' => hw'.trans (.exec hc e w')) herr hw hf

theorem ends_getIdentity_bind {tenantID id context : String}
    {f : Identity Attrs → Ceremony Attrs α}
    (hok : ∀ I row attrs, UUID.ofText? tenantID = some row.tenantID → UUID.ofText? id = some I →
      w.svc.db.identities.get? I = some row →
      decryptAttributes D.primitives (scanIdentity row) = .ok (loaded row attrs) →
      (f (loaded row attrs)).Ends (exec D) Q w)
    (herr : ∀ e, Q (.error (.wrap context (.domain e))) w) :
    (service (getIdentity D.primitives tenantID id) context >>= f).Ends (exec D) Q w := by
  refine ends_service_bind (Service.ends_repo_bind (fun e ident hident => ?_) fun x => herr _)
  obtain ⟨T, I, row, hT, hI, hget, rfl, rfl⟩ := getByID_ok hident
  rw [exec_read rfl]
  refine Service.ends_orFail (fun decrypted hdec => ?_) fun _ _ => herr _
  obtain ⟨attrs, rfl⟩ := decryptAttributes_eq hdec
  exact hok I row attrs hT hI hget hdec

theorem ends_getIdentityByHandle_bind {tenantID handle context : String}
    {f : Identity Attrs → Ceremony Attrs α}
    (hok : ∀ row attrs, UUID.ofText? tenantID = some row.tenantID →
      w.svc.db.identities.get? row.id = some row → citextEq row.handle handle = true →
      decryptAttributes D.primitives (scanIdentity row) = .ok (loaded row attrs) →
      (f (loaded row attrs)).Ends (exec D) Q w)
    (herr : ∀ e, Q (.error (.wrap context (.domain e))) w) :
    (service (getIdentityByHandle D.primitives tenantID handle) context >>= f).Ends (exec D) Q
      w := by
  refine ends_service_bind (Service.ends_repo_bind (fun e ident hident => ?_) fun x => herr _)
  obtain ⟨-, T, hT, row, hmem, rfl, hhandle, rfl⟩ := getByHandle_ok hident
  rw [exec_read rfl]
  refine Service.ends_orFail (fun decrypted hdec => ?_) fun _ _ => herr _
  obtain ⟨attrs, rfl⟩ := decryptAttributes_eq hdec
  exact hok row attrs hT (Table.get?_of_mem hmem) hhandle hdec

theorem ends_refuseIf_bind {cond : Prop} [Decidable cond] {x : AuthError}
    {g : Unit → Ceremony Attrs α} (hfail : Q (.error x) w)
    (hgo : ¬ cond → (g ()).Ends (exec D) Q w) : (refuseIf cond x >>= g).Ends (exec D) Q w := by
  unfold refuseIf
  split
  · exact hfail
  · exact hgo ‹_›

theorem ends_orFail_bind {f : String → AuthError} {x : Except String β}
    {g : β → Ceremony Attrs α} (hok : ∀ b, x = .ok b → (g b).Ends (exec D) Q w)
    (herr : ∀ t, x = .error t → Q (.error (f t)) w) : (orFail f x >>= g).Ends (exec D) Q w := by
  cases x with
  | ok b => exact hok b rfl
  | error t => exact herr t rfl

theorem ends_passkeys_bind {tenantID identityID context : String}
    {f : List Credential → Ceremony Attrs α} (hok : ∀ creds, (f creds).Ends (exec D) Q w)
    (herr : ∀ e, Q (.error (.wrap context (.domain e))) w) :
    (passkeys tenantID identityID context >>= f).Ends (exec D) Q w := by
  unfold passkeys
  rw [Program.bind_assoc]
  refine ends_repo_bind (fun e creds _ => ?_) herr
  rw [exec_read rfl]
  exact hok _

/-- A challenge that is not there, or is gone by the time Redis looks, is not found. -/
theorem ends_getChallenge_none {challengeID getContext unmarshalContext : String}
    {f : LibrarySession → Ceremony Attrs α}
    (h : w.challenges.find (challengeKey challengeID) = none)
    (hQ : ∀ e w', w'.svc = w.svc → Q (.error e) w') :
    (getChallenge challengeID getContext unmarshalContext >>= f).Ends (exec D) Q w := by
  intro e _
  have hgone := Redis.Server.find_advance_none (d := e.redis.elapsed) h
  have hget : (w.challenges.advance e.redis.elapsed).get (challengeKey challengeID) = .ok none := by
    simp [Redis.Server.get, hgone]
  cases hr : e.redis.reachable with
  | true =>
    simp only [exec, hr, Redis.Server.getDel, hget, if_true]
    exact hQ _ _ rfl
  | false =>
    simp only [exec, hr, Bool.false_eq_true, if_false]
    exact hQ _ _ rfl

/-- The key of a registration has no JWK, which the column asks for. -/
theorem registeredKey_refused (P : Primitives Attrs) (tenantID identityID : String)
    (credential : LibraryCredential) (e : Service.Env) (v : Service.World) (created : IdentityKey) :
    (Service.exec P (.repo (.keys (.create (registeredKey P tenantID identityID credential)))) e
      v).1 ≠ .ok created := by
  intro hok
  obtain ⟨st, rows, heval, -⟩ := conn_statement
    (q := .keyInsert (registeredKey P tenantID identityID credential)) rfl (fun _ => ⟨_, rfl⟩) hok
  exact absurd (sqlKeyInsert_bytes heval).2 Bool.false_ne_true

/-- No registration is finished, and nothing is created. -/
theorem finishRegistration_fails (tenantID identityID sessionID : String) (body : Bytes) :
    (finishRegistration D.primitives tenantID identityID sessionID body).Ends (exec D)
      (fun r w' => (∃ e, r = .error e) ∧ Untouched w w') w := by
  have hfail : ∀ (e : AuthError) (w' : World), Untouched w w' →
      (∃ x, (.error e : Except AuthError FinishRegistrationResult) = .error x) ∧ Untouched w w' :=
    fun e _ hw => ⟨⟨e, rfl⟩, hw⟩
  refine mute_bind (only_getIdentity ⟨.read rfl, not_false⟩ _) hfail (.refl w) fun ident w1 h1 => ?_
  refine mute_bind (only_repo ⟨.read rfl, not_false⟩ _) hfail h1 fun existingCreds w2 h2 => ?_
  refine mute_bind (only_getChallenge (fun _ hc ho => ⟨.outer hc, ho⟩) _ _ _) hfail h2
    fun session w3 h3 => ?_
  refine mute_bind ⟨⟨.outer trivial, not_false⟩, fun _ => trivial⟩ hfail h3 fun reply w4 h4 => ?_
  refine ends_orFail_bind (fun credential _ => ?_) fun _ _ => hfail _ w4 h4
  refine ends_repo_bind (fun e created hok => ?_) fun _ => hfail _ w4 h4
  exact absurd hok (registeredKey_refused _ _ _ _ _ _ _)

/-- The identity that an assertion returns is an active one of the tenant. -/
theorem finishAssertion_returns (tenantID handle sessionID : String) (body : Bytes) :
    (finishAssertion D.primitives tenantID handle sessionID body).Ends (exec D) (fun r _ =>
      ∀ ident, r = .ok ident → ∃ row attrs, ident = loaded row attrs ∧
        UUID.ofText? tenantID = some row.tenantID ∧
        w.svc.db.identities.get? row.id = some row ∧ row.status = .active) w := by
  have hfail : ∀ (e : AuthError) (_ : World) (ident : Identity Attrs), Except.error e = .ok ident →
      ∃ row attrs, ident = loaded row attrs ∧ UUID.ofText? tenantID = some row.tenantID ∧
        w.svc.db.identities.get? row.id = some row ∧ row.status = .active :=
    fun _ _ _ h => nomatch h
  refine ends_getIdentityByHandle_bind (fun row attrs hT hget _ _ => ?_) fun e => hfail _ w
  refine ends_refuseIf_bind (hfail _ w) fun hactive => ?_
  refine Program.ends_bind_any hfail fun passkeyCreds w => ?_
  refine Program.ends_bind_any hfail fun session w => ?_
  refine Program.ends_bind_any hfail fun reply w => ?_
  cases reply with
  | error text => exact Program.ends_bind_any hfail fun _ w => hfail _ w
  | ok credential =>
    refine Program.ends_bind_any hfail fun _ w => ?_
    refine Program.ends_bind_any hfail fun _ w => ?_
    rintro _ ⟨⟩
    exact ⟨row, attrs, rfl, hT, hget, not_not.mp hactive⟩

theorem ends_respond {f : β → Response Attrs} {q : Ceremony Attrs β}
    {Q : Except AuthError (Response Attrs) → World → Prop}
    (hq : q.Ends (exec D) (fun r w => Q (r.map f) w) w) : (respond f q).Ends (exec D) Q w := by
  refine (Program.ensures_bind _ _ _).mpr (hq.mono fun r w hr => ?_)
  cases r <;> exact hr

end Ends

end Verion.Auth
