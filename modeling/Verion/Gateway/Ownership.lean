import Verion.Auth.Challenges
import Verion.Gateway.Routes
import Verion.Sessions.Index
import Verion.Sessions.Ownership

/-!
# Sessions under interleaved requests

Every session belongs to one identity: the one its creation names. The record,
the index, the token and whatever the requests have read of them agree on it,
although the record is written back by every authenticated request.
-/

namespace Verion.Gateway

open Calls Sessions

open Auth (Claims AuthError World Env)

variable {Attrs ι α : Type}

abbrev Requests (ι Attrs : Type) := Pool ι World (@Op.Reply Attrs) AuthError (Response Attrs)

def starting (D : Deps Attrs) (w : World) (req : ι → Request Attrs) : Requests ι Attrs :=
  Pool.start w fun i => (req i).program D

/-! ### Events -/

def authEvent : Event (@Op.Reply Attrs) → Option (Event (@Auth.Op.Reply Attrs))
  | ⟨.auth c, r⟩ => some ⟨c, r⟩
  | _ => none

def sessionEvent : Event (@Auth.Op.Reply Attrs) → Option Ev
  | ⟨.session c, r⟩ => some ⟨c, r⟩
  | _ => none

/-- What a request has sent to the session keys. -/
def sessionHist (h : List (Event (@Op.Reply Attrs))) : List Ev :=
  (h.filterMap authEvent).filterMap sessionEvent

/-- The token was verified. -/
def verified (token : String) (claims : Claims) : Event (@Op.Reply Attrs) :=
  ⟨.verify token, some claims⟩

/-! ### Every request keeps to it -/

/-- A token is issued for the identity of a session that the same request has sent. -/
def IssuesFor (h : List Ev) (claims : Claims) (sid : String) : Prop :=
  ∃ data ttl r, ⟨.write (.set (key sid) (some data) ttl), r⟩ ∈ h ∧ data.identityID = claims.subject

def opening (α : Type) : Protocol (@Auth.Op.Reply Attrs) AuthError α where
  call h c := match c with
    | .session c => Sanctioned none (h.filterMap sessionEvent) c
    | .issue claims sid => IssuesFor (h.filterMap sessionEvent) claims sid
    | _ => True
  done _ _ := True

section Ceremonies

open Auth

variable {D : Auth.Deps Attrs} {β : Type} {h : List (Event (@Auth.Op.Reply Attrs))}

theorem opens_nothing {c : Auth.Op Attrs} (hc : ¬ Opens c)
    (h : List (Event (@Auth.Op.Reply Attrs))) :
    (opening α).call h c := by
  cases c with
  | session c => exact absurd trivial hc
  | issue claims sid => exact absurd trivial hc
  | _ => trivial

theorem opening_all {q : Ceremony Attrs α} (hq : q.Only fun c => ¬ Opens c) :
    q.Obeys (Auth.exec D) (opening α) h :=
  hq.obeys (fun h _ hc => opens_nothing hc h) (fun _ _ => trivial) h

theorem opening_bind {q : Ceremony Attrs β} {f : β → Ceremony Attrs α}
    (hq : q.Only fun c => ¬ Opens c)
    (hf : ∀ a h', (f a).Obeys (Auth.exec D) (opening α) h') :
    (q >>= f).Obeys (Auth.exec D) (opening α) h :=
  hq.obeys_bind (fun h _ hc => opens_nothing hc h) (fun _ _ => trivial) fun a h' _ _ => hf a h'

theorem opening_create_bind {ttl : Nat} {data : SessionData}
    {f : Except AuthError Unit → Ceremony Attrs α}
    (hf : ∀ x h', RecordSent ttl data (h'.filterMap sessionEvent) →
      (f x).Obeys (Auth.exec D) (opening α) h') :
    (((Sessions.create ttl data).embed sessionStore .store).attempt >>= f).Obeys (Auth.exec D)
      (opening α) h :=
  (Program.obeys_attempt_bind _ _ _).mpr (Program.Obeys.embed sessionEvent (fun _ _ => rfl)
    (fun _ _ ⟨e, w, hr⟩ => ⟨e.redis, w.sessions, hr⟩) (fun _ _ hc => hc)
    (fun h' _ hsent => hf _ h' hsent) (create_sanctioned data))

/-- The token of a new session is for the identity in its record. -/
theorem openSession_opening (ttl : Nat) {identityID : String} (tenantID handle : String)
    (r : HttpRequest) (claims : Claims) (answer : String → String → HttpResponse)
    (hclaims : identityID = claims.subject) :
    (openSession ttl identityID tenantID handle r claims answer).Obeys (Auth.exec D)
      (opening _) h := by
  refine opening_bind ⟨not_false, fun r => by cases r <;> trivial⟩ fun authSessionID h => ?_
  refine opening_bind ⟨not_false, fun _ => trivial⟩ fun createdAt h => ?_
  refine opening_bind ⟨not_false, fun _ => trivial⟩ fun lastSeenAt h => ?_
  refine opening_create_bind fun created h hsent => ?_
  cases created with
  | error e => trivial
  | ok _ =>
    obtain ⟨reply, hset⟩ := hsent
    exact ⟨⟨_, ttl, reply, hset, hclaims⟩, fun _ _ => trivial⟩

theorem registerComplete_opening (ttl : Nat) (tenantID identityID challengeID : String)
    (r : HttpRequest) :
    (registerComplete D.primitives ttl tenantID identityID challengeID r).Obeys (Auth.exec D)
      (opening _) h := by
  unfold registerComplete
  split
  · trivial
  · refine opening_bind (finishRegistration_opensNothing ..).attempt fun result h => ?_
    cases result with
    | error e => trivial
    | ok result => exact openSession_opening _ _ _ _ _ _ rfl

theorem loginComplete_opening (ttl : Nat) (tenantID handle challengeID : String)
    (r : HttpRequest) :
    (loginComplete D.primitives ttl tenantID handle challengeID r).Obeys (Auth.exec D)
      (opening _) h := by
  unfold loginComplete
  split
  · trivial
  · refine opening_bind ((finishAssertion_asserts ..).mono fun _ hc => hc.2).attempt
      fun result h => ?_
    cases result with
    | error e => trivial
    | ok ident => exact openSession_opening _ _ _ _ _ _ rfl

/-- Sessions are opened by the two `Complete` handlers only, each for one identity. -/
theorem ceremony_opening (D : Auth.Deps Attrs) (req : Auth.Request Attrs) :
    (req.program D).Obeys (Auth.exec D) (opening _) [] := by
  cases req with
  | service req =>
    refine opening_all (only_respond ?_)
    exact (Service.program_only D.primitives req).embed fun _ _ => not_false
  | beginRegistration =>
    exact opening_all (only_respond ((beginRegistration_mute ..).mono fun _ hc => hc.2))
  | beginAssertion =>
    exact opening_all (only_respond ((beginAssertion_mute ..).mono fun _ hc => hc.2))
  | registerBegin => exact opening_all (only_respond ((registerBegin_mute _).mono fun _ hc => hc.2))
  | loginBegin => exact opening_all (only_respond ((loginBegin_mute _).mono fun _ hc => hc.2))
  | finishRegistration =>
    exact opening_all (only_respond (finishRegistration_opensNothing ..))
  | finishAssertion =>
    exact opening_all (only_respond ((finishAssertion_asserts ..).mono fun _ hc => hc.2))
  | registerComplete => exact obeys_respond (registerComplete_opening ..)
  | loginComplete => exact obeys_respond (loginComplete_opening ..)

end Ceremonies

/-- The routes that ask for no token. -/
def Public : Request Attrs → Prop
  | .ceremony _ | .listByIdentity _ => True
  | _ => False

/-- What a request may call: on the session keys what its token sanctions, or what it may do
without one. -/
def Owning (req : Request Attrs) (h : List (Event (@Op.Reply Attrs))) : Op Attrs → Prop
  | .auth (.session c) =>
    (∃ token claims, verified token claims ∈ h ∧
      Sanctioned (some (tokenSession claims)) (sessionHist h) c) ∨
    (Public req ∧ Sanctioned none (sessionHist h) c)
  | .auth (.issue claims sid) => IssuesFor (sessionHist h) claims sid
  | _ => True

def owning (req : Request Attrs) : Protocol (@Op.Reply Attrs) AuthError (Response Attrs) where
  call := Owning req
  done h x := ∀ identityID sessions, x = .ok (.sessions identityID sessions) →
    Traced identityID (sessionHist h) sessions

section Routes

variable {D : Deps Attrs} {req : Request Attrs} {β : Type}
  {h : List (Event (@Op.Reply Attrs))} {f : β → Route Attrs (Response Attrs)}

theorem owning_fail (req : Request Attrs) (e : AuthError) : (owning req).done h (.error e) :=
  fun _ _ hx => nomatch hx

theorem authenticate_bind {authHeader : String} {f : Claims → Route Attrs (Response Attrs)}
    (hf : ∀ token claims, (f claims).Obeys (exec D) (owning req) (verified token claims :: h)) :
    (authenticate authHeader >>= f).Obeys (exec D) (owning req) h := by
  unfold authenticate
  split
  · exact owning_fail _ _
  · refine ⟨trivial, fun r _ => ?_⟩
    cases r with
    | none => exact owning_fail _ _
    | some claims => exact hf _ claims

/-- A program on the session keys that keeps to what the claims sanction. -/
theorem onSessions_bind {q : Store β} {claims : Option TokenSession}
    {Q : List Ev → Except StoreError β → Prop}
    (hallowed : ∀ h' c, (∀ ev ∈ h, ev ∈ h') → Sanctioned claims (sessionHist h') c →
      Owning req h' (.auth (.session c)))
    (hq : q.Obeys Redis.exec ⟨Sanctioned claims, Q⟩ (sessionHist h))
    (hf : ∀ a h', Q (sessionHist h') (.ok a) → (f a).Obeys (exec D) (owning req) h') :
    (onSessions q >>= f).Obeys (exec D) (owning req) h := by
  have hpick : ∀ h : List (Event (@Op.Reply Attrs)),
      h.filterMap (fun ev => (authEvent ev).bind sessionEvent) = sessionHist h :=
    fun h => List.filterMap_filterMap.symm
  refine (Program.obeys_bind _ _ _).mpr (Program.Obeys.embed_from (P := ⟨Sanctioned claims, Q⟩)
    (fun ev => (authEvent ev).bind sessionEvent) (fun _ _ => rfl)
    (fun _ _ ⟨e, w, hr⟩ => ⟨e.redis, w.sessions, hr⟩) (fun h' c hsub hc => ?_)
    (fun h' x _ hx => ?_) ?_)
  · rw [hpick] at hc
    exact hallowed h' c hsub hc
  · rw [hpick] at hx
    cases x with
    | ok a => exact hf a h' hx
    | error e => exact owning_fail req _
  · rw [hpick]
    exact hq

theorem owning_of_token {token : String} {claims : Claims} (hmem : verified token claims ∈ h)
    (h' : List (Event (@Op.Reply Attrs))) (c : Redis.Command String Doc) (hsub : ∀ ev ∈ h, ev ∈ h')
    (hc : Sanctioned (some (tokenSession claims)) (sessionHist h') c) :
    Owning req h' (.auth (.session c)) :=
  .inl ⟨token, claims, hsub _ hmem, hc⟩

/-- Every request keeps to it. -/
theorem request_owning (D : Deps Attrs) (req : Request Attrs) :
    (req.program D).Obeys (exec D) (owning req) [] := by
  cases req with
  | ceremony req =>
    refine (Program.obeys_bind _ _ _).mpr (Program.Obeys.embed authEvent (fun _ _ => rfl)
      (fun _ _ ⟨e, w, hr⟩ => ⟨e, w, hr⟩) (fun h c hc => ?_) (fun h x _ => ?_)
      (ceremony_opening D.toDeps req))
    · cases c with
      | session c => exact .inr ⟨trivial, hc⟩
      | issue claims sid => exact hc
      | _ => trivial
    · cases x with
      | ok resp => exact fun _ _ hx => nomatch hx
      | error e => exact owning_fail (.ceremony req) e
  | listByIdentity identityID =>
    refine onSessions_bind (fun h' c _ hc => .inr ⟨trivial, hc⟩)
      (listByIdentity_sanctioned identityID (Q := fun h x => ∀ ds, x = .ok ds →
        Traced identityID h ds) fun h' x _ htraced => htraced) fun sessions h' htraced => ?_
    rintro _ _ ⟨⟩
    exact htraced sessions rfl
  | logout authHeader =>
    refine authenticate_bind fun token claims => ?_
    exact onSessions_bind (owning_of_token (.head _)) logout_sanctioned fun _ _ _ _ _ hx =>
      nomatch hx
  | listSessions authHeader =>
    refine authenticate_bind fun token claims => ?_
    refine onSessions_bind (owning_of_token (.head _)) listSessions_sanctioned
      fun sessions h' htraced => ?_
    rintro _ _ ⟨⟩
    exact htraced sessions rfl
  | revokeSession authHeader sessionID =>
    refine authenticate_bind fun token claims => ?_
    exact onSessions_bind (owning_of_token (.head _)) revokeSession_sanctioned
      fun _ _ _ _ _ hx => nomatch hx
  | handler authHeader req =>
    refine authenticate_bind fun token claims => ?_
    refine onSessions_bind (owning_of_token (.head _))
      (requireAuth_sanctioned (Q := fun _ _ => True) fun _ _ _ => trivial) fun _ h' _ => ?_
    have hcalls : ((Http.handle D.primitives req).embed serviceCalls .domain :
        Route Attrs _).Only fun c => ∃ c', c = .auth (.svc c') :=
      (Program.only_true _).embed fun c _ => ⟨c, rfl⟩
    refine hcalls.obeys_bind ?_ (fun _ _ => owning_fail _ _) fun _ _ _ _ _ _ hx => nomatch hx
    rintro h _ ⟨c, rfl⟩
    trivial

end Routes

/-! ### One call -/

def sessionOp (c : Redis.Command String Doc) (r : c.Reply) : Event (@Op.Reply Attrs) :=
  ⟨.auth (.session c), r⟩

/-- A request has sent a record of the session for the identity. -/
def Owns (log : List (ι × Event (@Op.Reply Attrs))) (sid identityID : String) : Prop :=
  ∃ j data ttl r, (j, sessionOp (.write (.set (key sid) (some data) ttl)) r) ∈ log ∧
    data.identityID = identityID

/-- All that is stored, issued and read agrees on the owner of each session. -/
structure Owned (w : World) (log : List (ι × Event (@Op.Reply Attrs))) : Prop where
  unique : ∀ {sid a b}, Owns log sid a → Owns log sid b → a = b
  stored : ∀ {sid data}, w.sessions.text (key sid) = some (some data) →
    Owns log sid data.identityID
  index : ∀ {identityID sid}, sid ∈ w.sessions.members (indexKey identityID) →
    Owns log sid identityID
  read : ∀ {j sid data}, (j, sessionOp (.get (key sid)) (.ok (some (some data)))) ∈ log →
    Owns log sid data.identityID
  listed : ∀ {j identityID members}, (j, sessionOp (.sMembers (indexKey identityID))
    (.ok members)) ∈ log → ∀ sid ∈ members, Owns log sid identityID
  issued : ∀ {claims}, claims ∈ w.issued → Owns log claims.sessionID claims.subject
  tokens : ∀ {j token claims}, (j, verified token claims) ∈ log → claims ∈ w.issued

section Step

variable {D : Deps Attrs} {c : Op Attrs} {e : Env} {w : World} {i : ι} {sid identityID : String}
  {log : List (ι × Event (@Op.Reply Attrs))} {ev : Event (@Op.Reply Attrs)}

theorem Owns.cons (h : Owns log sid identityID) (x : ι × Event (@Op.Reply Attrs)) :
    Owns (x :: log) sid identityID := by
  obtain ⟨j, data, ttl, r, hmem, hid⟩ := h
  exact ⟨j, data, ttl, r, List.mem_cons_of_mem _ hmem, hid⟩

theorem Owns.of_cons (h : Owns ((i, ev) :: log) sid identityID) :
    Owns log sid identityID ∨ ∃ data ttl r,
      ev = sessionOp (.write (.set (key sid) (some data) ttl)) r ∧
        data.identityID = identityID := by
  obtain ⟨j, data, ttl, r, hmem, hid⟩ := h
  rcases List.mem_cons.mp hmem with heq | hmem
  · exact .inr ⟨data, ttl, r, (congrArg Prod.snd heq).symm, hid⟩
  · exact .inl ⟨j, data, ttl, r, hmem, hid⟩

theorem exec_entries (hc : ∀ c', c ≠ .auth (.session c')) :
    (exec D c e w).2.sessions.entries = w.sessions.entries := by
  cases c with
  | verify token => rfl
  | auth c =>
    cases c with
    | session c => exact absurd rfl (hc c)
    | _ => rfl

theorem exec_stored {data : SessionData}
    (h : (exec D c e w).2.sessions.text (key sid) = some (some data)) :
    w.sessions.text (key sid) = some (some data) ∨
      ∃ ttl, c = .auth (.session (.write (.set (key sid) (some data) ttl))) := by
  by_cases hc : ∃ c', c = .auth (.session c')
  · obtain ⟨c, rfl⟩ := hc
    rcases Redis.exec_text c e.redis w.sessions h with hold | ⟨ttl, rfl⟩
    · exact .inl hold
    · exact .inr ⟨ttl, rfl⟩
  · left
    unfold Redis.Server.text at h ⊢
    rwa [exec_entries fun c' hc' => hc ⟨c', hc'⟩] at h

theorem exec_index (h : sid ∈ (exec D c e w).2.sessions.members (indexKey identityID)) :
    sid ∈ w.sessions.members (indexKey identityID) ∨
      c = .auth (.session (.write (.sAdd (indexKey identityID) sid))) := by
  by_cases hc : ∃ c', c = .auth (.session c')
  · obtain ⟨c, rfl⟩ := hc
    rcases Redis.exec_members c e.redis w.sessions h with hold | rfl
    · exact .inl hold
    · exact .inr rfl
  · left
    unfold Redis.Server.members at h ⊢
    rwa [exec_entries fun c' hc' => hc ⟨c', hc'⟩] at h

theorem exec_issued {claims : Claims} (h : claims ∈ (exec D c e w).2.issued) :
    claims ∈ w.issued ∨ ∃ given, c = .auth (.issue given claims.sessionID) ∧
      claims.subject = given.subject := by
  cases c with
  | verify token => exact .inl h
  | auth c =>
    cases c with
    | issue given sid =>
      rcases List.mem_cons.mp h with rfl | hold
      · exact .inr ⟨given, rfl, rfl⟩
      · exact .inl hold
    | _ => exact .inl h

theorem issued_grows {claims : Claims} (h : claims ∈ w.issued) :
    claims ∈ (exec D c e w).2.issued := by
  cases c with
  | verify token => exact h
  | auth c =>
    cases c with
    | issue given sid => exact List.mem_cons_of_mem _ h
    | _ => exact h

/-- What a call has to meet for the owners to stay what they are. -/
structure KeepsOwners (w : World) (log : List (ι × Event (@Op.Reply Attrs)))
    (ev : Event (@Op.Reply Attrs)) : Prop where
  set : ∀ sid data ttl r, ev = sessionOp (.write (.set (key sid) (some data) ttl)) r →
    ∀ a, Owns log sid a → a = data.identityID
  add : ∀ identityID sid, ev.op = .auth (.session (.write (.sAdd (indexKey identityID) sid))) →
    Owns log sid identityID
  issue : ∀ claims sid, ev.op = .auth (.issue claims sid) → Owns log sid claims.subject
  token : ∀ token claims, ev = verified token claims → claims ∈ w.issued

theorem Owned.step (h : Owned w log) (hk : KeepsOwners w log ⟨c, (exec D c e w).1⟩) :
    Owned (exec D c e w).2 ((i, ⟨c, (exec D c e w).1⟩) :: log) := by
  constructor
  · intro sid a b ha hb
    rcases ha.of_cons with ha | ⟨data, ttl, r, heq, rfl⟩ <;>
      rcases hb.of_cons with hb | ⟨data', ttl', r', heq', rfl⟩
    · exact h.unique ha hb
    · exact hk.set sid data' ttl' r' heq' a ha
    · exact (hk.set sid data ttl r heq b hb).symm
    · cases heq.symm.trans heq'
      rfl
  · intro sid data htext
    rcases exec_stored htext with hold | ⟨ttl, rfl⟩
    · exact (h.stored hold).cons _
    · exact ⟨i, data, ttl, _, List.mem_cons_self .., rfl⟩
  · intro identityID sid hmem
    rcases exec_index hmem with hold | rfl
    · exact (h.index hold).cons _
    · exact (hk.add identityID sid rfl).cons _
  · intro j sid data hmem
    rcases List.mem_cons.mp hmem with heq | hold
    · obtain ⟨rfl, hreply⟩ := Event.mk.inj (congrArg Prod.snd heq).symm
      exact (h.stored (Redis.exec_get_some (eq_of_heq hreply))).cons _
    · exact (h.read hold).cons _
  · intro j identityID members hmem sid hsid
    rcases List.mem_cons.mp hmem with heq | hold
    · obtain ⟨rfl, hreply⟩ := Event.mk.inj (congrArg Prod.snd heq).symm
      exact (h.index (Redis.exec_sMembers_ok (eq_of_heq hreply) hsid)).cons _
    · exact (h.listed hold sid hsid).cons _
  · intro claims hmem
    rcases exec_issued hmem with hold | ⟨given, rfl, hsubject⟩
    · exact (h.issued hold).cons _
    · rw [hsubject]
      exact (hk.issue given claims.sessionID rfl).cons _
  · intro j token claims hmem
    rcases List.mem_cons.mp hmem with heq | hold
    · exact issued_grows (hk.token token claims (congrArg Prod.snd heq).symm)
    · exact issued_grows (h.tokens hold)

end Step

/-! ### Whole runs -/

/-- The session key that an event sets. -/
def setsAt : Event (@Op.Reply Attrs) → Option String
  | ⟨.auth (.session (.write (.set k _ _))), _⟩ => some k
  | _ => none

/-- The identifier of a session that is created was not used for a session before. -/
def FreshSession (req : ι → Request Attrs) (s : Requests ι Attrs) (i : ι) : Prop :=
  ∀ k doc ttl next, Public (req i) →
    s.prog i = .call (.auth (.session (.write (.set k doc ttl)))) next →
    ∀ x ∈ s.log, setsAt x.2 ≠ some k

/-- A token that verifies was issued. -/
def Unforged (D : Deps Attrs) (s : Requests ι Attrs) (i : ι) (e : Env) : Prop :=
  ∀ token next claims, s.prog i = .call (.verify token) next →
    D.verify token e.svc.now = some claims → claims ∈ s.world.issued

def Honest (D : Deps Attrs) (req : ι → Request Attrs) (s : Requests ι Attrs) (i : ι) (e : Env) :
    Prop :=
  FreshSession req s i ∧ Unforged D s i e

section Start

variable {req : ι → Request Attrs} {w : World} {s : Requests ι Attrs} {i : ι} {sid : String}

theorem not_owns_of_fresh {doc : Doc} {ttl : Nat}
    {next : Except Redis.Failure Unit → Route Attrs (Response Attrs)}
    (hfresh : FreshSession req s i)
    (hpublic : Public (req i))
    (hc : s.prog i = .call (.auth (.session (.write (.set (key sid) doc ttl)))) next) (a : String) :
    ¬ Owns s.log sid a := by
  rintro ⟨j, data, ttl', r, hmem, -⟩
  exact hfresh (key sid) doc ttl next hpublic hc _ hmem rfl

theorem owned_start (h0 : ∀ k, w.sessions.entries k = none) (hissued : w.issued = []) :
    Owned w ([] : List (ι × Event (@Op.Reply Attrs))) := by
  refine ⟨?_, ?_, ?_, ?_, ?_, ?_, ?_⟩
  · rintro sid a b ⟨_, _, _, _, hmem, -⟩
    exact absurd hmem List.not_mem_nil
  · intro sid data htext
    simp [Redis.Server.text, h0] at htext
  · intro identityID sid hmem
    simp [Redis.Server.members, h0] at hmem
  · exact fun hmem => absurd hmem List.not_mem_nil
  · exact fun hmem => absurd hmem List.not_mem_nil
  · intro claims hmem
    rw [hissued] at hmem
    exact absurd hmem List.not_mem_nil
  · exact fun hmem => absurd hmem List.not_mem_nil

end Start

theorem text_of_record {v : Redis.Server String Doc} {sid : String} {data : SessionData}
    (h : record v sid = some data) :
    v.text (key sid) = some (some data) := by
  obtain ⟨t, hfind⟩ := record_eq_some.mp h
  simp [Redis.Server.text, (Redis.Server.find_eq_some.mp hfind).1]

/-- The calls that are none on the session keys only let time pass there. -/
theorem exec_sessions {D : Deps Attrs} {c : Op Attrs} (hc : ∀ c', c ≠ .auth (.session c')) (e : Env)
    (w : World) : (exec D c e w).2.sessions = w.sessions ∨
      (exec D c e w).2.sessions = w.sessions.advance e.redis.elapsed := by
  cases c with
  | verify token => exact .inl rfl
  | auth c =>
    cases c with
    | session c => exact absurd rfl (hc c)
    | setChallenge => exact .inr rfl
    | getDelChallenge => exact .inr rfl
    | _ => exact .inl rfl

section Run

variable [DecidableEq ι] {D : Deps Attrs} {req : ι → Request Attrs} {w : World}
  {s : Requests ι Attrs} {i : ι} {e : Env} {c : Op Attrs} {sid : String}
  {k : c.Reply → Route Attrs (Response Attrs)}

theorem mem_sessionHist {ev : Ev} (h : ev ∈ sessionHist (s.hist i)) :
    (i, sessionOp ev.op ev.reply) ∈ s.log := by
  obtain ⟨mid, hmid, hev⟩ := List.mem_filterMap.mp h
  obtain ⟨full, hfull, hauth⟩ := List.mem_filterMap.mp hmid
  unfold authEvent at hauth
  split at hauth
  · cases hauth
    unfold sessionEvent at hev
    split at hev
    · rename_i heq
      cases heq
      cases hev
      exact Pool.mem_hist.mp hfull
    · cases hev
  · cases hauth

/-- What a request has found, the owner of the session owns. -/
theorem Owned.found (h : Owned s.world s.log) {data : SessionData}
    (hf : found sid data ∈ sessionHist (s.hist i)) : Owns s.log sid data.identityID :=
  h.read (mem_sessionHist hf)

theorem keepsOwners (h : Owned s.world s.log) (hown : Owning (req i) (s.hist i) c)
    (hok : Honest D req s i e) (hc : s.prog i = .call c k) :
    KeepsOwners s.world s.log ⟨c, (exec D c e s.world).1⟩ := by
  constructor
  · intro sid data ttl r heq a ha
    obtain rfl : c = .auth (.session (.write (.set (key sid) (some data) ttl))) :=
      congrArg Event.op heq
    have hread : (∃ old, found sid old ∈ sessionHist (s.hist i) ∧
        data.identityID = old.identityID) → a = data.identityID := by
      rintro ⟨old, hfound, hsame⟩
      exact (h.unique ha (h.found hfound)).trans hsame.symm
    rcases hown with ⟨token, claims, -, hs⟩ | ⟨hpublic, hs⟩
    · rcases hs.of_set with hnone | hold
      · cases hnone
      · exact hread hold
    · rcases hs.of_set with - | hold
      · exact absurd ha (not_owns_of_fresh hok.1 hpublic hc a)
      · exact hread hold
  · intro identityID sid heq
    obtain rfl : c = .auth (.session (.write (.sAdd (indexKey identityID) sid))) := heq
    have hsent : (∃ data ttl r, ⟨.write (.set (key sid) (some data) ttl), r⟩ ∈
        sessionHist (s.hist i) ∧ data.identityID = identityID) → Owns s.log sid identityID := by
      rintro ⟨data, ttl, r, hmem, hid⟩
      exact ⟨i, data, ttl, r, mem_sessionHist hmem, hid⟩
    rcases hown with ⟨token, claims, -, hs⟩ | ⟨-, hs⟩
    · exact hsent hs.of_sAdd
    · exact hsent hs.of_sAdd
  · intro claims sid heq
    obtain rfl : c = .auth (.issue claims sid) := heq
    obtain ⟨data, ttl, r, hmem, hid⟩ := hown
    exact ⟨i, data, ttl, r, mem_sessionHist hmem, hid⟩
  · intro token claims heq
    obtain ⟨rfl, hreply⟩ := Event.mk.inj heq
    exact hok.2 token k claims hc (eq_of_heq hreply)

theorem owned_reach (h0 : ∀ k, w.sessions.entries k = none) (hissued : w.issued = [])
    (hs : Pool.Reach (exec D) (Honest D req) (starting D w req) s) : Owned s.world s.log := by
  have hinv : Pool.Obeyed (exec D) (fun i => owning (req i)) s ∧ Owned s.world s.log := by
    refine hs.invariant (J := fun s =>
      Pool.Obeyed (exec D) (fun i => owning (req i)) s ∧ Owned s.world s.log)
      (fun t i e c k hok hc ht => ⟨ht.1.step i e, ?_⟩)
      ⟨fun i => request_owning D (req i), owned_start h0 hissued⟩
    rw [Pool.world_step hc, Pool.log_step hc]
    exact ht.2.step (keepsOwners ht.2 (ht.1.call hc) hok hc)
  exact hinv.2

/-- A record that outlives the time of a step and is gone after it was deleted for its owner. -/
theorem deleted_by_owner (h : Owned s.world s.log) (hown : Owning (req i) (s.hist i) c)
    {data : SessionData}
    (hrec : record (s.world.sessions.advance e.redis.elapsed) sid = some data)
    (hgone : record (exec D c e s.world).2.sessions sid = none) :
    ∃ token claims, (i, verified token claims) ∈ s.log ∧ claims ∈ s.world.issued ∧
      claims.subject = data.identityID := by
  have howner : Owns s.log sid data.identityID := h.stored (text_of_record (record_of_advance hrec))
  by_cases hc : ∃ c', c = .auth (.session c')
  · obtain ⟨c, rfl⟩ := hc
    rcases hown with ⟨token, claims, htoken, hs⟩ | ⟨-, hs⟩
    · have hlog := Pool.mem_hist.mp htoken
      refine ⟨token, claims, hlog, h.tokens hlog, ?_⟩
      obtain rfl := hs.exec_record hrec hgone
      obtain ⟨_, ⟨⟩, hsid | ⟨old, hfound, hown⟩⟩ := hs.of_del
      · exact h.unique (hsid ▸ h.issued (h.tokens hlog)) howner
      · exact hown.symm.trans (h.unique (h.found hfound) howner)
    · obtain rfl := hs.exec_record hrec hgone
      obtain ⟨_, ⟨⟩, -⟩ := hs.of_del
  · rcases exec_sessions (D := D) (fun c' hc' => hc ⟨c', hc'⟩) e s.world with hsame | hlater
    · rw [hsame, record_of_advance hrec] at hgone
      cases hgone
    · rw [hlater, hrec] at hgone
      cases hgone

/-- In every interleaving of any requests in which session identifiers are fresh and tokens are
not forged: the record of a session names the subject of its token, a listing has sessions of
its identity only, and a record that has not expired disappears only in a request that has
verified a token of its identity. -/
theorem sessions_owned (D : Deps Attrs) (w : World) (req : ι → Request Attrs)
    (s : Requests ι Attrs) (h0 : ∀ k, w.sessions.entries k = none) (hissued : w.issued = [])
    (hs : Pool.Reach (exec D) (Honest D req) (starting D w req) s) :
    (∀ sid data claims, record s.world.sessions sid = some data → claims ∈ s.world.issued →
      claims.sessionID = sid → data.identityID = claims.subject) ∧
    (∀ i identityID sessions, s.prog i = .ret (.sessions identityID sessions) →
      ∀ data ∈ sessions, data.identityID = identityID) ∧
    ∀ i e sid data, record (s.world.sessions.advance e.redis.elapsed) sid = some data →
      record (s.step (exec D) i e).world.sessions sid = none →
      ∃ token claims, (i, verified token claims) ∈ s.log ∧ claims ∈ s.world.issued ∧
        claims.subject = data.identityID := by
  have howned := owned_reach h0 hissued hs
  have ho : Pool.Obeyed (exec D) (fun i => owning (req i)) s :=
    hs.obeyed fun i => request_owning D (req i)
  refine ⟨?_, fun i identityID sessions hret data hdata => ?_, fun i e sid data hrec hgone => ?_⟩
  · rintro sid data claims hrec hmem rfl
    exact howned.unique (howned.stored (text_of_record hrec)) (howned.issued hmem)
  · have hdone := ho i
    rw [hret] at hdone
    obtain ⟨members, sid, hlisted, hsid, hfound⟩ := hdone identityID sessions rfl data hdata
    exact howned.unique (howned.found hfound) (howned.listed (mem_sessionHist hlisted) sid hsid)
  · rcases Pool.step_cases (exec D) s i with ⟨c, k, hc⟩ | hidle
    · rw [Pool.world_step hc] at hgone
      exact deleted_by_owner howned (ho.call hc) hrec hgone
    · rw [hidle e, record_of_advance hrec] at hgone
      cases hgone

end Run

/-! ### A fixed run -/

def adaSID : String := "0b0b0b0b-0b0b-0b0b-0b0b-0b0b0b0b0b0b"

/-- The claims that the login at time 11 is given. -/
def adaClaims : Claims where
  subject := (UUID.ofNat 2).toText
  expiresAt := 3600
  issuer := "verion"
  tenantID := (UUID.ofNat 1).toText
  handle := "ada"
  type := "human"
  sessionID := adaSID

def oneToken : Deps Bytes :=
  { Auth.bindingDeps with
    verify := fun token now =>
      if token = "ada" ∧ Auth.unix now ≤ adaClaims.expiresAt then some adaClaims else none }

local instance fourRequests : @NeZero Nat Zero.ofOfNat0 4 := ⟨Nat.succ_ne_zero 3⟩

/-- A login, a listing and a logout of the same identity. -/
def oneLogin : Fin 4 → Request Bytes :=
  ![.ceremony (.beginAssertion (UUID.ofNat 1).toText "ada"),
    .ceremony (.loginComplete (UUID.ofNat 1).toText "ada"
      (Service.hexText (List.replicate 16 9)) ⟨[7, 8], "browser", "10.0.0.1"⟩),
    .listSessions "Bearer ada", .logout "Bearer ada"]

def honest (D : Deps Attrs) (req : ι → Request Attrs) (s : Requests ι Attrs) (i : ι) (e : Env) :
    Bool :=
  match s.prog i with
  | .call (.verify token) _ => match D.verify token e.svc.now with
    | some claims => decide (claims ∈ s.world.issued)
    | none => true
  | .call (.auth (.session (.write (.set k _ _)))) _ => match req i with
    | .ceremony _ | .listByIdentity _ => s.log.all fun x => setsAt x.2 != some k
    | _ => true
  | _ => true

theorem honest_sound {D : Deps Attrs} {req : ι → Request Attrs} (s : Requests ι Attrs) (i : ι)
    (e : Env) (h : honest D req s i e = true) : Honest D req s i e := by
  constructor
  · intro k doc ttl next hpublic hc
    simp only [honest, hc] at h
    split at h
    · simpa only [List.all_eq_true, bne_iff_ne] using h
    · simpa only [List.all_eq_true, bne_iff_ne] using h
    · rename_i hne hne'
      cases hreq : req i with
      | ceremony r => exact absurd hreq (hne r)
      | listByIdentity r => exact absurd hreq (hne' r)
      | _ => rw [hreq] at hpublic; exact absurd hpublic not_false
  · intro token next claims hc hverify
    simp only [honest, hc, hverify, decide_eq_true_eq] at h
    exact h

def loginSchedule : List (Fin 4 × Env) :=
  List.replicate 5 (0, Auth.calm 9) ++ List.replicate 15 (1, Auth.calm 11) ++
    List.replicate 6 (2, Auth.calm 12) ++ List.replicate 5 (3, Auth.calm 13)

/-- The next command of the logout deletes the record. -/
theorem login_listed_and_deleted :
    let s := (starting oneToken Auth.passkeyWorld oneLogin).play (exec oneToken) loginSchedule
    (record s.world.sessions adaSID).map SessionData.identityID = some (UUID.ofNat 2).toText ∧
      record (s.step (exec oneToken) 3 (Auth.calm 14)).world.sessions adaSID = none ∧
      (∀ data claims, record s.world.sessions adaSID = some data → claims ∈ s.world.issued →
        claims.sessionID = adaSID → data.identityID = claims.subject) ∧
      ∃ token claims, (3, verified token claims) ∈ s.log ∧ claims ∈ s.world.issued ∧
        claims.subject = (UUID.ofNat 2).toText := by
  intro s
  have hrec : (record s.world.sessions adaSID).map SessionData.identityID =
      some (UUID.ofNat 2).toText := by decide +kernel
  have hgone : record (s.step (exec oneToken) 3 (Auth.calm 14)).world.sessions adaSID = none := by
    decide +kernel
  have hpasses : (starting oneToken Auth.passkeyWorld oneLogin).passes (exec oneToken)
      (honest oneToken oneLogin) loginSchedule = true := by decide +kernel
  obtain ⟨howner, -, hdeleted⟩ := sessions_owned oneToken Auth.passkeyWorld oneLogin s
    (fun _ => rfl) rfl (Pool.reach_of_passes honest_sound hpasses)
  obtain ⟨data, hdata, hid⟩ := Option.map_eq_some_iff.mp hrec
  have hdata' : record (s.world.sessions.advance (Auth.calm 14).redis.elapsed) adaSID =
      some data := by
    obtain ⟨t, hfind⟩ := record_eq_some.mp hdata
    refine record_eq_some.mpr ⟨t, ?_⟩
    simpa [Redis.Server.find, Redis.Server.advance, Auth.calm] using hfind
  obtain ⟨token, claims, hlog, hmem, hsubject⟩ := hdeleted 3 (Auth.calm 14) adaSID data hdata' hgone
  exact ⟨hrec, hgone, fun data claims => howner adaSID data claims,
    token, claims, hlog, hmem, hsubject.trans hid⟩

end Verion.Gateway
