import Verion.Auth.Runs
import Mathlib.Data.Fin.VecNotation

/-!
# Challenges under interleaved ceremonies

A challenge leaves Redis with the `GETDEL` of the request that finishes the
ceremony, whatever becomes of that request. Of the library this takes that it
refuses a session whose user is not the one it is called for.
-/

namespace Verion.Auth

open Calls Postgres Service

variable {Attrs ι α : Type}

abbrev AuthEvent (Attrs : Type) := Event (@Op.Reply Attrs)

/-- A `GETDEL` that found the challenge. -/
def fetched (key : String) (doc : Option LibrarySession) : AuthEvent Attrs :=
  ⟨.getDelChallenge key, .ok (some doc)⟩

/-- A `SET` that was carried out. -/
def stored (key : String) (session : LibrarySession) (ttl : Nat) : AuthEvent Attrs :=
  ⟨.setChallenge key session ttl, .ok ()⟩

/-! ### One call -/

abbrev Texts := String → Option (Option LibrarySession)

inductive ChallengeStep : AuthEvent Attrs → Texts → Texts → Prop where
  | quiet (ev : AuthEvent Attrs) (texts : Texts)
      (hset : ∀ key session ttl, ev ≠ stored key session ttl)
      (hget : ∀ key doc, ev ≠ fetched key doc) : ChallengeStep ev texts texts
  | stored (key : String) (session : LibrarySession) (ttl : Nat) (texts : Texts) :
      ChallengeStep (stored key session ttl) texts
        (Function.update texts key (some (some session)))
  | fetched (key : String) (doc : Option LibrarySession) (texts : Texts)
      (h : texts key = some doc) :
      ChallengeStep (fetched key doc) texts (Function.update texts key none)

theorem ChallengeStep.get_quiet {key : String} {texts : Texts}
    {r : Except Redis.Failure (Option (Option LibrarySession))} (h : ∀ doc, r ≠ .ok (some doc)) :
    ChallengeStep (⟨.getDelChallenge key, r⟩ : AuthEvent Attrs) texts texts := by
  refine .quiet _ _ (fun _ _ _ heq => nomatch heq) fun key' doc heq => ?_
  obtain ⟨⟨⟩, hr⟩ := Event.mk.inj heq
  exact h doc (eq_of_heq hr)

theorem ChallengeStep.set_quiet {key : String} {session : LibrarySession} {ttl : Nat}
    {texts : Texts} {r : Except Redis.Failure Unit} (h : r ≠ .ok ()) :
    ChallengeStep (⟨.setChallenge key session ttl, r⟩ : AuthEvent Attrs) texts texts := by
  refine .quiet _ _ (fun key' session' ttl' heq => ?_) fun _ _ heq => nomatch heq
  obtain ⟨⟨⟩, hr⟩ := Event.mk.inj heq
  exact h (eq_of_heq hr)

theorem text_put (s : Redis.Server String (Option LibrarySession)) (key : String)
    (e : Option (Redis.Entry String (Option LibrarySession))) :
    (s.put key e).text = Function.update s.text key ((s.put key e).text key) := by
  funext k
  by_cases h : k = key
  · subst h
    exact (Function.update_self k _ s.text).symm
  · rw [Redis.Server.text_put_other h, Function.update_of_ne h]

theorem getDel_challengeStep (key : String) (s : Redis.Server String (Option LibrarySession)) :
    ChallengeStep (⟨.getDelChallenge key, (s.getDel key).1⟩ : AuthEvent Attrs) s.text
      (s.getDel key).2.text := by
  unfold Redis.Server.getDel
  cases hget : s.get key with
  | error x => exact .get_quiet fun _ hr => nomatch hr
  | ok found =>
    cases found with
    | none => exact .get_quiet fun _ hr => nomatch hr
    | some doc =>
      show ChallengeStep (fetched key doc) s.text (s.put key none).text
      rw [text_put, Redis.Server.text_put_none]
      exact .fetched key doc _ (Redis.Server.text_of_get hget)

theorem exec_challengeStep (D : Deps Attrs) (c : Op Attrs) (e : Env) (w : World) :
    ChallengeStep ⟨c, (exec D c e w).1⟩ w.challenges.text (exec D c e w).2.challenges.text := by
  cases c with
  | setChallenge key session ttl =>
    simp only [exec, Redis.exec_write]
    cases e.redis.reachable with
    | true =>
      show ChallengeStep (stored key session ttl) _ (Redis.Server.put _ key _).text
      rw [text_put, Redis.Server.text_put_str]
      exact .stored ..
    | false => exact .set_quiet (by rintro ⟨⟩)
  | getDelChallenge key =>
    simp only [exec]
    cases e.redis.reachable with
    | true => exact getDel_challengeStep key (w.challenges.advance e.redis.elapsed)
    | false => exact .get_quiet fun _ hr => by cases hr
  | _ => exact .quiet _ _ (by intro _ _ _ h; cases h) (by intro _ _ h; cases h)

/-! ### What a request that finishes a ceremony has done -/

/-- The request ended as a successful `Finish` with the challenge, for the identity `id`. -/
inductive Finished : Request Attrs → Response Attrs → (challengeID id : String) → Prop where
  | registration {tenantID identityID challengeID : String} {body : Bytes}
      {result : FinishRegistrationResult} {I : UUID} (hI : UUID.ofText? identityID = some I) :
      Finished (.finishRegistration tenantID identityID challengeID body) (.registered result)
        challengeID I.toText
  | assertion {tenantID handle challengeID : String} {body : Bytes} {ident : Identity Attrs} :
      Finished (.finishAssertion tenantID handle challengeID body) (.asserted ident) challengeID
        ident.id
  | registerComplete {tenantID identityID challengeID : String} {r : HttpRequest}
      {credentialID token sid : String} {type : CredentialType} {createdAt : Time} {I : UUID}
      (hI : UUID.ofText? identityID = some I) :
      Finished (.registerComplete tenantID identityID challengeID r)
        (.http ⟨201, .registered credentialID type createdAt token sid⟩) challengeID I.toText
  | loginComplete {tenantID handle challengeID : String} {r : HttpRequest}
      {id tenant name token sid : String} :
      Finished (.loginComplete tenantID handle challengeID r)
        (.http ⟨200, .authenticated id tenant name token sid⟩) challengeID id

theorem not_finished_error {req : Request Attrs} {status : Nat} {message challengeID id : String} :
    ¬ Finished req (.http ⟨status, .error message⟩) challengeID id := by
  intro h
  cases h

/-- The challenge was fetched, and it was drawn for the user `id`. -/
def Redeemed (h : List (AuthEvent Attrs)) (challengeID id : String) : Prop :=
  ∃ session, fetched (challengeKey challengeID) (some session) ∈ h ∧
    session.userID = textBytes id

theorem Redeemed.mono {h h' : List (AuthEvent Attrs)} {challengeID id : String}
    (hr : Redeemed h challengeID id) (hsub : ∀ ev ∈ h, ev ∈ h') : Redeemed h' challengeID id := by
  obtain ⟨session, hmem, huser⟩ := hr
  exact ⟨session, hsub _ hmem, huser⟩

/-- The library refuses a session that belongs to another user. -/
structure BindsUser (L : Library) : Prop where
  registration : ∀ user session body now cred,
    L.finishRegistration user session body now = .ok cred → session.userID = user.id
  login : ∀ user session body now cred,
    L.finishLogin user session body now = .ok cred → session.userID = user.id

/-- Nothing is asked of the calls, and of the result only when it is one. -/
def whenOk (Q : List (AuthEvent Attrs) → α → Prop) : Protocol (@Op.Reply Attrs) AuthError α where
  call _ _ := True
  done h x := ∀ a, x = .ok a → Q h a

section Obeys

variable {D : Deps Attrs} {β : Type} {Q : List (AuthEvent Attrs) → α → Prop}
  {h : List (AuthEvent Attrs)}

theorem whenOk_bind {q : Ceremony Attrs β} {f : β → Ceremony Attrs α}
    (hf : ∀ a h', (∀ ev ∈ h, ev ∈ h') → (f a).Obeys (exec D) (whenOk Q) h') :
    (q >>= f).Obeys (exec D) (whenOk Q) h :=
  Program.obeys_bind_any (fun _ _ => trivial) (fun _ _ _ hx => nomatch hx) hf

theorem whenOk_call_bind {c : Op Attrs} {f : c.Reply → Ceremony Attrs α}
    (hf : ∀ r, Possible (exec D) c r → (f r).Obeys (exec D) (whenOk Q) (⟨c, r⟩ :: h)) :
    (.call c .ret >>= f : Ceremony Attrs α).Obeys (exec D) (whenOk Q) h :=
  ⟨trivial, hf⟩

theorem whenOk_all {q : Ceremony Attrs α} (hQ : ∀ h a, Q h a) : q.Obeys (exec D) (whenOk Q) h :=
  Program.obeys_of_always (fun _ _ => trivial) (fun h _ a _ => hQ h a) q h

theorem whenOk_getIdentity_bind {tenantID id context : String}
    {f : Identity Attrs → Ceremony Attrs α}
    (hf : ∀ ident I h', UUID.ofText? id = some I → ident.id = I.toText → (∀ ev ∈ h, ev ∈ h') →
      (f ident).Obeys (exec D) (whenOk Q) h') :
    (service (getIdentity D.primitives tenantID id) context >>= f).Obeys (exec D) (whenOk Q) h := by
  refine ⟨trivial, fun r hr => ?_⟩
  cases r with
  | error e => exact fun _ hx => nomatch hx
  | ok ident =>
    obtain ⟨e, w, hreply⟩ := hr
    obtain ⟨T, I, row, -, hI, hget, -, rfl⟩ := getByID_ok (P := D.primitives) hreply
    show ((service (Service.orFail _ (decryptAttributes D.primitives (scanIdentity row))) context)
      >>= f).Obeys _ _ _
    cases hdec : decryptAttributes D.primitives (scanIdentity row) with
    | error e => exact fun _ hx => nomatch hx
    | ok decrypted =>
      obtain ⟨attrs, rfl⟩ := decryptAttributes_eq hdec
      refine hf _ I _ hI ?_ fun ev hev => List.mem_cons_of_mem _ hev
      exact congrArg UUID.toText (Table.key_of_get? hget)

theorem whenOk_getChallenge_bind {challengeID getContext unmarshalContext : String}
    {f : LibrarySession → Ceremony Attrs α}
    (hf : ∀ session, (f session).Obeys (exec D) (whenOk Q)
      (fetched (challengeKey challengeID) (some session) :: h)) :
    (getChallenge challengeID getContext unmarshalContext >>= f).Obeys (exec D) (whenOk Q) h := by
  refine ⟨trivial, fun r _ => ?_⟩
  cases r with
  | error e => exact fun _ hx => nomatch hx
  | ok found =>
    cases found with
    | none => exact fun _ hx => nomatch hx
    | some doc =>
      cases doc with
      | none => exact fun _ hx => nomatch hx
      | some session => exact hf session

/-- After the challenge is redeemed nothing undoes it. -/
theorem redeemed_stays {q : Ceremony Attrs α} {challengeID id : String}
    (hr : Redeemed h challengeID id) (hQ : ∀ h a, Redeemed h challengeID id → Q h a) :
    q.Obeys (exec D) (whenOk Q) h := by
  induction q generalizing h with
  | ret a => exact fun b _ => hQ h b hr
  | fail e => exact fun _ hx => nomatch hx
  | call c k ih =>
    exact ⟨trivial, fun r _ => ih r (hr.mono fun ev hev => List.mem_cons_of_mem _ hev)⟩

theorem finishRegistration_redeems (hlib : BindsUser D.library)
    (tenantID identityID challengeID : String) (body : Bytes) :
    (finishRegistration D.primitives tenantID identityID challengeID body).Obeys (exec D)
      (whenOk fun h _ => ∀ I, UUID.ofText? identityID = some I →
        Redeemed h challengeID I.toText) h := by
  refine whenOk_getIdentity_bind fun ident I h hI hid _ => ?_
  refine whenOk_bind fun existingCreds h _ => ?_
  refine whenOk_getChallenge_bind fun session => ?_
  refine whenOk_call_bind fun reply hreply => ?_
  cases reply with
  | error text => exact fun _ hx => nomatch hx
  | ok credential =>
    obtain ⟨e, w, hok⟩ := hreply
    have huser : session.userID = textBytes ident.id := hlib.registration _ _ _ _ _ hok
    have hredeemed : Redeemed
        (⟨.finishRegistration (newVerionUser ident existingCreds) session body, .ok credential⟩ ::
          fetched (challengeKey challengeID) (some session) :: h) challengeID I.toText :=
      ⟨session, .tail _ (.head _), huser.trans (congrArg textBytes hid)⟩
    refine redeemed_stays hredeemed fun h _ hredeemed I' hI' => ?_
    obtain rfl : I = I' := Option.some.inj (hI.symm.trans hI')
    exact hredeemed

theorem finishAssertion_redeems (hlib : BindsUser D.library)
    (tenantID handle challengeID : String) (body : Bytes) :
    (finishAssertion D.primitives tenantID handle challengeID body).Obeys (exec D)
      (whenOk fun h ident => Redeemed h challengeID ident.id) h := by
  refine whenOk_bind fun ident h _ => ?_
  refine whenOk_bind fun _ h _ => ?_
  refine whenOk_bind fun passkeyCreds h _ => ?_
  refine whenOk_getChallenge_bind fun session => ?_
  refine whenOk_call_bind fun reply hreply => ?_
  cases reply with
  | error text => exact whenOk_bind fun _ _ _ => fun _ hx => nomatch hx
  | ok credential =>
    obtain ⟨e, w, hok⟩ := hreply
    have hredeemed : Redeemed
        (⟨.finishLogin (newVerionUserWithCreds ident passkeyCreds) session body, .ok credential⟩ ::
          fetched (challengeKey challengeID) (some session) :: h) challengeID ident.id :=
      ⟨session, .tail _ (.head _), hlib.login _ _ _ _ _ hok⟩
    refine whenOk_bind fun _ h hsub => ?_
    refine whenOk_bind fun _ h hsub' => ?_
    rintro _ ⟨⟩
    exact (hredeemed.mono hsub).mono hsub'

/-- The answer of a handler that opens a session. -/
theorem openSession_redeems {challengeID id : String} (hr : Redeemed h challengeID id) (ttl : Nat)
    (identityID tenantID handle : String) (r : HttpRequest) (claims : Claims)
    (answer : String → String → HttpResponse) :
    (openSession ttl identityID tenantID handle r claims answer).Obeys (exec D)
      (whenOk fun h resp => Redeemed h challengeID id ∧
        (resp = writeError 500 "session creation failed" ∨ ∃ token sid, resp = answer token sid))
      h := by
  refine whenOk_bind fun authSessionID h h1 => ?_
  refine whenOk_bind fun createdAt h h2 => ?_
  refine whenOk_bind fun lastSeenAt h h3 => ?_
  refine whenOk_bind fun created h h4 => ?_
  have hkept := (((hr.mono h1).mono h2).mono h3).mono h4
  cases created with
  | error e =>
    rintro _ ⟨⟩
    exact ⟨hkept, .inl rfl⟩
  | ok _ =>
    refine whenOk_bind fun token h h5 => ?_
    rintro _ ⟨⟩
    exact ⟨hkept.mono h5, .inr ⟨token, authSessionID, rfl⟩⟩

/-- What a request may end with after these events. -/
def Redeems (req : Request Attrs) (h : List (AuthEvent Attrs)) (resp : Response Attrs) : Prop :=
  ∀ challengeID id, Finished req resp challengeID id → Redeemed h challengeID id

theorem whenOk_respond {f : α → Response Attrs} {q : Ceremony Attrs α} {req : Request Attrs}
    (hq : q.Obeys (exec D) (whenOk fun h a => Redeems req h (f a)) h) :
    (respond f q).Obeys (exec D) (whenOk (Redeems req)) h := by
  refine obeys_respond (hq.mono (fun _ _ _ => trivial) fun h x hx resp hresp => ?_)
  cases x with
  | error e => cases hresp
  | ok a =>
    cases hresp
    exact hx a rfl

theorem registerComplete_redeems (hlib : BindsUser D.library) (ttl : Nat)
    (tenantID identityID challengeID : String) (r : HttpRequest) :
    (registerComplete D.primitives ttl tenantID identityID challengeID r).Obeys (exec D)
      (whenOk fun h resp =>
        Redeems (.registerComplete tenantID identityID challengeID r : Request Attrs)
        h (.http resp)) h := by
  unfold registerComplete
  split
  · rintro _ ⟨⟩ _ _ hfin
    exact absurd hfin not_finished_error
  · refine (Program.obeys_attempt_bind _ _ _).mpr
      ((finishRegistration_redeems hlib ..).mono (fun _ _ _ => trivial) fun h x hx => ?_)
    cases x with
    | error e =>
      rintro _ ⟨⟩ _ _ hfin
      exact absurd hfin not_finished_error
    | ok result =>
      cases hI : UUID.ofText? identityID with
      | none =>
        refine whenOk_all fun _ _ _ _ hfin => ?_
        cases hfin with
        | registerComplete hI' => exact nomatch hI.symm.trans hI'
      | some I =>
        refine redeemed_stays (hx result rfl I hI) fun h _ hr _ _ hfin => ?_
        cases hfin with
        | registerComplete hI' =>
          cases hI.symm.trans hI'
          exact hr

theorem loginComplete_redeems (hlib : BindsUser D.library) (ttl : Nat)
    (tenantID handle challengeID : String) (r : HttpRequest) :
    (loginComplete D.primitives ttl tenantID handle challengeID r).Obeys (exec D)
      (whenOk fun h resp => Redeems (.loginComplete tenantID handle challengeID r : Request Attrs)
        h (.http resp)) h := by
  unfold loginComplete
  split
  · rintro _ ⟨⟩ _ _ hfin
    exact absurd hfin not_finished_error
  · refine (Program.obeys_attempt_bind _ _ _).mpr
      ((finishAssertion_redeems hlib ..).mono (fun _ _ _ => trivial) fun h x hx => ?_)
    cases x with
    | error e =>
      rintro _ ⟨⟩ _ _ hfin
      cases e <;> exact absurd hfin not_finished_error
    | ok ident =>
      refine (openSession_redeems (hx ident rfl) ..).mono (fun _ _ _ => trivial) fun h x hout => ?_
      rintro resp rfl cid id hfin
      obtain ⟨hr, rfl | ⟨token, sid, rfl⟩⟩ := hout resp rfl
      · exact absurd hfin not_finished_error
      · cases hfin
        exact hr

theorem request_redeems (hlib : BindsUser D.library) (req : Request Attrs) :
    (req.program D).Obeys (exec D) (whenOk (Redeems req)) [] := by
  cases req with
  | finishRegistration tenantID identityID challengeID body =>
    refine whenOk_respond ((finishRegistration_redeems hlib ..).mono (fun _ _ _ => trivial) ?_)
    rintro h x hx result rfl _ _ ⟨hI⟩
    exact hx result rfl _ hI
  | finishAssertion tenantID handle challengeID body =>
    refine whenOk_respond ((finishAssertion_redeems hlib ..).mono (fun _ _ _ => trivial) ?_)
    rintro h x hx ident rfl _ _ ⟨⟩
    exact hx ident rfl
  | registerComplete tenantID identityID challengeID r =>
    exact whenOk_respond (registerComplete_redeems hlib ..)
  | loginComplete tenantID handle challengeID r =>
    exact whenOk_respond (loginComplete_redeems hlib ..)
  | _ => exact whenOk_respond (whenOk_all fun _ _ _ _ hfin => nomatch hfin)

end Obeys

/-! ### Whole runs -/

/-- The key at which an event stores a challenge. -/
def storesAt : AuthEvent Attrs → Option String
  | ⟨.setChallenge key _ _, _⟩ => some key
  | _ => none

/-- A challenge is stored at a key that was not used before: its identifier is fresh. -/
def FreshChallenge (w : World) (s : Requests ι Attrs) (i : ι) (_ : Env) : Prop :=
  ∀ key session ttl k, s.prog i = .call (.setChallenge key session ttl) k →
    w.challenges.text key = none ∧ ∀ x ∈ s.log, storesAt x.2 ≠ some key

/-- The challenge was there at the start, or a request has stored it. -/
def Kept (w : World) (log : List (ι × AuthEvent Attrs)) (key : String)
    (doc : Option LibrarySession) : Prop :=
  w.challenges.text key = some doc ∨
    ∃ j session ttl, doc = some session ∧ (j, stored key session ttl) ∈ log

structure SingleUse (w : World) (texts : Texts) (log : List (ι × AuthEvent Attrs)) : Prop where
  present : ∀ key doc, texts key = some doc → Kept w log key doc
  source : ∀ i key doc, (i, fetched key doc) ∈ log → Kept w log key doc
  gone : ∀ i key doc, (i, fetched key doc) ∈ log → texts key = none
  once : ∀ i j key doc doc', (i, fetched key doc) ∈ log → (j, fetched key doc') ∈ log → i = j
  unique : ∀ key doc doc', Kept w log key doc → Kept w log key doc' → doc = doc'

section Run

variable {D : Deps Attrs} {w : World} {s : Requests ι Attrs} {i : ι} {e : Env}
  {ev : AuthEvent Attrs} {log : List (ι × AuthEvent Attrs)} {key : String}
  {doc : Option LibrarySession}

theorem Kept.cons (h : Kept w log key doc) (x : ι × AuthEvent Attrs) :
    Kept w (x :: log) key doc := by
  rcases h with hold | ⟨j, session, ttl, hdoc, hmem⟩
  · exact .inl hold
  · exact .inr ⟨j, session, ttl, hdoc, List.mem_cons_of_mem _ hmem⟩

theorem Kept.of_cons (h : Kept w ((i, ev) :: log) key doc) :
    Kept w log key doc ∨ ∃ session ttl, doc = some session ∧ ev = stored key session ttl := by
  rcases h with hold | ⟨j, session, ttl, hdoc, hmem⟩
  · exact .inl (.inl hold)
  · rcases List.mem_cons.mp hmem with heq | hmem
    · exact .inr ⟨session, ttl, hdoc, (congrArg Prod.snd heq).symm⟩
    · exact .inl (.inr ⟨j, session, ttl, hdoc, hmem⟩)

theorem Kept.of_nil (h : Kept w ([] : List (ι × AuthEvent Attrs)) key doc) :
    w.challenges.text key = some doc := by
  rcases h with hold | ⟨j, session, ttl, -, hmem⟩
  · exact hold
  · exact absurd hmem List.not_mem_nil

/-- A key that is fresh holds no challenge yet. -/
theorem not_kept_of_fresh (hw : w.challenges.text key = none)
    (hlog : ∀ x ∈ log, storesAt x.2 ≠ some key) : ¬ Kept w log key doc := by
  rintro (hold | ⟨j, session, ttl, -, hmem⟩)
  · exact nomatch hw.symm.trans hold
  · exact hlog _ hmem rfl

theorem SingleUse.step {texts texts' : Texts} (h : SingleUse w texts log)
    (hstep : ChallengeStep ev texts texts')
    (hfresh : ∀ key session ttl, ev = stored key session ttl → ∀ doc, ¬ Kept w log key doc) :
    SingleUse w texts' ((i, ev) :: log) := by
  have hunique : ∀ key doc doc', Kept w ((i, ev) :: log) key doc →
      Kept w ((i, ev) :: log) key doc' → doc = doc' := by
    intro key doc doc' hdoc hdoc'
    rcases hdoc.of_cons with hold | ⟨session, ttl, rfl, rfl⟩ <;>
      rcases hdoc'.of_cons with hold' | ⟨session', ttl', rfl, heq⟩
    · exact h.unique key doc doc' hold hold'
    · exact absurd hold (hfresh key session' ttl' heq doc)
    · exact absurd hold' (hfresh key session ttl rfl doc')
    · cases heq
      rfl
  cases hstep with
  | quiet _ _ hset hget =>
    have hmem : ∀ j key doc, (j, fetched key doc) ∈ (i, ev) :: log →
        (j, fetched key doc) ∈ log := by
      intro j key doc hmem
      rcases List.mem_cons.mp hmem with heq | hmem
      · exact absurd (congrArg Prod.snd heq).symm (hget key doc)
      · exact hmem
    exact {
      present := fun key doc htext => (h.present key doc htext).cons _
      source := fun j key doc hf => (h.source j key doc (hmem j key doc hf)).cons _
      gone := fun j key doc hf => h.gone j key doc (hmem j key doc hf)
      once := fun a b key doc doc' ha hb => h.once a b key doc doc' (hmem _ _ _ ha) (hmem _ _ _ hb)
      unique := hunique }
  | stored key session ttl =>
    have hmem : ∀ j key' doc, (j, fetched key' doc) ∈ (i, stored key session ttl) :: log →
        (j, fetched key' doc) ∈ log := by
      intro j key' doc hmem
      rcases List.mem_cons.mp hmem with heq | hmem
      · cases heq
      · exact hmem
    refine ⟨fun key' doc htext => ?_, fun j key' doc hf => ?_, fun j key' doc hf => ?_,
      fun a b key' doc doc' ha hb => ?_, hunique⟩
    · by_cases hk : key' = key
      · subst hk
        rw [Function.update_self] at htext
        cases htext
        exact .inr ⟨i, session, ttl, rfl, List.mem_cons_self ..⟩
      · rw [Function.update_of_ne hk] at htext
        exact (h.present key' doc htext).cons _
    · exact (h.source j key' doc (hmem j key' doc hf)).cons _
    · -- what was fetched once was kept before, and the key of the new challenge is fresh
      have hk : key' ≠ key := by
        rintro rfl
        exact hfresh key' session ttl rfl doc (h.source j key' doc (hmem j key' doc hf))
      rw [Function.update_of_ne hk]
      exact h.gone j key' doc (hmem j key' doc hf)
    · exact h.once a b key' doc doc' (hmem _ _ _ ha) (hmem _ _ _ hb)
  | fetched key doc _ htext =>
    have hmem : ∀ j key' doc', (j, fetched key' doc') ∈ (i, fetched key doc) :: log →
        (j = i ∧ key' = key ∧ doc' = doc) ∨ (j, fetched key' doc') ∈ log := by
      intro j key' doc' hmem
      rcases List.mem_cons.mp hmem with heq | hmem
      · cases heq
        exact .inl ⟨rfl, rfl, rfl⟩
      · exact .inr hmem
    -- a challenge that is still there was not fetched before
    have hfirst : ∀ j doc', (j, fetched key doc') ∉ log := by
      intro j doc' hold
      exact nomatch (h.gone j key doc' hold).symm.trans htext
    refine ⟨fun key' doc' htext' => ?_, fun j key' doc' hf => ?_, fun j key' doc' hf => ?_,
      fun a b key' doc' doc'' ha hb => ?_, hunique⟩
    · by_cases hk : key' = key
      · subst hk
        rw [Function.update_self] at htext'
        cases htext'
      · rw [Function.update_of_ne hk] at htext'
        exact (h.present key' doc' htext').cons _
    · rcases hmem j key' doc' hf with ⟨rfl, rfl, rfl⟩ | hold
      · exact (h.present _ _ htext).cons _
      · exact (h.source j key' doc' hold).cons _
    · by_cases hk : key' = key
      · subst hk
        exact Function.update_self ..
      · rcases hmem j key' doc' hf with ⟨-, rfl, -⟩ | hold
        · exact absurd rfl hk
        · rw [Function.update_of_ne hk]
          exact h.gone j key' doc' hold
    · rcases hmem a key' doc' ha with ⟨rfl, rfl, rfl⟩ | hold
      · rcases hmem b _ doc'' hb with ⟨rfl, -, -⟩ | hold'
        · rfl
        · exact absurd hold' (hfirst b doc'')
      · rcases hmem b key' doc'' hb with ⟨rfl, rfl, rfl⟩ | hold'
        · exact absurd hold (hfirst a doc')
        · exact h.once a b key' doc' doc'' hold hold'

end Run

section Pool

variable [DecidableEq ι] {D : Deps Attrs} {w : World} {req : ι → Request Attrs}
  {s : Requests ι Attrs}

theorem singleUse_reach (hs : Pool.Reach (exec D) (FreshChallenge w) (starting D w req) s) :
    SingleUse w s.world.challenges.text s.log := by
  refine hs.invariant (J := fun s => SingleUse w s.world.challenges.text s.log)
    (fun t i e c k hfresh hc ht => ?_) ?_
  · rw [Pool.world_step hc, Pool.log_step hc]
    refine ht.step (exec_challengeStep D c e t.world) fun key session ttl heq doc => ?_
    obtain rfl : c = .setChallenge key session ttl := congrArg Event.op heq
    obtain ⟨hw, hlog⟩ := hfresh key session ttl k hc
    exact not_kept_of_fresh hw hlog
  · exact {
      present := fun _ _ htext => .inl htext
      source := fun _ _ _ hmem => nomatch hmem
      gone := fun _ _ _ hmem => nomatch hmem
      once := fun _ _ _ _ _ hmem => nomatch hmem
      unique := by
        intro key doc doc' hdoc hdoc'
        exact Option.some.inj (hdoc.of_nil.symm.trans hdoc'.of_nil) }

/-- Request `i` has ended as a successful `Finish` with the challenge, for the identity `id`. -/
def Finishes (req : ι → Request Attrs) (s : Requests ι Attrs) (i : ι) (challengeID id : String) :
    Prop :=
  ∃ resp, s.prog i = .ret resp ∧ Finished (req i) resp challengeID id

/-- In every interleaving of any requests whose challenge identifiers are fresh, a challenge
is redeemed by one successful `Finish` at most, and this is for the user that the one session
kept under the identifier names. -/
theorem challenge_single_use (D : Deps Attrs) (w : World) (req : ι → Request Attrs)
    (s : Requests ι Attrs) (hlib : BindsUser D.library)
    (hs : Pool.Reach (exec D) (FreshChallenge w) (starting D w req) s) :
    (∀ i j challengeID id id', Finishes req s i challengeID id → Finishes req s j challengeID id' →
      i = j) ∧
    ∀ i challengeID id, Finishes req s i challengeID id →
      ∃ session, Kept w s.log (challengeKey challengeID) (some session) ∧
        session.userID = textBytes id ∧
        ∀ doc, Kept w s.log (challengeKey challengeID) doc → doc = some session := by
  have huse := singleUse_reach hs
  have ho : Pool.Obeyed (exec D) (fun i => whenOk (Redeems (req i))) s :=
    hs.obeyed fun i => request_redeems hlib (req i)
  have hredeemed : ∀ i challengeID id, Finishes req s i challengeID id →
      ∃ session, (i, fetched (challengeKey challengeID) (some session)) ∈ s.log ∧
        session.userID = textBytes id := by
    rintro i challengeID id ⟨resp, hret, hfin⟩
    have hi := ho i
    rw [hret] at hi
    obtain ⟨session, hmem, huser⟩ := hi resp rfl challengeID id hfin
    exact ⟨session, Pool.mem_hist.mp hmem, huser⟩
  refine ⟨fun i j challengeID id id' hi hj => ?_, fun i challengeID id hi => ?_⟩
  · obtain ⟨session, hmem, -⟩ := hredeemed i challengeID id hi
    obtain ⟨session', hmem', -⟩ := hredeemed j challengeID id' hj
    exact huse.once i j _ _ _ hmem hmem'
  · obtain ⟨session, hmem, huser⟩ := hredeemed i challengeID id hi
    have hkept := huse.source i _ _ hmem
    exact ⟨session, hkept, huser, fun doc hdoc => huse.unique _ _ _ hdoc hkept⟩

end Pool

/-! ### A fixed run -/

/-- The session names the user, and a response for another user is refused. -/
def bindingLibrary : Library :=
  { plainLibrary with
    beginRegistration user challenge := .ok ([], ⟨hexText challenge, user.id, []⟩)
    beginLogin user challenge := .ok ([], ⟨hexText challenge, user.id, []⟩)
    finishRegistration user session body now :=
      if session.userID = user.id then plainLibrary.finishRegistration user session body now
      else .error "user mismatch"
    finishLogin user session body now :=
      if session.userID = user.id then plainLibrary.finishLogin user session body now
      else .error "user mismatch" }

theorem bindingLibrary_binds : BindsUser bindingLibrary where
  registration user session body now cred h := by
    by_contra hne
    simp [bindingLibrary, hne] at h
  login user session body now cred h := by
    by_contra hne
    simp [bindingLibrary, hne] at h

def bindingDeps : Deps Bytes := { plainDeps with library := bindingLibrary }

/-- A passkey of the identity of `smallWorld`. -/
def adaPasskey : CredentialRow where
  id := .ofNat 5
  identityID := .ofNat 2
  tenantID := .ofNat 1
  keyID := none
  type := .passkey
  status := .active
  data := [1]
  dataIV := [0]
  aaguid := none
  credentialID := some [7]
  signCount := 5
  name := none
  deviceInfo := none
  lastUsedAt := none
  createdAt := 0
  expiresAt := none

def passkeyWorld : World :=
  { World.empty with svc :=
    { smallWorld with db :=
      { smallWorld.db with credentials := ⟨[adaPasskey], List.nodup_singleton _⟩ } } }

/-- A ceremony of the identity of `smallWorld` has begun. -/
def withCeremony (w : World) (challengeID : String) : World :=
  let session : LibrarySession := ⟨"", textBytes (UUID.ofNat 2).toText, []⟩
  { w with
    challenges := w.challenges.put (challengeKey challengeID) (some ⟨.str (some session), none⟩) }

def freshChallenge (w : World) (s : Requests ι Attrs) (i : ι) (_ : Env) : Bool :=
  match s.prog i with
  | .call (.setChallenge key _ _) _ =>
    (w.challenges.text key).isNone && s.log.all fun x => storesAt x.2 != some key
  | _ => true

theorem freshChallenge_sound {w : World} (s : Requests ι Attrs) (i : ι) (e : Env)
    (h : freshChallenge w s i e = true) : FreshChallenge w s i e := by
  intro key session ttl k hc
  simp only [freshChallenge, hc, Bool.and_eq_true, Option.isNone_iff_eq_none, List.all_eq_true,
    bne_iff_ne] at h
  exact h

/-- The identity that an assertion has returned. -/
def assertedID : Ceremony Attrs (Response Attrs) → Option String
  | .ret (.asserted ident) => some ident.id
  | _ => none

theorem assertedID_eq_some {p : Ceremony Attrs (Response Attrs)} {id : String}
    (h : assertedID p = some id) : ∃ ident, p = .ret (.asserted ident) ∧ ident.id = id := by
  unfold assertedID at h
  split at h
  · exact ⟨_, rfl, Option.some.inj h⟩
  · cases h

/-- One request begins an assertion, two others try to finish it. -/
def replayed : Fin 3 → Request Bytes :=
  ![.beginAssertion (UUID.ofNat 1).toText "ada",
    .finishAssertion (UUID.ofNat 1).toText "ada" (hexText (List.replicate 16 9)) [7, 6],
    .finishAssertion (UUID.ofNat 1).toText "ada" (hexText (List.replicate 16 9)) [7, 8]]

def replaySchedule : List (Fin 3 × Env) :=
  List.replicate 5 (0, calm 9) ++ List.replicate 2 (1, calm 10) ++ List.replicate 8 (2, calm 11) ++
    List.replicate 6 (1, calm 12)

theorem replayed_single_use :
    let s := (starting bindingDeps passkeyWorld replayed).play (exec bindingDeps) replaySchedule
    let challengeID := hexText (List.replicate 16 9)
    Finishes replayed s 2 challengeID (UUID.ofNat 2).toText ∧
      (∀ i id, Finishes replayed s i challengeID id → i = 2) ∧
      ∃ session, Kept passkeyWorld s.log (challengeKey challengeID) (some session) ∧
        session.userID = textBytes (UUID.ofNat 2).toText := by
  intro s challengeID
  have hfin : Finishes replayed s 2 challengeID (UUID.ofNat 2).toText := by
    obtain ⟨ident, hret, hid⟩ := assertedID_eq_some
      (show assertedID (s.prog 2) = some (UUID.ofNat 2).toText by decide +kernel)
    exact ⟨_, hret, hid ▸ .assertion⟩
  have hpasses : (starting bindingDeps passkeyWorld replayed).passes (exec bindingDeps)
      (freshChallenge passkeyWorld) replaySchedule = true := by decide +kernel
  have hreach : Pool.Reach (exec bindingDeps) (FreshChallenge passkeyWorld)
      (starting bindingDeps passkeyWorld replayed) s :=
    Pool.reach_of_passes freshChallenge_sound hpasses
  obtain ⟨honce, hbound⟩ := challenge_single_use bindingDeps passkeyWorld replayed s
    bindingLibrary_binds hreach
  obtain ⟨session, hkept, huser, -⟩ := hbound 2 challengeID _ hfin
  exact ⟨hfin, fun i id hi => honce i 2 challengeID id _ hi hfin, session, hkept, huser⟩

end Verion.Auth
