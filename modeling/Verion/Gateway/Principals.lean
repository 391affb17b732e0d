import Verion.Auth.Challenges
import Verion.Auth.Registration
import Verion.Gateway.Routes
import Verion.Sessions.Index

/-!
# The principal of a registration and of a login

A registration opens its session for the identity as the request spells it, a
login for the identity as its row is printed. The store and the handlers compare
identities as texts, so the two sessions belong together just if the spellings
agree.
-/

namespace Verion.Gateway

open Calls Postgres Sessions

open Auth (Claims AuthError World Env Inserts inserting Opened)

variable {Attrs : Type}

/-! ### Calls that take no time -/

section Instant

variable {ttl : Nat} {v v' : Redis.Server String Doc} {sid : String} {data : SessionData}

theorem load_instant (getContext unmarshalContext : String) (h : record v sid = some data) :
    (load sid getContext unmarshalContext).run Redis.exec Redis.instant v = (.ok data, v) := by
  obtain ⟨t, hfind⟩ := record_eq_some.mp h
  have hget : v.get (key sid) = .ok (some (some data)) := by
    simp [Redis.Server.get, hfind]
  rw [load, Program.run_call]
  simp only [Redis.exec, Redis.instant, Redis.Server.advance_zero, if_true, hget]
  rfl

/-- `Get` of a session that is there stamps it and leaves everything else. -/
theorem get_instant (ttl : Nat) (h : record v sid = some data) :
    ∃ seen v', (get ttl sid).run Redis.exec Redis.instant v =
        (.ok { data with lastSeenAt := seen }, v') ∧
      record v' sid = some { data with lastSeenAt := seen } ∧
      (∀ sid', sid' ≠ sid → record v' sid' = record v sid') ∧
      ∀ i, v'.find (indexKey i) = v.find (indexKey i) := by
  have hrun : (get ttl sid).run Redis.exec Redis.instant v = (.ok { data with lastSeenAt := v.now },
      (v.apply (.set (key sid) (some { data with lastSeenAt := v.now }) ttl)).2) := by
    unfold Sessions.get
    rw [Redis.run_instant_bind (load_instant _ _ h)]
    show Program.run Redis.exec (.call .now _) Redis.instant v = _
    rw [Program.run_call]
    simp only [Redis.exec, Redis.instant, Redis.Server.advance_zero]
    show Program.run Redis.exec (.call (.write _) _) _ v = _
    rw [Program.run_call]
    simp only [Redis.exec, Redis.Server.advance_zero, if_true]
    rfl
  refine ⟨v.now, _, hrun, ?_, fun sid' hs => record_put_other hs, fun i => find_index_put_key⟩
  exact record_eq_some.mpr ⟨_, Redis.Server.find_set _ _ _⟩

/-- `Delete` of a session that is there succeeds where the indexes are sets. -/
theorem delete_instant (hsets : ∀ i e, v.find (indexKey i) = some e → ∃ ms t, e = ⟨.set ms, t⟩)
    (h : record v sid = some data) :
    ((delete sid).run Redis.exec Redis.instant v).1 = .ok () := by
  have hrem : ((v.put (key sid) none).sRem (indexKey data.identityID) sid).1 = .ok () := by
    unfold Redis.Server.sRem
    split
    · rfl
    · rfl
    · rename_i hindex
      obtain ⟨ms, t, he⟩ := hsets _ _ (find_index_put_key.symm.trans hindex)
      cases he
  have hsteps : (Redis.pipeline [.del (key sid), .sRem (indexKey data.identityID) sid] :
      Store _).run Redis.exec Redis.instant v =
      (.ok none, ((v.put (key sid) none).sRem (indexKey data.identityID) sid).2) := by
    rw [Redis.run_pipeline_cons rfl, Redis.run_pipeline_cons]
    · simp only [Redis.exec_write, Redis.instant, Redis.Server.advance_zero, Redis.Server.apply,
        if_true]
      rfl
    · simpa [Redis.exec_write, Redis.instant, Redis.Server.advance_zero, Redis.Server.apply]
        using hrem
  rw [delete, Redis.run_instant_bind (load_instant _ _ h), Sessions.exec,
    Redis.run_instant_bind hsteps]
  rfl

theorem requireAuth_instant {claims : TokenSession} (ttl : Nat)
    (h : record v claims.sessionID = some data) :
    ∃ v', (requireAuth ttl claims).run Redis.exec Redis.instant v = (.ok (), v') ∧
      (∀ sid, (record v' sid).map SessionData.identityID =
        (record v sid).map SessionData.identityID) ∧
      ∀ i, v'.find (indexKey i) = v.find (indexKey i) := by
  unfold requireAuth
  split
  · exact ⟨v, rfl, fun _ => rfl, fun _ => rfl⟩
  · obtain ⟨seen, v', hrun, hself, hother, hindex⟩ := get_instant ttl h
    refine ⟨v', ?_, fun sid => ?_, hindex⟩
    · exact Redis.run_instant_attempt hrun
    · by_cases hs : sid = claims.sessionID
      · rw [hs, hself, h]
        rfl
      · rw [hother sid hs]

/-- A token may revoke every session of its subject. -/
theorem revokeSession_instant {claims : TokenSession} {own : SessionData} (ttl : Nat)
    (hsets : ∀ i e, v.find (indexKey i) = some e → ∃ ms t, e = ⟨.set ms, t⟩)
    (hown : record v claims.sessionID = some own) (hsid : sid ≠ "")
    (h : record v sid = some data) (hsub : data.identityID = claims.subject) :
    ((revokeSession ttl claims sid).run Redis.exec Redis.instant v).1 = .ok () := by
  obtain ⟨v₁, hauth, hkept, hindex⟩ := requireAuth_instant ttl hown
  have hthere := hkept sid
  rw [h, Option.map_some, Option.map_eq_some_iff] at hthere
  obtain ⟨data₁, hdata₁, hid⟩ := hthere
  obtain ⟨seen, v₂, hget, hself, -, hindex₂⟩ := get_instant ttl hdata₁
  have hsub₁ : ¬ data₁.identityID ≠ claims.subject := not_not.mpr (hid.trans hsub)
  have hdelete := delete_instant (v := v₂)
    (fun i e he => hsets i e ((hindex i).symm.trans ((hindex₂ i).symm.trans he))) hself
  obtain ⟨v₃, hdeleted⟩ : ∃ v₃, (delete sid).run Redis.exec Redis.instant v₂ = (.ok (), v₃) :=
    ⟨_, Prod.ext hdelete rfl⟩
  unfold revokeSession
  rw [Redis.run_instant_bind hauth, if_neg hsid, Redis.run_instant_attempt hget]
  dsimp only
  rw [if_neg hsub₁, Redis.run_instant_attempt hdeleted]
  rfl

/-! ### Listing -/

theorem listFrom_within (i : String) (sids : List String) :
    (listFrom i sids).Only (Redis.Command.Within fun k => ∃ j, k = indexKey j) := by
  induction sids with
  | nil => trivial
  | cons sid sids ih =>
    refine ⟨(fun _ hx => nomatch hx), fun r => ?_⟩
    rcases r with e | _ | _ | data
    · trivial
    · refine ⟨fun x hx => ?_, fun _ => ih⟩
      cases hx
      exact ⟨i, rfl⟩
    · exact ih
    · exact ih.bind fun _ => trivial

theorem listByIdentity_within (i : String) :
    (listByIdentity i).Only (Redis.Command.Within fun k => ∃ j, k = indexKey j) := by
  refine ⟨(fun _ hx => nomatch hx), fun r => ?_⟩
  cases r with
  | error e => trivial
  | ok sids => exact listFrom_within i sids

/-- Commands that write only indexes keep all sessions. -/
theorem within_instant {α : Type} {p : Store α}
    (hp : p.Only (Redis.Command.Within fun k => ∃ i, k = indexKey i)) :
    ∀ {v : Redis.Server String Doc},
    p.Ensures Redis.exec (Redis.Reached v.now)
      (fun _ s => ∀ sid, record s sid = record v sid) v := by
  induction p with
  | ret a => exact fun _ => rfl
  | fail e => exact fun _ => rfl
  | call c k ih =>
    rintro v e ⟨hr, hT⟩
    have hnow : (Redis.exec c e v).2.now = v.now := by
      rw [Redis.exec_now]
      omega
    have hkept : ∀ sid, record (Redis.exec c e v).2 sid = record v sid := by
      intro sid
      have hzero : e.elapsed = 0 := by omega
      refine record_congr ((Redis.exec_find_other c e v fun x hx => ?_).trans ?_)
      · obtain ⟨i, hi⟩ := (hp.1 x hx).key
        rw [hi]
        exact key_ne_indexKey sid i
      · rw [hzero, Redis.Server.advance_zero]
    have hrest := ih (Redis.exec c e v).1 (hp.2 _) (v := (Redis.exec c e v).2)
    rw [hnow] at hrest
    exact hrest.mono fun _ s hs sid => (hs sid).trans (hkept sid)

theorem listByIdentity_instant {created : String → Option Int} (h : Indexed ttl created v)
    (i : String) :
    ∃ sessions, ((listByIdentity i).run Redis.exec Redis.instant v).1 = .ok sessions ∧
      ∀ sid data, record v sid = some data → data.identityID = i → data ∈ sessions := by
  obtain ⟨-, sessions, hok, hall⟩ :=
    (listByIdentity_steady h.steady i).run Redis.runMeets_instant
  have hkept := (within_instant (listByIdentity_within i)).run (Redis.runMeets_instant (s := v))
  exact ⟨sessions, hok, fun sid data hrec hi => hall sid data ((hkept sid).trans hrec) hi⟩

end Instant

/-! ### The two principals -/

/-- The store has the session, whenever it was last seen. -/
def Held (v : Redis.Server String Doc) (data : SessionData) : Prop :=
  ∃ seen, record v data.sessionID = some { data with lastSeenAt := seen }

/-- Two sessions with their claims stand for one principal: they name the same identity, and
wherever a run of the store has both of them, listing by the subject of either token returns
both and either token may revoke both. -/
def SamePrincipal (ttl : Nat) (a b : SessionData × Claims) : Prop :=
  a.1.identityID = b.1.identityID ∧ a.2.subject = b.2.subject ∧
  ∀ now σ, Run ttl (Timely ttl) (Timeline.empty now) σ → Held σ.server a.1 → Held σ.server b.1 →
    ∀ x ∈ [a, b], (∃ sessions,
        ((listByIdentity x.2.subject).run Redis.exec Redis.instant σ.server).1 = .ok sessions ∧
        ∀ y ∈ [a, b], ∃ seen, { y.1 with lastSeenAt := seen } ∈ sessions) ∧
      ∀ y ∈ [a, b], ((revokeSession ttl (tokenSession x.2) y.1.sessionID).run Redis.exec
        Redis.instant σ.server).1 = .ok ()

/-- Sessions and tokens that all name one identity. -/
theorem samePrincipal_of_eq {D : Auth.Deps Attrs} {ttl : Nat} (httl : 0 < ttl) {I : String}
    {w w' : World} {token token' : String} {a b : SessionData × Claims}
    (ha : Opened D w a.1 a.2 token) (hb : Opened D w' b.1 b.2 token')
    (hsubjects : a.2.subject = I ∧ b.2.subject = I)
    (hids : a.1.identityID = I ∧ b.1.identityID = I) : SamePrincipal ttl a b := by
  refine ⟨hids.1.trans hids.2.symm, hsubjects.1.trans hsubjects.2.symm, ?_⟩
  intro now σ hrun hheld hheld' x hx
  have hindexed := indexed_run httl hrun (indexed_empty now)
  have hx' : x.2.subject = I ∧ x.2.sessionID = x.1.sessionID := by
    rcases List.mem_pair.mp hx with rfl | rfl
    · exact ⟨hsubjects.1, ha.carried⟩
    · exact ⟨hsubjects.2, hb.carried⟩
  have hthere : ∀ y ∈ [a, b], Held σ.server y.1 ∧ y.1.identityID = I ∧ y.1.sessionID ≠ "" := by
    intro y hy
    rcases List.mem_pair.mp hy with rfl | rfl
    · exact ⟨hheld, hids.1, ha.named⟩
    · exact ⟨hheld', hids.2, hb.named⟩
  constructor
  · obtain ⟨sessions, hok, hall⟩ := listByIdentity_instant hindexed x.2.subject
    refine ⟨sessions, hok, fun y hy => ?_⟩
    obtain ⟨⟨seen, hrec⟩, hid, -⟩ := hthere y hy
    exact ⟨seen, hall _ _ hrec (hid.trans hx'.1.symm)⟩
  · intro y hy
    obtain ⟨⟨seen, hrec⟩, hid, hname⟩ := hthere y hy
    obtain ⟨⟨seen', hown⟩, -⟩ := hthere x hx
    rw [← hx'.2] at hown
    refine revokeSession_instant ttl (fun i e he => ?_) hown hname hrec (hid.trans hx'.1.symm)
    obtain ⟨members, c, rfl, -⟩ := hindexed.stamped i e he
    exact ⟨members, _, rfl⟩

/-- A registration under the spelling `u` of an identity and a login of the same identity
stand for one principal just if `u` is the spelling of the table. -/
theorem registration_login_principal (D : Auth.Deps Attrs) (ins : Inserts)
    (httl : 0 < D.sessionTTL) (I : UUID) (u : String)
    (tenantID challengeID tenantID' handle challengeID' : String) (r r' : Auth.HttpRequest)
    (es es' : Nat → Env) (w w₁ w' w₁' : World) (credentialID : String) (type : CredentialType)
    (createdAt : Time) (token sid id tid name token' sid' : String)
    (hregister : (Auth.registerComplete D.primitives D.sessionTTL tenantID u challengeID r).run
        (inserting D ins) es w =
      (.ok ⟨201, .registered credentialID type createdAt token sid⟩, w₁))
    (hlogin : (Auth.loginComplete D.primitives D.sessionTTL tenantID' handle challengeID' r').run
        (Auth.exec D) es' w' = (.ok ⟨200, .authenticated id tid name token' sid'⟩, w₁'))
    (hsame : UUID.ofText? id = some I) :
    ∃ data claims data' claims', Opened D w₁ data claims token ∧ data.sessionID = sid ∧
      Opened D w₁' data' claims' token' ∧ data'.sessionID = sid' ∧
      (SamePrincipal D.sessionTTL (data, claims) (data', claims') ↔ u = I.toText) := by
  have hreg := (Auth.registerComplete_opened (D := D) (w := w) ins tenantID u challengeID r).run es
  have hlog :=
      (Auth.loginComplete_opened (D := D) (w := w') tenantID' handle challengeID' r').run es'
  rw [hregister] at hreg
  rw [hlogin] at hlog
  obtain ⟨data, claims, hopened, hsid, hid, hsub⟩ := hreg _ _ _ _ _ rfl
  obtain ⟨data', claims', hopened', hsid', hid', hsub', J, hJ⟩ := hlog _ _ _ _ _ rfl
  have hcanonical : id = I.toText := by
    rw [hJ, UUID.ofText?_toText] at hsame
    rw [hJ, Option.some.inj hsame]
  refine ⟨data, claims, data', claims', hopened, hsid, hopened', hsid', ?_, ?_⟩
  · rintro ⟨heq, -, -⟩
    rw [← hid, ← hcanonical, ← hid']
    exact heq
  · intro hspelled
    refine samePrincipal_of_eq httl hopened hopened' (I := id) ⟨?_, hsub'⟩ ⟨?_, hid'⟩
    · rw [hsub, hspelled, hcanonical]
    · rw [hid, hspelled, hcanonical]

/-! ### A registration and then a login -/

/-- The passkey of `passkeyWorld` with two ceremonies begun. -/
def ceremoniesBegun : World := Auth.withCeremony (Auth.withCeremony Auth.passkeyWorld "c") "d"

def adaRegisters (u : String) : Except AuthError Auth.HttpResponse × World :=
  (Auth.registerComplete Auth.syncedDeps.primitives Auth.syncedDeps.sessionTTL
    (UUID.ofNat 1).toText u
    "c" ⟨[8], "", ""⟩).run (inserting Auth.syncedDeps (Auth.fillingInserts Service.plainPrimitives))
      (Auth.calmFrom 1) ceremoniesBegun

def adaLogsIn (w : World) : Except AuthError Auth.HttpResponse × World :=
  (Auth.loginComplete Auth.syncedDeps.primitives Auth.syncedDeps.sessionTTL
    (UUID.ofNat 1).toText "ada"
    "d" ⟨[7, 9], "", ""⟩).run (Auth.exec Auth.syncedDeps) (Auth.calmFrom 20) w

/-- What a response says of the session: its status, the identity if it names one, and the
identifier of the session. -/
def opens : Except AuthError Auth.HttpResponse → Option (Nat × Option String × String)
  | .ok ⟨status, .registered _ _ _ _ sid⟩ => some (status, none, sid)
  | .ok ⟨status, .authenticated id _ _ _ sid⟩ => some (status, some id, sid)
  | _ => none

theorem opens_registered {x : Except AuthError Auth.HttpResponse} {status : Nat} {sid : String}
    (h : opens x = some (status, none, sid)) : ∃ credentialID type createdAt token,
      x = .ok ⟨status, .registered credentialID type createdAt token sid⟩ := by
  unfold opens at h
  split at h
  · cases h
    exact ⟨_, _, _, _, rfl⟩
  · cases h
  · cases h

theorem opens_authenticated {x : Except AuthError Auth.HttpResponse} {status : Nat}
    {id sid : String} (h : opens x = some (status, some id, sid)) : ∃ tenantID handle token,
      x = .ok ⟨status, .authenticated id tenantID handle token sid⟩ := by
  unfold opens at h
  split at h
  · cases h
  · cases h
    exact ⟨_, _, _, rfl⟩
  · cases h

/-- Registered as the table spells it and then logged in, an identity has two sessions of one
principal. -/
theorem canonical_registration :
    ∃ data claims data' claims', data.sessionID = "09090909-0909-0909-0909-090909090909" ∧
      data'.sessionID = "1c1c1c1c-1c1c-1c1c-1c1c-1c1c1c1c1c1c" ∧
      SamePrincipal Auth.syncedDeps.sessionTTL (data, claims) (data', claims') := by
  have hopens : opens (adaRegisters (UUID.ofNat 2).toText).1 =
      some (201, none, "09090909-0909-0909-0909-090909090909") := by decide +kernel
  have hopens' : opens (adaLogsIn (adaRegisters (UUID.ofNat 2).toText).2).1 =
      some (200, some (UUID.ofNat 2).toText, "1c1c1c1c-1c1c-1c1c-1c1c-1c1c1c1c1c1c") := by
    decide +kernel
  obtain ⟨credentialID, type, createdAt, token, hregister⟩ := opens_registered hopens
  obtain ⟨tenantID, handle, token', hlogin⟩ := opens_authenticated hopens'
  revert hregister hlogin
  generalize hx : adaRegisters (UUID.ofNat 2).toText = x
  generalize hy : adaLogsIn x.2 = y
  obtain ⟨r, w₁⟩ := x
  obtain ⟨r', w₂⟩ := y
  rintro rfl rfl
  obtain ⟨data, claims, data', claims', -, hsid, -, hsid', hsame⟩ :=
    registration_login_principal Auth.syncedDeps _ (by decide) (UUID.ofNat 2) _ _ _ _ _ _ _ _ _ _ _
      _ _ _ _ _ _ _ _ _ _ _ _ _ hx hy (UUID.ofText?_toText _)
  exact ⟨data, claims, data', claims', hsid, hsid', hsame.mpr rfl⟩

/-- The status that a handler of sessions refuses with. -/
def refusal : Except StoreError Unit → Option Nat
  | .error (.http status _) => some status
  | _ => none

/-- Registered without the hyphens of its identifier and then logged in, an identity has two
sessions of which each is listed under its own spelling only, and the token of the login may
not revoke the session of the registration. -/
theorem unhyphenated_registration :
    let u := "00000000000000000000000000000002"
    let I := UUID.ofNat 2
    let sid := "09090909-0909-0909-0909-090909090909"
    let sid' := "1c1c1c1c-1c1c-1c1c-1c1c-1c1c1c1c1c1c"
    let v := (adaLogsIn (adaRegisters u).2).2.sessions
    UUID.ofText? u = some I ∧
    opens (adaRegisters u).1 = some (201, none, sid) ∧
    opens (adaLogsIn (adaRegisters u).2).1 = some (200, some I.toText, sid') ∧
    (record v sid).map SessionData.identityID = some u ∧
    (record v sid').map SessionData.identityID = some I.toText ∧
    (∀ x ∈ [(u, sid), (I.toText, sid')],
      ((listByIdentity x.1).run Redis.exec Redis.instant v).1.toOption.map
        (fun sessions => sessions.map SessionData.sessionID) = some [x.2]) ∧
    refusal ((revokeSession Auth.syncedDeps.sessionTTL ⟨I.toText, sid'⟩ sid).run Redis.exec
      Redis.instant v).1 = some 403 := by
  decide +kernel

end Verion.Gateway
