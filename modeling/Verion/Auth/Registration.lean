import Verion.Auth.Runs

/-!
# Registration with the inserts taken for granted

The key that `FinishRegistration` inserts is refused by its table, and so would
its credential be. What the rest of the ceremony does is said under the
assumption that both inserts succeed.
-/

namespace Verion.Auth

open Calls Postgres Service

variable {Attrs α : Type} {D : Deps Attrs}

/-- What the two inserts return and store. -/
structure Inserts where
  key : IdentityKey → Service.Env → Service.World → IdentityKey × Service.World
  credential : Credential → Service.Env → Service.World → Credential × Service.World

/-- The inserts with the columns filled that the ceremony leaves out. -/
def fillingInserts (P : Primitives Attrs) : Inserts where
  key k e v :=
    match Service.exec P (.repo (.keys (.create { k with publicKeyJWK := some [] }))) e v with
    | (.ok created, v') => (created, v')
    | (.error _, v') => (k, v')
  credential cred e v :=
    match Service.exec P (.repo (.credentials (.create { cred with dataIV := some [] }))) e v with
    | (.ok created, v') => (created, v')
    | (.error _, v') => (cred, v')

/-- The calls, with the two inserts answered by `ins`. -/
def inserting (D : Deps Attrs) (ins : Inserts) : (c : Op Attrs) → Env → World → c.Reply × World
  | .svc (.repo (.keys (.create k))), e, w =>
    let r := ins.key k e.svc w.svc
    (.ok r.1, { w with svc := r.2 })
  | .svc (.repo (.credentials (.create cred))), e, w =>
    let r := ins.credential cred e.svc w.svc
    (.ok r.1, { w with svc := r.2 })
  | c, e, w => exec D c e w

/-- The two inserts. -/
inductive Inserted : Op Attrs → Prop where
  | key (k : IdentityKey) : Inserted (.svc (.repo (.keys (.create k))))
  | credential (cred : Credential) : Inserted (.svc (.repo (.credentials (.create cred))))

theorem inserting_eq {ins : Inserts} {c : Op Attrs} (h : ¬ Inserted c) (e : Env) (w : World) :
    inserting D ins c e w = exec D c e w := by
  unfold inserting
  split
  · exact absurd (.key _) h
  · exact absurd (.credential _) h
  · rfl

theorem not_inserted_of_looks {c : Op Attrs} (h : Looks c) : ¬ Inserted c := by
  intro hc
  cases hc with
  | key k =>
    cases h with
    | outer ho => exact ho
    | read hr => cases hr
  | credential cred =>
    cases h with
    | outer ho => exact ho
    | read hr => cases hr

/-- The identity of the result is the one of the request, as it was spelled there. -/
theorem finishRegistration_identityID {ex : (c : Op Attrs) → Env → World → c.Reply × World}
    {w : World} (tenantID identityID sessionID : String) (body : Bytes) :
    (finishRegistration D.primitives tenantID identityID sessionID body).Ends ex
      (fun r _ => ∀ result, r = .ok result → result.identityID = identityID) w := by
  have hfail : ∀ (e : AuthError) (_ : World) (result : FinishRegistrationResult),
      Except.error e = .ok result → result.identityID = identityID := fun _ _ _ h => nomatch h
  refine Program.ends_bind_any hfail fun ident w => ?_
  refine Program.ends_bind_any hfail fun existingCreds w => ?_
  refine Program.ends_bind_any hfail fun session w => ?_
  refine Program.ends_bind_any hfail fun reply w => ?_
  refine Program.ends_bind_any hfail fun credential w => ?_
  refine Program.ends_bind_any hfail fun createdKey w => ?_
  refine Program.ends_bind_any hfail fun _ w => ?_
  refine Program.ends_bind_any hfail fun createdCred w => ?_
  refine Program.ends_bind_any hfail fun _ w => ?_
  rintro _ ⟨⟩
  rfl

/-! ### Sessions that are opened -/

/-- A `Create` that succeeds has stored the session. -/
theorem create_stored (ttl : Nat) (data : Sessions.SessionData)
    {s : Redis.Server String Sessions.Doc} :
    (Sessions.create ttl data).Ends Redis.exec
      (fun r s' => r = .ok () → s'.text (Sessions.key data.sessionID) = some (some data)) s := by
  have hindex : ∀ {x : Redis.Write String Sessions.Doc} (e : Redis.Choice)
      (s' : Redis.Server String Sessions.Doc),
      x.key = Sessions.indexKey data.identityID →
      (Redis.exec (.write x) e s').2.text (Sessions.key data.sessionID) =
        s'.text (Sessions.key data.sessionID) := by
    intro x e s' hx
    refine Redis.exec_text_other _ e s' fun w hw => ?_
    cases hw
    rw [hx]
    exact Sessions.key_ne_indexKey _ _
  intro e₁ _ e₂ _ e₃ _
  cases hr : e₁.reachable with
  | false =>
    -- the pipeline reports the write that did not reach the server
    simp only [Redis.exec_write, hr, Bool.false_eq_true, if_false]
    split <;> split <;> exact fun h => nomatch h
  | true =>
    have htext : (Redis.exec (.write (.expire (Sessions.indexKey data.identityID) ttl)) e₃
        (Redis.exec (.write (.sAdd (Sessions.indexKey data.identityID) data.sessionID)) e₂
          (Redis.exec (.write (.set (Sessions.key data.sessionID) (some data) ttl)) e₁
            s).2).2).2.text (Sessions.key data.sessionID) = some (some data) := by
      rw [hindex e₃ _ rfl, hindex e₂ _ rfl, Redis.exec_write, if_pos hr]
      exact Redis.Server.text_put_str _ _
    revert htext
    generalize Redis.exec (.write (.expire (Sessions.indexKey data.identityID) ttl)) e₃ _ = x₃
    generalize (Redis.exec (.write (.sAdd (Sessions.indexKey data.identityID) data.sessionID)) e₂
      _).1 = r₂
    generalize
      (Redis.exec (.write (.set (Sessions.key data.sessionID) (some data) ttl)) e₁ s).1 = r₁
    intro htext
    obtain ⟨r₃, s₃⟩ := x₃
    cases r₁ <;> cases r₂ <;> cases r₃ <;> exact fun _ => htext

/-- A session was stored, and the token is signed for its claims. -/
structure Opened (D : Deps Attrs) (w : World) (data : Sessions.SessionData) (claims : Claims)
    (token : String) : Prop where
  stored : w.sessions.text (Sessions.key data.sessionID) = some (some data)
  signed : token = D.tokens.sign claims
  carried : claims.sessionID = data.sessionID
  named : data.sessionID ≠ ""

theorem generateSessionID_ends {ex : (c : Op Attrs) → Env → World → c.Reply × World} {w : World} :
    (generateSessionID : Ceremony Attrs String).Ends ex
      (fun r _ => ∀ sid, r = .ok sid → sid ≠ "") w := by
  intro e _
  cases (ex .random e w).1 with
  | none => exact fun _ h => nomatch h
  | some b =>
    rintro sid ⟨⟩ hempty
    simp [String.intercalate_cons_cons] at hempty

/-- What a session that was opened was opened with. -/
theorem openSession_opened (ttl : Nat) (identityID tenantID handle : String) (r : HttpRequest)
    (claims : Claims) (answer : String → String → HttpResponse) {w : World} :
    (openSession ttl identityID tenantID handle r claims answer).Ends (exec D)
      (fun x w' => ∀ resp, x = .ok resp → resp.status ≠ 500 →
        ∃ data issued token, Opened D w' data issued token ∧ resp = answer token data.sessionID ∧
          data.identityID = identityID ∧ issued.subject = claims.subject) w := by
  refine (Program.ensures_bind _ _ _).mpr (generateSessionID_ends.mono fun x w hx => ?_)
  cases x with
  | error e => exact fun _ h => nomatch h
  | ok sid =>
    have hsid := hx sid rfl
    intro e₁ _ e₂ _
    refine (Program.ensures_attempt_bind _ _ _).mpr ?_
    refine Program.Ends.embed (sessionPart D) (F := fun _ => True) (fun _ _ _ _ => trivial) trivial
      ((create_stored ttl _).mono fun x s hx w' _ hw' => ?_)
    cases x with
    | error e =>
      rintro _ ⟨⟩ hstatus
      exact absurd rfl hstatus
    | ok _ =>
      rintro e₃ _ _ ⟨⟩ _
      have hstored := hx rfl
      rw [← hw'] at hstored
      exact ⟨_, _, _, ⟨hstored, rfl, rfl, hsid⟩, rfl, rfl, rfl⟩

/-- The session of a registration belongs to the identity as the header spells it. -/
theorem registerComplete_opened {w : World} (ins : Inserts)
    (tenantID identityID sessionID : String) (r : HttpRequest) :
    (registerComplete D.primitives D.sessionTTL tenantID identityID sessionID r).Ends
      (inserting D ins) (fun x w' => ∀ credentialID type createdAt token sid,
        x = .ok ⟨201, .registered credentialID type createdAt token sid⟩ →
        ∃ data claims, Opened D w' data claims token ∧ data.sessionID = sid ∧
          data.identityID = identityID ∧ claims.subject = identityID) w := by
  unfold registerComplete
  split
  · exact fun _ _ _ _ _ h => nomatch h
  · refine (Program.ensures_attempt_bind _ _ _).mpr
      ((finishRegistration_identityID tenantID identityID sessionID r.body).mono fun x w hx => ?_)
    cases x with
    | error e =>
      intro credentialID type createdAt token sid h
      exact nomatch congrArg (Except.map HttpResponse.payload) h
    | ok result =>
      refine ((openSession_looks ..).ends_congr (fun c e w hc => ?_)
        (openSession_opened (D := D) _ _ _ _ _ _ _)).mono fun y w' hy => ?_
      · exact inserting_eq (not_inserted_of_looks hc) e w
      · rintro credentialID type createdAt token sid rfl
        obtain ⟨data, issued, token', hopened, hresp, hid, hsub⟩ := hy _ rfl (by simp)
        cases hresp
        exact ⟨data, issued, hopened, rfl, hid.trans (hx result rfl), hsub.trans (hx result rfl)⟩

/-- The session of a login belongs to the identity as its table spells it. -/
theorem loginComplete_opened {w : World} (tenantID handle sessionID : String) (r : HttpRequest) :
    (loginComplete D.primitives D.sessionTTL tenantID handle sessionID r).Ends
      (exec D) (fun x w' => ∀ id tid name token sid,
        x = .ok ⟨200, .authenticated id tid name token sid⟩ →
        ∃ data claims, Opened D w' data claims token ∧ data.sessionID = sid ∧
          data.identityID = id ∧ claims.subject = id ∧ ∃ I : UUID, id = I.toText) w := by
  unfold loginComplete
  split
  · exact fun _ _ _ _ _ h => nomatch h
  · refine (Program.ensures_attempt_bind _ _ _).mpr
      ((finishAssertion_returns tenantID handle sessionID r.body).mono fun x w hx => ?_)
    cases x with
    | error e =>
      intro id tid name token sid h
      cases e <;> exact nomatch congrArg (Except.map HttpResponse.payload) h
    | ok ident =>
      obtain ⟨row, attrs, rfl, -⟩ := hx ident rfl
      refine (openSession_opened (D := D) _ _ _ _ _ _ _).mono fun y w' hy => ?_
      rintro id tid name token sid rfl
      obtain ⟨data, issued, token', hopened, hresp, hid, hsub⟩ := hy _ rfl (by simp)
      cases hresp
      exact ⟨data, issued, hopened, rfl, hid, hsub, row.id, rfl⟩

/-! ### Concrete surroundings -/

/-- Registers passkeys of one model that may be backed up. -/
def syncedLibrary : Library :=
  { plainLibrary with
    finishRegistration := fun _ _ body _ => .ok
      { id := some (body.take 1), publicKey := some [1], aaguid := List.replicate 16 1,
        backupEligible := true } }

def syncedDeps : Deps Bytes := { plainDeps with library := syncedLibrary }

end Verion.Auth
