import Verion.Sessions.Index
import Verion.Sessions.Logout

/-!
# What the session programs may send

Each command on the session keys has a reason in what the same request has seen:
a record is written by its creation, or written back by a request that has read
it; it is deleted by the bearer of its own token, or by one who has read it and
found the own identity in it.
-/

namespace Verion.Sessions

open Calls Redis

/-- A `GET` that found the session. -/
def found (sid : String) (data : SessionData) : Ev := ⟨.get (key sid), .ok (some (some data))⟩

/-- The commands of a request that bears a token, or none, after the events `h`. -/
inductive Sanctioned (claims : Option TokenSession) (h : List Ev) : Command String Doc → Prop where
  | get (k : String) : Sanctioned claims h (.get k)
  | sMembers (k : String) : Sanctioned claims h (.sMembers k)
  | now : Sanctioned claims h .now
  | create (data : SessionData) (ttl : Nat) (hnone : claims = none) :
      Sanctioned claims h (.write (.set (key data.sessionID) (some data) ttl))
  | refresh (sid : String) (old data : SessionData) (ttl : Nat) (hfound : found sid old ∈ h)
      (hsame : data.identityID = old.identityID) :
      Sanctioned claims h (.write (.set (key sid) (some data) ttl))
  | list (data : SessionData) (ttl : Nat) (r : Except Failure Unit)
      (hset : ⟨.write (.set (key data.sessionID) (some data) ttl), r⟩ ∈ h) :
      Sanctioned claims h (.write (.sAdd (indexKey data.identityID) data.sessionID))
  | unlist (identityID member : String) :
      Sanctioned claims h (.write (.sRem (indexKey identityID) member))
  | extend (identityID : String) (ttl : Nat) :
      Sanctioned claims h (.write (.expire (indexKey identityID) ttl))
  | logout (c : TokenSession) (hc : claims = some c) :
      Sanctioned claims h (.write (.del (key c.sessionID)))
  | revoke (c : TokenSession) (sid : String) (data : SessionData) (hc : claims = some c)
      (hfound : found sid data ∈ h) (hown : data.identityID = c.subject) :
      Sanctioned claims h (.write (.del (key sid)))

theorem Sanctioned.mono {claims : Option TokenSession} {h h' : List Ev} {c : Command String Doc}
    (hs : Sanctioned claims h c) (hsub : ∀ ev ∈ h, ev ∈ h') : Sanctioned claims h' c := by
  cases hs with
  | get k => exact .get k
  | sMembers k => exact .sMembers k
  | now => exact .now
  | create data ttl hnone => exact .create data ttl hnone
  | refresh sid old data ttl hfound hsame => exact .refresh sid old data ttl (hsub _ hfound) hsame
  | list data ttl r hset => exact .list data ttl r (hsub _ hset)
  | unlist i m => exact .unlist i m
  | extend i ttl => exact .extend i ttl
  | logout c hc => exact .logout c hc
  | revoke c sid data hc hfound hown => exact .revoke c sid data hc (hsub _ hfound) hown

/-! ### Reasons -/

section Reasons

variable {claims : Option TokenSession} {h : List Ev} {sid identityID : String} {ttl : Nat}
  {data : SessionData}

theorem Sanctioned.of_set (hs : Sanctioned claims h (.write (.set (key sid) (some data) ttl))) :
    claims = none ∨ ∃ old, found sid old ∈ h ∧ data.identityID = old.identityID := by
  generalize hk : key sid = k at hs
  cases hs with
  | create _ _ hnone => exact .inl hnone
  | refresh sid' old _ _ hfound hsame =>
    cases key_injective hk
    exact .inr ⟨old, hfound, hsame⟩

theorem Sanctioned.of_sAdd (hs : Sanctioned claims h (.write (.sAdd (indexKey identityID) sid))) :
    ∃ data ttl r, ⟨.write (.set (key sid) (some data) ttl), r⟩ ∈ h ∧
      data.identityID = identityID := by
  generalize hk : indexKey identityID = k at hs
  cases hs with
  | list data ttl r hset => exact ⟨data, ttl, r, hset, (indexKey_injective hk).symm⟩

theorem Sanctioned.of_del (hs : Sanctioned claims h (.write (.del (key sid)))) :
    ∃ c, claims = some c ∧
      (sid = c.sessionID ∨ ∃ data, found sid data ∈ h ∧ data.identityID = c.subject) := by
  generalize hk : key sid = k at hs
  cases hs with
  | logout c hc => exact ⟨c, hc, .inl (key_injective hk)⟩
  | revoke c sid' data hc hfound hown =>
    cases key_injective hk
    exact ⟨c, hc, .inr ⟨data, hfound, hown⟩⟩

/-- A record disappears only by a `DEL` of its key. -/
theorem Sanctioned.exec_record {c : Command String Doc} (hs : Sanctioned claims h c) {e : Choice}
    {w : Server String Doc} (hrec : record (w.advance e.elapsed) sid = some data)
    (hgone : record (Redis.exec c e w).2 sid = none) : c = .write (.del (key sid)) := by
  have hother : ¬ ∀ w, c = .write w → key sid ≠ w.key := by
    intro hne
    rw [record_congr (exec_find_other c e w hne), hrec] at hgone
    cases hgone
  have hset : ∀ doc ttl, c ≠ .write (.set (key sid) (some doc) ttl) := by
    rintro doc ttl rfl
    rw [exec_write] at hgone
    split at hgone
    · rw [record_eq_some.mpr ⟨_, Server.find_set _ (some doc) ttl⟩] at hgone
      cases hgone
    · rw [hrec] at hgone
      cases hgone
  cases hs with
  | get k => exact absurd (fun _ heq => nomatch heq) hother
  | sMembers k => exact absurd (fun _ heq => nomatch heq) hother
  | now => exact absurd (fun _ heq => nomatch heq) hother
  | create data' ttl _ =>
    refine absurd ?_ hother
    rintro _ ⟨⟩ hk
    exact hset data' ttl (by rw [hk]; rfl)
  | refresh sid' _ data' ttl _ _ =>
    refine absurd ?_ hother
    rintro _ ⟨⟩ hk
    exact hset data' ttl (by rw [hk]; rfl)
  | list => exact absurd (by rintro _ ⟨⟩; exact key_ne_indexKey _ _) hother
  | unlist => exact absurd (by rintro _ ⟨⟩; exact key_ne_indexKey _ _) hother
  | extend => exact absurd (by rintro _ ⟨⟩; exact key_ne_indexKey _ _) hother
  | logout c _ =>
    by_contra hne
    refine hother ?_
    rintro _ ⟨⟩ hk
    exact hne (by rw [hk]; rfl)
  | revoke _ sid' _ _ _ _ =>
    by_contra hne
    refine hother ?_
    rintro _ ⟨⟩ hk
    exact hne (by rw [hk]; rfl)

end Reasons

section Obeys

variable {claims : Option TokenSession} {c : TokenSession} {ttl : Nat} {sid : String} {α : Type}
  {h : List Ev} {Q : List Ev → Except StoreError α → Prop}

theorem only_sanctioned {q : Store α} (hq : q.Only (Sanctioned claims h))
    (hQ : ∀ h' x, (∀ ev ∈ h, ev ∈ h') → Q h' x) :
    q.Obeys Redis.exec ⟨Sanctioned claims, Q⟩ h :=
  hq.obeys_from (fun _ _ hsub hc => hc.mono hsub) hQ

/-- `Get` writes back what it has found. -/
theorem get_sanctioned {Q : List Ev → Except StoreError SessionData → Prop}
    (hQ : ∀ h' x, (∀ ev ∈ h, ev ∈ h') →
      (∀ data, x = .ok data → ∃ old, found sid old ∈ h' ∧ data.identityID = old.identityID) →
      Q h' x) : (get ttl sid).Obeys Redis.exec ⟨Sanctioned claims, Q⟩ h := by
  have hcons : ∀ {ev : Ev} {h₁ : List Ev}, (∀ ev ∈ h, ev ∈ h₁) → ∀ ev' ∈ h, ev' ∈ ev :: h₁ :=
    fun hsub ev' hev => List.mem_cons_of_mem _ (hsub ev' hev)
  have hself : ∀ ev ∈ h, ev ∈ h := fun _ hev => hev
  refine ⟨.get _, fun r _ => ?_⟩
  match r with
  | .error e => exact hQ _ _ (hcons hself) fun _ hx => nomatch hx
  | .ok none => exact hQ _ _ (hcons hself) fun _ hx => nomatch hx
  | .ok (some none) => exact hQ _ _ (hcons hself) fun _ hx => nomatch hx
  | .ok (some (some old)) =>
    refine ⟨.now, fun now _ => ⟨.refresh sid old _ ttl (.tail _ (.head _)) rfl, fun r _ => ?_⟩⟩
    refine hQ _ _ (hcons (hcons (hcons hself))) ?_
    rintro _ ⟨⟩
    exact ⟨old, .tail _ (.tail _ (.head _)), rfl⟩

theorem delete_sanctioned (hdel : Sanctioned claims h (.write (.del (key sid)))) :
    (delete sid).Only (Sanctioned claims h) := by
  refine (only_load (.get _)).bind fun data => only_exec fun w hw => ?_
  rcases List.mem_cons.mp hw with rfl | hw
  · exact hdel
  · rw [List.mem_singleton.mp hw]
    exact .unlist _ _

/-- The sessions were found under members of the index of the identity. -/
def Traced (identityID : String) (h : List Ev) (sessions : List SessionData) : Prop :=
  ∀ data ∈ sessions, ∃ members sid, ⟨.sMembers (indexKey identityID), .ok members⟩ ∈ h ∧
    sid ∈ members ∧ found sid data ∈ h

theorem listFrom_sanctioned (identityID : String) (sids : List String) :
    ∀ (Q : List Ev → Except StoreError (List SessionData) → Prop) (h : List Ev),
      (∀ h' x, (∀ ev ∈ h, ev ∈ h') →
        (∀ ds, x = .ok ds → ∀ d ∈ ds, ∃ sid ∈ sids, found sid d ∈ h') → Q h' x) →
      (listFrom identityID sids).Obeys Redis.exec ⟨Sanctioned claims, Q⟩ h := by
  induction sids with
  | nil =>
    intro Q h hQ
    refine hQ h _ (fun _ hev => hev) ?_
    rintro _ ⟨⟩ d hd
    exact absurd hd List.not_mem_nil
  | cons sid sids ih =>
    intro Q h hQ
    refine ⟨.get _, fun r _ => ?_⟩
    -- what the rest of the loop finds is found under one of all the members
    have hlater : ∀ (h' : List Ev) (x : Except StoreError (List SessionData)),
        (∀ ds, x = .ok ds → ∀ d ∈ ds, ∃ s ∈ sids, found s d ∈ h') →
        ∀ ds, x = .ok ds → ∀ d ∈ ds, ∃ s ∈ sid :: sids, found s d ∈ h' := by
      intro h' x hds ds hx d hd
      obtain ⟨s, hs, hf⟩ := hds ds hx d hd
      exact ⟨s, List.mem_cons_of_mem _ hs, hf⟩
    match r with
    | .error e => exact hQ _ _ (fun _ hev => .tail _ hev) fun _ hx => nomatch hx
    | .ok none =>
      refine ⟨.unlist _ _, fun r _ => ih _ _ fun h' x hsub hds => ?_⟩
      exact hQ h' x (fun ev hev => hsub ev (.tail _ (.tail _ hev))) (hlater h' x hds)
    | .ok (some none) =>
      refine ih _ _ fun h' x hsub hds => ?_
      exact hQ h' x (fun ev hev => hsub ev (.tail _ hev)) (hlater h' x hds)
    | .ok (some (some data)) =>
      refine (Program.obeys_bind _ _ _).mpr (ih _ _ fun h' x hsub hds => ?_)
      have hself : found sid data ∈ h' := hsub _ (.head _)
      have hsub' : ∀ ev ∈ h, ev ∈ h' := fun ev hev => hsub ev (.tail _ hev)
      cases x with
      | error e => exact hQ h' _ hsub' fun _ hx => nomatch hx
      | ok ds =>
        refine hQ h' _ hsub' ?_
        rintro _ ⟨⟩ d hd
        rcases List.mem_cons.mp hd with rfl | hd
        · exact ⟨sid, List.mem_cons_self .., hself⟩
        · exact hlater h' _ hds ds rfl d hd

theorem listByIdentity_sanctioned (identityID : String)
    {Q : List Ev → Except StoreError (List SessionData) → Prop}
    (hQ : ∀ h' x, (∀ ev ∈ h, ev ∈ h') → (∀ ds, x = .ok ds → Traced identityID h' ds) → Q h' x) :
    (listByIdentity identityID).Obeys Redis.exec ⟨Sanctioned claims, Q⟩ h := by
  refine ⟨.sMembers _, fun r _ => ?_⟩
  cases r with
  | error e => exact hQ _ _ (fun _ hev => .tail _ hev) fun _ hx => nomatch hx
  | ok members =>
    refine listFrom_sanctioned identityID members _ _ fun h' x hsub hds => ?_
    refine hQ h' x (fun ev hev => hsub ev (.tail _ hev)) fun ds hx d hd => ?_
    obtain ⟨s, hs, hf⟩ := hds ds hx d hd
    exact ⟨members, s, hsub _ (.head _), hs, hf⟩

theorem requireAuth_sanctioned {Q : List Ev → Except StoreError Unit → Prop}
    (hQ : ∀ h' x, (∀ ev ∈ h, ev ∈ h') → Q h' x) :
    (requireAuth ttl c).Obeys Redis.exec ⟨Sanctioned claims, Q⟩ h := by
  unfold requireAuth
  split
  · exact hQ h _ fun _ hev => hev
  · refine (Program.obeys_attempt_bind _ _ _).mpr (get_sanctioned fun h' x hsub _ => ?_)
    cases x <;> exact hQ h' _ hsub

theorem requireAuth_bind {f : Unit → Store α}
    (hf : ∀ h', (∀ ev ∈ h, ev ∈ h') → (f ()).Obeys Redis.exec ⟨Sanctioned claims, Q⟩ h')
    (herr : ∀ h' e, Q h' (.error e)) :
    (requireAuth ttl c >>= f).Obeys Redis.exec ⟨Sanctioned claims, Q⟩ h := by
  refine (Program.obeys_bind _ _ _).mpr (requireAuth_sanctioned fun h' x hsub => ?_)
  cases x with
  | ok u => exact hf h' hsub
  | error e => exact herr h' e

theorem logout_sanctioned :
    (logout ttl c).Obeys Redis.exec ⟨Sanctioned (some c), fun _ _ => True⟩ h := by
  refine requireAuth_bind (fun h' _ => ?_) fun _ _ => trivial
  exact only_sanctioned ((delete_sanctioned (.logout c rfl)).attempt.bind fun _ => trivial)
    fun _ _ _ => trivial

theorem listSessions_sanctioned :
    (listSessions ttl c).Obeys Redis.exec
      ⟨Sanctioned (some c), fun h x => ∀ ds, x = .ok ds → Traced c.subject h ds⟩ h := by
  refine requireAuth_bind (fun h' _ => ?_) fun _ _ _ hx => nomatch hx
  refine (Program.obeys_attempt_bind _ _ _).mpr
    (listByIdentity_sanctioned c.subject fun h'' x _ htraced => ?_)
  cases x with
  | error e => exact fun _ hx => nomatch hx
  | ok ds =>
    rintro _ ⟨⟩
    exact htraced ds rfl

/-- The session is deleted after its identity was found to be the one of the token. -/
theorem revokeSession_sanctioned :
    (revokeSession ttl c sid).Obeys Redis.exec ⟨Sanctioned (some c), fun _ _ => True⟩ h := by
  refine requireAuth_bind (fun h' _ => ?_) fun _ _ => trivial
  split
  · trivial
  · refine (Program.obeys_attempt_bind _ _ _).mpr (get_sanctioned fun h'' x _ hfound => ?_)
    cases x with
    | error e => trivial
    | ok session =>
      dsimp only
      split
      · trivial
      · rename_i hown
        obtain ⟨old, hold, hsame⟩ := hfound session rfl
        refine only_sanctioned ((delete_sanctioned (.revoke c sid old rfl hold ?_)).attempt.bind
          fun r => by cases r <;> trivial) fun _ _ _ => trivial
        exact hsame.symm.trans (not_not.mp hown)

/-- The record was sent to Redis. -/
def RecordSent (ttl : Nat) (data : SessionData) (h : List Ev) : Prop :=
  ∃ r, ⟨.write (.set (key data.sessionID) (some data) ttl), r⟩ ∈ h

/-- Whatever becomes of the commands, the record was sent. -/
theorem create_sanctioned (data : SessionData) :
    (create ttl data).Obeys Redis.exec ⟨Sanctioned none, fun h _ => RecordSent ttl data h⟩ h := by
  refine ⟨.create data ttl rfl, fun r₁ _ => ⟨.list data ttl r₁ (.head _), fun r₂ _ =>
    ⟨.extend _ ttl, fun r₃ _ => ?_⟩⟩⟩
  have hsent : RecordSent ttl data (⟨.write (.expire (indexKey data.identityID) ttl), r₃⟩ ::
      ⟨.write (.sAdd (indexKey data.identityID) data.sessionID), r₂⟩ ::
      ⟨.write (.set (key data.sessionID) (some data) ttl), r₁⟩ :: h) :=
    ⟨r₁, .tail _ (.tail _ (.head _))⟩
  cases r₁ <;> cases r₂ <;> cases r₃ <;> exact hsent

end Obeys

end Verion.Sessions
