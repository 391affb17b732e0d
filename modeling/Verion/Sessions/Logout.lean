import Verion.Library.CheckThenAct
import Verion.Sessions.Store
import Mathlib.Data.Fin.VecNotation

/-!
# Deleted sessions under interleaved commands

`SessionStore.Get` reads the record with `GET` and refreshes it with an
unconditional `SET`. A `DEL` that falls between the two is undone by the `SET`,
and the deleted session works again for another time to live.
-/

namespace Verion.Sessions

open Calls Redis

abbrev Ev := Event (@Command.Reply String Doc)

abbrev Requests (ι : Type) :=
  Pool ι (Server String Doc) (@Command.Reply String Doc) StoreError (List SessionData)

def starting {ι : Type} (ttl : Nat) (w : Server String Doc) (req : ι → Request) : Requests ι :=
  Pool.start w fun i => (req i).program ttl

variable {ι : Type} [DecidableEq ι]

/-- A `GET` that found session `sid`. -/
def Found (sid : String) : Ev → Prop
  | ⟨.get k, .ok (some (some _))⟩ => k = key sid
  | _ => False

def Refreshes (sid : String) : Command String Doc → Prop
  | .write (.set k _ _) => k = key sid
  | _ => False

def Deletes (sid : String) : Command String Doc → Prop
  | .write (.del k) => k = key sid
  | _ => False

/-- The commands on sets are not sent to the key of a session. -/
def Proper (sid : String) : Command String Doc → Prop
  | .write (.sAdd k _) => k ≠ key sid
  | .write (.sRem k _) => k ≠ key sid
  | .write (.expire k _) => k ≠ key sid
  | _ => True

/-- Request `j` has found session `sid` and may still write it back. -/
def AboutToRefresh (sid : String) (s : Requests ι) (j : ι) : Prop :=
  s.Window Redis.exec (Found sid) (Refreshes sid) j

/-- When the key of the session is deleted, no other request that has found the session
is about to write it back. -/
def DeletesAlone (sid : String) (s : Requests ι) (i : ι) (_ : Choice) : Prop :=
  ∀ k, s.prog i = .call (.write (.del (key sid))) k → ∀ j, j ≠ i → ¬ AboutToRefresh sid s j

/-! ### Every request keeps to the protocol -/

abbrev refreshProtocol (sid : String) (α : Type) :
    Protocol (@Command.Reply String Doc) StoreError α :=
  guarded (Found sid) (fun ev => Deletes sid ev.op) (Refreshes sid) (Proper sid) α

section Obeys

variable {sid : String} {α β : Type}

def Harmless (sid : String) (c : Command String Doc) : Prop := ¬ Refreshes sid c ∧ Proper sid c

theorem harmless_index (identityID member : String) :
    Harmless sid (.write (.sRem (indexKey identityID) member)) :=
  ⟨not_false, (key_ne_indexKey sid identityID).symm⟩

theorem only_pipeline {p : Command String Doc → Prop} {ws : List (Write String Doc)}
    (hws : ∀ w ∈ ws, p (.write w)) :
    (pipeline ws : Program (@Command.Reply String Doc) StoreError (Option Failure)).Only p := by
  induction ws with
  | nil => trivial
  | cons w ws ih =>
    have hw := hws w (List.mem_cons_self ..)
    have hrest := ih fun w' hw' => hws w' (List.mem_cons_of_mem _ hw')
    exact ⟨hw, fun r => hrest.bind fun _ => trivial⟩

theorem only_exec {p : Command String Doc → Prop} {ws : List (Write String Doc)} {context : String}
    (hws : ∀ w ∈ ws, p (.write w)) : (exec ws context).Only p := by
  refine (only_pipeline hws).bind fun err => ?_
  cases err <;> trivial

theorem only_load {p : Command String Doc → Prop} {sid' c c' : String}
    (hget : p (.get (key sid'))) :
    (load sid' c c').Only p := by
  refine ⟨hget, fun r => ?_⟩
  match r with
  | .error e => trivial
  | .ok none => trivial
  | .ok (some none) => trivial
  | .ok (some (some data)) => trivial

theorem only_delete (sid' : String) : (delete sid').Only (Harmless sid) := by
  refine (only_load ⟨not_false, trivial⟩).bind fun data => only_exec fun w hw => ?_
  rcases List.mem_cons.mp hw with rfl | hw
  · exact ⟨not_false, trivial⟩
  · rw [List.mem_singleton.mp hw]
    exact harmless_index _ _

theorem only_deleteAll (identityID : String) : (deleteAll identityID).Only (Harmless sid) := by
  refine ⟨⟨not_false, trivial⟩, fun r => ?_⟩
  match r with
  | .error e => trivial
  | .ok [] => trivial
  | .ok (x :: xs) =>
    refine only_exec fun w hw => ?_
    rcases List.mem_append.mp hw with hw | hw
    · obtain ⟨sid', -, rfl⟩ := List.mem_map.mp hw
      exact ⟨not_false, trivial⟩
    · rw [List.mem_singleton.mp hw]
      exact ⟨not_false, trivial⟩

theorem only_listFrom (identityID : String) (sids : List String) :
    (listFrom identityID sids).Only (Harmless sid) := by
  induction sids with
  | nil => trivial
  | cons sid' sids ih =>
    refine ⟨⟨not_false, trivial⟩, fun r => ?_⟩
    match r with
    | .error e => trivial
    | .ok none => exact ⟨harmless_index _ _, fun _ => ih⟩
    | .ok (some none) => exact ih
    | .ok (some (some data)) => exact ih.bind fun _ => trivial

theorem only_listByIdentity (identityID : String) :
    (listByIdentity identityID).Only (Harmless sid) := by
  refine ⟨⟨not_false, trivial⟩, fun r => ?_⟩
  cases r with
  | error e => trivial
  | ok sids => exact only_listFrom identityID sids

/-- A session id that is not `sid` is created without touching the key of `sid`. -/
theorem only_create {ttl : Nat} {data : SessionData} (hne : data.sessionID ≠ sid) :
    (create ttl data).Only (Harmless sid) := by
  refine only_exec fun w hw => ?_
  have hkey : key data.sessionID ≠ key sid := fun h => hne (key_injective h)
  have hindex := (key_ne_indexKey sid data.identityID).symm
  simp only [List.mem_cons, List.not_mem_nil, or_false] at hw
  rcases hw with rfl | rfl | rfl
  · exact ⟨hkey, trivial⟩
  · exact ⟨not_false, hindex⟩
  · exact ⟨not_false, hindex⟩

/-- `Get` writes back what it has found, before anything is deleted. -/
theorem obeys_get {ttl : Nat} (sid' : String) {D : List Ev → Except StoreError SessionData → Prop}
    {h : List Ev} (hh : ∀ ev ∈ h, ¬ Deletes sid ev.op)
    (hD : ∀ h' r, (∀ ev ∈ h', ¬ Deletes sid ev.op) → D h' r) :
    (get ttl sid').Obeys Redis.exec ⟨(refreshProtocol sid SessionData).call, D⟩ h := by
  refine ⟨⟨fun hbad => absurd hbad not_false, trivial⟩, fun r _ => ?_⟩
  have hget : ∀ ev ∈ (⟨.get (key sid'), r⟩ :: h : List Ev), ¬ Deletes sid ev.op :=
    List.forall_mem_cons.mpr ⟨not_false, hh⟩
  match r with
  | .error e => exact hD _ _ hget
  | .ok none => exact hD _ _ hget
  | .ok (some none) => exact hD _ _ hget
  | .ok (some (some data)) =>
    refine ⟨⟨fun hbad => absurd hbad not_false, trivial⟩, fun now _ => ?_⟩
    have hnow : ∀ ev ∈ (⟨.now, now⟩ :: ⟨.get (key sid'), .ok (some (some data))⟩ :: h : List Ev),
        ¬ Deletes sid ev.op := List.forall_mem_cons.mpr ⟨not_false, hget⟩
    refine ⟨⟨fun hbad => ⟨⟨⟨.get (key sid'), .ok (some (some data))⟩, by simp, hbad⟩, hnow⟩,
      trivial⟩, fun r _ => ?_⟩
    exact hD _ _ (List.forall_mem_cons.mpr ⟨not_false, hnow⟩)

theorem obeys_harmless {q : Store α} (hq : q.Only (Harmless sid)) (h : List Ev) :
    q.Obeys Redis.exec (refreshProtocol sid α) h :=
  hq.obeys_guarded h

theorem obeys_respond {f : α → List SessionData} {q : Store α} {h : List Ev}
    (hq : q.Obeys Redis.exec (refreshProtocol sid α) h) :
    (respond f q).Obeys Redis.exec (refreshProtocol sid _) h := by
  refine (Program.obeys_bind _ _ _).mpr (hq.mono ?_ ?_)
  · exact fun _ _ hcall => hcall
  · intro h x _
    cases x <;> trivial

theorem obeys_requireAuth_bind {ttl : Nat} (claims : TokenSession) {f : Unit → Store α}
    {h : List Ev} (hh : ∀ ev ∈ h, ¬ Deletes sid ev.op)
    (hf : ∀ h', (∀ ev ∈ h', ¬ Deletes sid ev.op) →
      (f ()).Obeys Redis.exec (refreshProtocol sid α) h') :
    (requireAuth ttl claims >>= f).Obeys Redis.exec (refreshProtocol sid α) h := by
  unfold requireAuth
  split
  · exact hf h hh
  · rw [Program.obeys_bind, Program.obeys_attempt_bind]
    refine obeys_get _ hh fun h' r hh' => ?_
    cases r with
    | ok data => exact hf h' hh'
    | error e => trivial

/-- Every request keeps to the protocol, as long as none creates `sid` anew. -/
theorem obeys_refresh (ttl : Nat) (req : Request)
    (hreq : ∀ data, req = .create data → data.sessionID ≠ sid) :
    (req.program ttl).Obeys Redis.exec (refreshProtocol sid _) [] := by
  have hnil : ∀ ev ∈ ([] : List Ev), ¬ Deletes sid ev.op := fun _ hev => absurd hev List.not_mem_nil
  cases req with
  | create data => exact obeys_respond (obeys_harmless (only_create (hreq data rfl)) [])
  | get sessionID => exact obeys_respond (obeys_get _ hnil fun _ _ _ => trivial)
  | delete sessionID => exact obeys_respond (obeys_harmless (only_delete _) [])
  | deleteAll identityID => exact obeys_respond (obeys_harmless (only_deleteAll _) [])
  | listByIdentity identityID => exact obeys_respond (obeys_harmless (only_listByIdentity _) [])
  | requireAuth claims => exact obeys_requireAuth_bind claims hnil fun _ _ => trivial
  | logout claims =>
    refine obeys_respond (obeys_requireAuth_bind claims hnil fun h' _ => ?_)
    refine obeys_harmless ((only_delete _).attempt.bind fun r => ?_) h'
    trivial
  | listSessions claims =>
    refine obeys_respond (obeys_requireAuth_bind claims hnil fun h' _ => ?_)
    refine obeys_harmless ((only_listByIdentity _).attempt.bind fun r => ?_) h'
    cases r <;> trivial
  | revokeSession claims sessionID =>
    refine obeys_respond (obeys_requireAuth_bind claims hnil fun h' hh' => ?_)
    split
    · trivial
    · refine (Program.obeys_attempt_bind _ _ _).mpr (obeys_get _ hh' fun h'' r _ => ?_)
      cases r with
      | error e => trivial
      | ok session =>
        dsimp only
        split
        · trivial
        · refine obeys_harmless ((only_delete _).attempt.bind fun r => ?_) h''
          cases r <;> trivial

end Obeys

/-! ### What a successful deletion has done -/

def Deleted (sid : String) (h : List Ev) : Prop :=
  (⟨.write (.del (key sid)), .ok ()⟩ : Ev) ∈ h

/-- `Delete` and `DeleteAll` succeed only when their `DEL`s have. -/
def deletionProtocol (req : Request) :
    Protocol (@Command.Reply String Doc) StoreError (List SessionData) where
  call _ _ := True
  done h x := ∀ a, x = .ok a →
    (∀ sid, req = .delete sid → Deleted sid h) ∧
    ∀ identityID members sid, req = .deleteAll identityID →
      (⟨.sMembers (indexKey identityID), .ok members⟩ : Ev) ∈ h → sid ∈ members → Deleted sid h

theorem obeys_exec {D : List Ev → Except StoreError Unit → Prop} {ws : List (Write String Doc)}
    {context : String} {h : List Ev} (hfail : ∀ h e, D h (.error e))
    (hok : ∀ h', Grown h h' → (∀ w ∈ ws, (⟨.write w, .ok ()⟩ : Ev) ∈ h') → D h' (.ok ())) :
    (exec ws context).Obeys Redis.exec ⟨fun _ _ => True, D⟩ h := by
  refine (Program.obeys_bind _ _ _).mpr
    (obeys_pipeline (fun _ _ => trivial) ws _ h fun h' err hg hall => ?_)
  cases err with
  | none => exact hok h' hg (hall rfl)
  | some e => exact hfail h' _

theorem obeys_deletion (ttl : Nat) (req : Request) :
    (req.program ttl).Obeys Redis.exec (deletionProtocol req) [] := by
  have other : (∀ sid, req ≠ .delete sid) → (∀ identityID, req ≠ .deleteAll identityID) →
      (req.program ttl).Obeys Redis.exec (deletionProtocol req) [] := fun hd ha =>
    Program.obeys_of_always (fun _ _ => trivial)
      (fun _ _ _ _ => ⟨fun sid h => absurd h (hd sid), fun id _ _ h => absurd h (ha id)⟩) _ _
  cases req with
  | delete sid =>
    have failed : ∀ h e, (deletionProtocol (.delete sid)).done h (.error e) :=
      fun _ _ _ hok => nomatch hok
    refine (Program.obeys_bind _ _ _).mpr ⟨trivial, fun r _ => ?_⟩
    match r with
    | .error e => exact failed _ _
    | .ok none => exact failed _ _
    | .ok (some none) => exact failed _ _
    | .ok (some (some data)) =>
      refine obeys_exec failed fun h' _ hall _ _ => ⟨?_, fun _ _ _ h => (nomatch h)⟩
      rintro _ ⟨⟩
      exact hall _ (List.mem_cons_self ..)
  | deleteAll identityID =>
    have failed : ∀ h e, (deletionProtocol (.deleteAll identityID)).done h (.error e) :=
      fun _ _ _ hok => nomatch hok
    -- the reply to `SMEMBERS` is the only one in the history
    have snapshot : ∀ {h : List Ev} {r : Except Failure (List String)} {members : List String},
        Grown [⟨.sMembers (indexKey identityID), r⟩] h →
        (⟨.sMembers (indexKey identityID), .ok members⟩ : Ev) ∈ h → r = .ok members := by
      intro h r members hg hmem
      rcases hg.writes _ hmem with hold | ⟨w, hw⟩
      · cases List.mem_singleton.mp hold
        rfl
      · cases hw
    refine (Program.obeys_bind _ _ _).mpr ⟨trivial, fun r _ => ?_⟩
    match r with
    | .error e => exact failed _ _
    | .ok [] =>
      rintro _ _
      refine ⟨fun _ h => (nomatch h), ?_⟩
      rintro _ members sid ⟨⟩ hmem hsid
      cases snapshot ⟨fun _ h => h, fun _ h => .inl h⟩ hmem
      cases hsid
    | .ok (x :: xs) =>
      refine obeys_exec failed fun h' hg hall _ _ => ⟨fun _ h => (nomatch h), ?_⟩
      rintro _ members sid ⟨⟩ hmem hsid
      cases snapshot hg hmem
      exact hall _ (List.mem_append_left _ (List.mem_map.mpr ⟨sid, hsid, rfl⟩))
  | create | get | listByIdentity | requireAuth | logout | listSessions | revokeSession =>
    exact other (fun _ h => nomatch h) (fun _ h => nomatch h)

/-! ### Logout is final -/

section Final

variable {sid : String}

/-- Some request has deleted the key of the session. -/
def Killed (sid : String) (s : Requests ι) : Prop := ∃ i, Deleted sid (s.hist i)

def Absent (sid : String) (s : Requests ι) : Prop := s.world.find (key sid) = none

theorem absent_kept {c : Command String Doc} {w : Server String Doc} (h : w.find (key sid) = none)
    (hwf : Proper sid c) (hbad : ¬ Refreshes sid c) (e : Choice) :
    (Redis.exec c e w).2.find (key sid) = none := by
  have hgone := Server.find_advance_none (d := e.elapsed) h
  by_cases hdel : Deletes sid c
  · match c, hdel with
    | .write (.del _), rfl =>
      rw [exec_write]
      split
      · exact Server.find_put_self none
      · exact hgone
  · refine (exec_find_other c e w fun x hx => ?_).trans hgone
    subst hx
    cases x with
    | set k doc ttl => exact fun hk => hbad hk.symm
    | del k => exact fun hk => hdel hk.symm
    | sAdd k member => exact fun hk => hwf hk.symm
    | sRem k member => exact fun hk => hwf hk.symm
    | expire k ttl => exact fun hk => hwf hk.symm

theorem not_found_of_absent {c : Command String Doc} {w : Server String Doc}
    (h : w.find (key sid) = none)
    (e : Choice) : ¬ Found sid ⟨c, (Redis.exec c e w).1⟩ := by
  match c with
  | .sMembers k => exact not_false
  | .write x => exact not_false
  | .now => exact not_false
  | .get k =>
    intro hfound
    by_cases hk : k = key sid
    · subst hk
      rcases exec_get_absent h e with hr | hr <;> rw [hr] at hfound <;> exact hfound
    · generalize (Redis.exec (.get k) e w).1 = r at hfound
      match r, hfound with
      | .ok (some (some _)), hfound => exact hk hfound

/-- The step that makes the session deleted is its `DEL`. -/
theorem del_of_killed {s : Requests ι} {i : ι} {e : Choice} {c : Command String Doc}
    {k : c.Reply → Store (List SessionData)} (hold : ¬ Killed sid s) (hc : s.prog i = .call c k)
    (hnew : Killed sid (s.step Redis.exec i e)) :
    (⟨c, (Redis.exec c e s.world).1⟩ : Ev) = ⟨.write (.del (key sid)), .ok ()⟩ := by
  obtain ⟨j, hj⟩ := hnew
  by_cases hij : j = i
  · subst hij
    rw [Deleted, Pool.hist_step_self hc] at hj
    rcases List.mem_cons.mp hj with heq | hmem
    · exact heq.symm
    · exact absurd ⟨j, hmem⟩ hold
  · rw [Deleted, Pool.hist_step_other hij] at hj
    exact absurd ⟨j, hj⟩ hold

theorem checkThenAct_session :
    CheckThenAct (ι := ι) Redis.exec (DeletesAlone sid) (Killed sid) (Absent sid) (Found sid)
      (fun ev => Deletes sid ev.op) (Refreshes sid) (Proper sid) where
  blind s i e c k hd _ := not_found_of_absent hd e
  kept s i e c k hd hc hwf hbad := by
    rw [Absent, Pool.world_step hc]
    exact absent_kept hd hwf hbad e
  starts := by
    intro s i e c k hold hc _ hnew
    have hev := del_of_killed hold hc hnew
    obtain rfl : c = .write (.del (key sid)) := congrArg Event.op hev
    refine ⟨?_, rfl⟩
    rw [Absent, Pool.world_step hc]
    exact exec_del_ok (eq_of_heq (Event.mk.inj hev).2)
  alone := by
    intro s i e c k hok hold hc _ hnew
    obtain rfl : c = .write (.del (key sid)) := congrArg Event.op (del_of_killed hold hc hnew)
    exact hok k hc

/-- The session has been deleted: by a `Delete` that returned, by a `DeleteAll` that
returned and had the session in its snapshot of the index, or by the `DEL` of any
other request. -/
inductive LoggedOut (req : ι → Request) (sid : String) (s : Requests ι) : Prop where
  | delete (i : ι) (sessions : List SessionData) (hreq : req i = .delete sid)
      (hret : s.prog i = .ret sessions)
  | deleteAll (i : ι) (identityID : String) (members : List String) (sessions : List SessionData)
      (hreq : req i = .deleteAll identityID)
      (hsnap : (⟨.sMembers (indexKey identityID), .ok members⟩ : Ev) ∈ s.hist i)
      (hsid : sid ∈ members) (hret : s.prog i = .ret sessions)
  | command (i : ι) (hdel : Deleted sid (s.hist i))

theorem LoggedOut.killed {req : ι → Request} {s : Requests ι} (h : LoggedOut req sid s)
    (ho : Pool.Obeyed Redis.exec (fun i => deletionProtocol (req i)) s) : Killed sid s := by
  cases h with
  | command i hdel => exact ⟨i, hdel⟩
  | delete i sessions hreq hret =>
    have hi := ho i
    rw [hret] at hi
    exact ⟨i, (hi sessions rfl).1 sid hreq⟩
  | deleteAll i identityID members sessions hreq hsnap hsid hret =>
    have hi := ho i
    rw [hret] at hi
    exact ⟨i, (hi sessions rfl).2 identityID members sid hreq hsnap hsid⟩

/-- Request `j` has not begun, or its `GET` found no session and it failed with `gone`,
or its `GET` did not reach the server and it failed with `lost`. -/
def Rejected (sid : String) (gone lost : StoreError) (t : Requests ι) (j : ι) : Prop :=
  t.hist j = [] ∨
    (t.hist j = [⟨.get (key sid), .ok none⟩] ∧ t.prog j = .fail gone) ∨
    (t.hist j = [⟨.get (key sid), .error .unreachable⟩] ∧ t.prog j = .fail lost)

/-- A program that starts with a `GET` of the session and gives up without it. -/
def NeedsSession (sid : String) (gone lost : StoreError) (p : Store (List SessionData)) : Prop :=
  ∃ k, p = .call (.get (key sid)) k ∧ k (.ok none) = .fail gone ∧
    k (.error .unreachable) = .fail lost

theorem Rejected.step {gone lost : StoreError} {s : Requests ι} {j : ι}
    (h : Rejected sid gone lost s j)
    (habs : Absent sid s) (hstart : s.hist j = [] → NeedsSession sid gone lost (s.prog j)) (i : ι)
    (e : Choice) : Rejected sid gone lost (s.step Redis.exec i e) j := by
  unfold Rejected at h ⊢
  by_cases hij : j = i
  · subst hij
    rcases h with hnil | h
    · obtain ⟨k, hprog, hgone, hlost⟩ := hstart hnil
      rw [Pool.hist_step_self hprog, Pool.prog_step_self hprog, hnil]
      rcases exec_get_absent habs e with hr | hr <;> rw [hr]
      · exact .inr (.inl ⟨rfl, hgone⟩)
      · exact .inr (.inr ⟨rfl, hlost⟩)
    · -- a request that has failed takes no more steps
      have hidle : s.step Redis.exec j e = s := by
        rcases h with ⟨-, hp⟩ | ⟨-, hp⟩ <;> simp [Pool.step, hp]
      rw [hidle]
      exact .inr h
  · rw [Pool.hist_step_other hij, Pool.prog_step_other hij]
    exact h

theorem needsSession_get (ttl : Nat) (sid : String) :
    NeedsSession sid .sessionNotFound (.redis "session store: get" .unreachable)
      ((Request.get sid).program ttl) :=
  ⟨_, rfl, rfl, rfl⟩

/-- The token of the requests behind `RequireAuth`. -/
def Request.claims? : Request → Option TokenSession
  | .requireAuth claims => some claims
  | .logout claims => some claims
  | .listSessions claims => some claims
  | .revokeSession claims _ => some claims
  | _ => none

def unauthorized : StoreError := .http 401 "session expired or revoked"

theorem needsSession_claims {ttl : Nat} {req : Request} {claims : TokenSession}
    (hreq : req.claims? = some claims) (hne : claims.sessionID ≠ "") :
    NeedsSession claims.sessionID unauthorized unauthorized (req.program ttl) := by
  have auth : ∀ (f : Unit → Store (List SessionData)),
      NeedsSession claims.sessionID unauthorized unauthorized (requireAuth ttl claims >>= f) := by
    intro f
    rw [requireAuth, if_neg hne]
    exact ⟨_, rfl, rfl, rfl⟩
  cases req with
  | create | get | delete | deleteAll | listByIdentity => cases hreq
  | requireAuth c =>
    cases hreq
    exact auth _
  | logout c =>
    cases hreq
    rw [Request.program, respond, logout, Program.bind_assoc]
    exact auth _
  | listSessions c =>
    cases hreq
    rw [Request.program, respond, listSessions, Program.bind_assoc]
    exact auth _
  | revokeSession c sid =>
    cases hreq
    rw [Request.program, respond, revokeSession, Program.bind_assoc]
    exact auth _

/-- In every run in which the session's key is deleted while no other request that has
found the session is about to write it back, the deleted session stays absent: each
later `Get` reports `ErrSessionNotFound` (or the unreachable server), and each later
request with a token of the session is rejected. -/
theorem logout_final (ttl : Nat) (w : Server String Doc) (req : ι → Request) (s t : Requests ι)
    (sid : String) (hnew : ∀ i data, req i = .create data → data.sessionID ≠ sid)
    (hs : Pool.Reach Redis.exec (DeletesAlone sid) (starting ttl w req) s)
    (hout : LoggedOut req sid s) (ht : Pool.Reach Redis.exec (DeletesAlone sid) s t) :
    t.world.find (key sid) = none ∧
    (∀ j, s.hist j = [] → req j = .get sid →
      Rejected sid .sessionNotFound (.redis "session store: get" .unreachable) t j) ∧
    ∀ j claims, s.hist j = [] → (req j).claims? = some claims → claims.sessionID = sid → sid ≠ "" →
      Rejected sid unauthorized unauthorized t j := by
  have ho : Pool.Obeyed Redis.exec (fun _ => refreshProtocol sid _) (starting ttl w req) :=
    fun i => obeys_refresh ttl (req i) (hnew i)
  have hdel : Pool.Obeyed Redis.exec (fun i => deletionProtocol (req i)) (starting ttl w req) :=
    fun i => obeys_deletion ttl (req i)
  have hsafe : CheckThenAct.Safe Redis.exec (Absent sid) (Found sid) (Refreshes sid) s :=
    checkThenAct_session.safe_of_started ho
      (fun ⟨_, hkilled⟩ => absurd hkilled List.not_mem_nil) hs (hout.killed (hs.obeyed hdel))
  have hlater := fun u (hu : Pool.Reach Redis.exec (DeletesAlone sid) s u) =>
    (checkThenAct_session.permanent (hs.obeyed ho) hsafe hu).1
  have rejected : ∀ {gone lost : StoreError} {j : ι}, s.hist j = [] →
      NeedsSession sid gone lost ((req j).program ttl) → Rejected sid gone lost t j := by
    intro gone lost j hnil hneeds
    induction ht with
    | refl => exact .inl hnil
    | @step u i e hu hok ih =>
      refine ih.step (hlater u hu) (fun hunil => ?_) i e
      rw [(hs.trans hu).prog_of_hist_nil hunil]
      exact hneeds
  refine ⟨hlater t ht, fun j hnil hreq => rejected hnil ?_, fun j claims hnil hreq hsid hne => ?_⟩
  · rw [hreq]
    exact needsSession_get ttl sid
  · subst hsid
    exact rejected hnil (needsSession_claims hreq hne)

end Final

/-! ### The late refresh -/

/-- A server that holds one session, listed in the index of its identity. -/
def oneSession : Server String Doc :=
  ((Server.empty 0).put (key "s") (some ⟨.str (some adaSession), some 100⟩)).put (indexKey "ada")
    (some ⟨.set ["s"], some 100⟩)

def prompt : Choice := ⟨true, 1⟩

theorem deletesAlone_of_unbegun {sid : String} {s : Requests ι} {i : ι} {e : Choice}
    (h : ∀ j, j ≠ i → s.hist j = []) : DeletesAlone sid s i e := by
  rintro k - j hj ⟨⟨ev, hev, -⟩, -⟩
  rw [h j hj] at hev
  cases hev

/-- A `Delete` and, once it has returned, a `Get` of the same session. -/
theorem get_after_delete_rejected :
    let start : Requests Bool := starting 100 oneSession fun later =>
      if later then .get "s" else .delete "s"
    let deleted := start.play Redis.exec [(false, prompt), (false, prompt), (false, prompt)]
    let ended := deleted.step Redis.exec true prompt
    ended.world.find (key "s") = none ∧
      Rejected "s" .sessionNotFound (.redis "session store: get" .unreachable) ended true := by
  intro start deleted ended
  have unbegun : ∀ {u : Requests Bool}, u.hist true = [] → DeletesAlone "s" u false prompt :=
    fun hu => deletesAlone_of_unbegun fun j hj => by cases j <;> [exact absurd rfl hj; exact hu]
  have hs : Pool.Reach Redis.exec (DeletesAlone "s") start deleted :=
    .step (.step (.step (.refl _) (unbegun rfl)) (unbegun rfl)) (unbegun rfl)
  have hout : LoggedOut (fun later => if later then .get "s" else .delete "s") "s" deleted :=
    .delete false [] rfl (Program.returned?_eq_some.mp (by decide +kernel))
  have ht : Pool.Reach Redis.exec (DeletesAlone "s") deleted ended :=
    .step (.refl _) fun _ hk => nomatch hk
  have hfinal := logout_final 100 oneSession _ deleted ended "s" (fun later data h => by
    cases later <;> cases h) hs hout ht
  exact ⟨hfinal.1, hfinal.2.1 true rfl rfl⟩

/-- A `Get` has found the session and not yet written it back; the session is deleted;
the `Get` goes on: the session is there again, and a token of it is accepted. -/
theorem refresh_restores_deleted :
    ∃ s t : Requests (Fin 3),
      Pool.Reach Redis.exec (fun _ _ _ => True) (starting 100 oneSession
        ![.get "s", .delete "s", .requireAuth ⟨"ada", "s"⟩]) s ∧
      Pool.Reach Redis.exec (fun _ _ _ => True) s t ∧
      s.prog 1 = .ret [] ∧ s.hist 2 = [] ∧ (t.world.find (key "s")).isSome ∧ t.prog 2 = .ret [] :=
  ⟨_, _, Pool.reach_play (fun _ _ _ => trivial)
      [(0, prompt), (0, prompt), (1, prompt), (1, prompt), (1, prompt)],
    Pool.reach_play (fun _ _ _ => trivial) [(0, prompt), (2, prompt), (2, prompt), (2, prompt)],
    Program.returned?_eq_some.mp (by decide +kernel), rfl, by decide +kernel,
    Program.returned?_eq_some.mp (by decide +kernel)⟩

end Verion.Sessions
