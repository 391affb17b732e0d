import Verion.Library.RedisCoding
import Verion.Sessions.Expiry
import Verion.Sessions.Logout

/-!
# The store of documents refines the store of sessions

The gateway is modelled over a store that keeps sessions as values. The store of
`session.go` keeps bytes. As long as strings are UTF-8 and times can be written, the two
make the same calls and give the same answers, in every interleaving of their requests:
what holds of every run of the one holds of the runs of the other.
-/

namespace Verion.Sessions.Documents

open Calls Program Redis

open Base64 (ascii)

/-! ### Strings and sessions in bytes -/

def utf8 (s : String) : Bytes := Utf8.encode s.toList

theorem utf8_injective : Function.Injective utf8 := by
  intro s t h
  have hrunes := congrArg Utf8.runes h
  rw [utf8, utf8, Utf8.runes_encode, Utf8.runes_encode] at hrunes
  exact String.toList_injective hrunes

theorem utf8_append (s t : String) : utf8 (s ++ t) = utf8 s ++ utf8 t := by
  rw [utf8, String.toList_append, Utf8.encode_append]
  rfl

theorem ascii_eq_utf8 {s : String} (h : s.toList.all (fun c => c.toNat < 0x80) = true) :
    ascii s = utf8 s := by
  unfold ascii utf8 Utf8.encode
  generalize s.toList = cs at h ⊢
  induction cs with
  | nil => rfl
  | cons c cs ih =>
    obtain ⟨hc, hcs⟩ := Bool.and_eq_true_iff.mp h
    rw [List.map_cons, List.flatMap_cons, ih hcs, Utf8.encodeRune, if_pos (of_decide_eq_true hc)]
    rfl

theorem key_utf8 (sid : String) : key (utf8 sid) = utf8 (Sessions.key sid) := by
  have hfamily : ascii "session:" = utf8 "session:" := ascii_eq_utf8 (by decide +kernel)
  exact (congrArg (· ++ utf8 sid) hfamily).trans (utf8_append _ sid).symm

theorem indexKey_utf8 (identityID : String) :
    indexKey (utf8 identityID) = utf8 (Sessions.indexKey identityID) := by
  have hfamily : ascii "sessions:identity:" = utf8 "sessions:identity:" :=
    ascii_eq_utf8 (by decide +kernel)
  exact (congrArg (· ++ utf8 identityID) hfamily).trans (utf8_append _ identityID).symm

def raw (data : Sessions.SessionData) : SessionData where
  sessionID := utf8 data.sessionID
  identityID := utf8 data.identityID
  tenantID := utf8 data.tenantID
  handle := utf8 data.handle
  createdAt := data.createdAt
  lastSeenAt := data.lastSeenAt
  deviceInfo := utf8 data.deviceInfo
  ipAddress := utf8 data.ipAddress

theorem readable_raw (data : Sessions.SessionData) : (raw data).readable = raw data := by
  simp only [SessionData.readable, raw, utf8, readable_encode]

/-! ### What corresponds -/

/-- The text of a session, or a text that is none. A session that is stored was written, so
that the time of its creation can be written again. -/
def Document (T : TimeText) (b : Bytes) (doc : Doc) : Prop :=
  unmarshal T b = doc.map raw ∧ ∀ data, doc = some data → (T.write data.createdAt).isSome = true

def coding (T : TimeText) : Coding Bytes Bytes String Doc where
  code := utf8
  code_injective := utf8_injective
  Doc := Document T

/-- The clock shows a time that can be written. -/
def Writable (T : TimeText) (e : Choice) (w : Server Bytes Bytes) : Prop :=
  (T.write (w.now + e.elapsed)).isSome = true

inductive SameError : StoreError → Sessions.StoreError → Prop where
  | sessionNotFound : SameError .sessionNotFound .sessionNotFound
  | redis {context' : Bytes} {context : String} (h : context' = utf8 context) (e : Failure) :
      SameError (.redis context' e) (.redis context e)
  | unmarshal {context' : Bytes} {context : String} (h : context' = utf8 context) :
      SameError (.unmarshal context') (.unmarshal context)

def SameSessions (sessions' : List SessionData) (sessions : List Sessions.SessionData) : Prop :=
  sessions' = sessions.map raw

/-- The methods of the store, asked for in UTF-8. A session to create has times that can be
written. -/
inductive SameRequest (T : TimeText) : Request → Sessions.Request → Prop where
  | create {data : Sessions.SessionData} (hcreated : (T.write data.createdAt).isSome = true)
      (hseen : (T.write data.lastSeenAt).isSome = true) :
      SameRequest T (.create (raw data)) (.create data)
  | get (sid : String) : SameRequest T (.get (utf8 sid)) (.get sid)
  | delete (sid : String) : SameRequest T (.delete (utf8 sid)) (.delete sid)
  | deleteAll (identityID : String) :
      SameRequest T (.deleteAll (utf8 identityID)) (.deleteAll identityID)
  | listByIdentity (identityID : String) :
      SameRequest T (.listByIdentity (utf8 identityID)) (.listByIdentity identityID)

/-! ### The methods in step -/

section InStep

variable {T : TimeText} {ttl : Nat}

theorem marshal_raw {data : Sessions.SessionData}
    (hcreated : (T.write data.createdAt).isSome = true)
    (hseen : (T.write data.lastSeenAt).isSome = true) :
    ∃ b, marshal T (raw data) = some b ∧ Document T b (some data) := by
  have hsome : (marshal T (raw data)).isSome = true := marshal_isSome.mpr ⟨hcreated, hseen⟩
  obtain ⟨b, hb⟩ := Option.isSome_iff_exists.mp hsome
  refine ⟨b, hb, ?_, fun data' h => Option.some.inj h ▸ hcreated⟩
  rw [unmarshal_marshal hb, readable_raw]
  rfl

theorem inStep_exec {ws' : List (Write Bytes Bytes)} {ws : List (Write String Doc)}
    (h : List.Forall₂ (coding T).SameWrite ws' ws) {context' : Bytes} {context : String}
    (hcontext : context' = utf8 context) :
    InStep ((coding T).link (Writable T)) Eq SameError (exec ws' context')
      (Sessions.exec ws context) := by
  refine (Coding.inStep_pipeline h).bind fun err' err herr => ?_
  subst herr
  cases err' with
  | none => exact .ret rfl
  | some e => exact .fail (.redis hcontext e)

/-- A session that is loaded can be written again. -/
theorem inStep_load (sid : String) {getContext' unmarshalContext' : Bytes}
    {getContext unmarshalContext : String} (hget : getContext' = utf8 getContext)
    (hunmarshal : unmarshalContext' = utf8 unmarshalContext) :
    InStep ((coding T).link (Writable T))
      (fun data' data => data' = raw data ∧ (T.write data.createdAt).isSome = true) SameError
      (load T (utf8 sid) getContext' unmarshalContext')
      (Sessions.load sid getContext unmarshalContext) := by
  unfold load Sessions.load
  rw [key_utf8]
  refine Coding.inStep_get (C := coding T) fun r' r hr => ?_
  cases hr with
  | error he =>
    subst he
    exact .fail (.redis hget _)
  | ok hfound =>
    cases hfound with
    | none => exact .fail .sessionNotFound
    | @some b doc hdoc =>
      simp only [hdoc.1]
      cases doc with
      | none => exact .fail (.unmarshal hunmarshal)
      | some data => exact .ret ⟨rfl, hdoc.2 data rfl⟩

theorem inStep_create {data : Sessions.SessionData}
    (hcreated : (T.write data.createdAt).isSome = true)
    (hseen : (T.write data.lastSeenAt).isSome = true) :
    InStep ((coding T).link (Writable T)) Eq SameError (create T ttl (raw data))
      (Sessions.create ttl data) := by
  obtain ⟨b, hb, hdoc⟩ := marshal_raw hcreated hseen
  unfold create Sessions.create
  rw [hb]
  have hset : (coding T).SameWrite (.set (utf8 (Sessions.key data.sessionID)) b ttl)
      (.set (Sessions.key data.sessionID) (some data) ttl) := .set _ hdoc ttl
  have hcontext := ascii_eq_utf8 (s := "session store: create") (by decide +kernel)
  simp only [raw, key_utf8, indexKey_utf8]
  exact inStep_exec (.cons hset (.cons (.sAdd _ _) (.cons (.expire _ _) .nil))) hcontext

theorem inStep_get (sid : String) :
    InStep ((coding T).link (Writable T)) (fun data' data => data' = raw data) SameError
      (get T ttl (utf8 sid)) (Sessions.get ttl sid) := by
  refine (inStep_load sid (ascii_eq_utf8 (by decide +kernel))
    (ascii_eq_utf8 (by decide +kernel))).bind fun data' data hdata => ?_
  obtain ⟨rfl, hcreated⟩ := hdata
  refine Coding.inStep_now fun e w hclock => ?_
  obtain ⟨b, hb, hdoc⟩ := @marshal_raw T { data with lastSeenAt := w.now + e.elapsed }
    hcreated hclock
  have hset : (coding T).SameWrite (.set (utf8 (Sessions.key sid)) b ttl)
      (.set (Sessions.key sid) (some { data with lastSeenAt := w.now + e.elapsed }) ttl) :=
    .set _ hdoc ttl
  have hwritten : marshal T { raw data with lastSeenAt := w.now + e.elapsed } = some b := hb
  rw [← key_utf8] at hset
  simp only [Program.bind]
  rw [hwritten]
  exact Coding.inStep_write hset fun _ => .ret rfl

theorem inStep_delete (sid : String) :
    InStep ((coding T).link (Writable T)) Eq SameError (delete T (utf8 sid))
      (Sessions.delete sid) := by
  refine (inStep_load sid (ascii_eq_utf8 (by decide +kernel))
    (ascii_eq_utf8 (by decide +kernel))).bind fun data' data hdata => ?_
  obtain ⟨rfl, -⟩ := hdata
  have hcontext := ascii_eq_utf8 (s := "session store: delete") (by decide +kernel)
  simp only [raw, key_utf8, indexKey_utf8]
  exact inStep_exec (.cons (.del _) (.cons (.sRem _ _) .nil)) hcontext

theorem sameWrites_del (sids : List String) :
    List.Forall₂ (coding T).SameWrite ((sids.map utf8).map fun sid => .del (key sid))
      (sids.map fun sid => .del (Sessions.key sid)) := by
  induction sids with
  | nil => exact .nil
  | cons sid sids ih =>
    have hkey : (coding T).SameWrite (.del (utf8 (Sessions.key sid))) (.del (Sessions.key sid)) :=
      .del _
    rw [← key_utf8] at hkey
    exact .cons hkey ih

theorem inStep_deleteAll (identityID : String) :
    InStep ((coding T).link (Writable T)) Eq SameError (deleteAll (utf8 identityID))
      (Sessions.deleteAll identityID) := by
  unfold deleteAll Sessions.deleteAll
  rw [indexKey_utf8]
  refine Coding.inStep_sMembers (C := coding T) fun r' r hr => ?_
  cases hr with
  | error he =>
    subst he
    exact .fail (.redis (ascii_eq_utf8 (by decide +kernel)) _)
  | @ok sids' sids hsids =>
    subst hsids
    cases sids with
    | nil => exact .ret rfl
    | cons sid sids =>
      have hcontext := ascii_eq_utf8 (s := "session store: delete all") (by decide +kernel)
      have hdels := sameWrites_del (T := T) (sid :: sids)
      exact inStep_exec (List.rel_append hdels (.cons (.del _) .nil)) hcontext

/-- By induction on the sessions that are left of the index. -/
theorem inStep_listFrom (identityID : String) (sids : List String) :
    InStep ((coding T).link (Writable T)) SameSessions SameError
      (listFrom T (utf8 identityID) (sids.map utf8)) (Sessions.listFrom identityID sids) := by
  induction sids with
  | nil => exact .ret rfl
  | cons sid sids ih =>
    rw [List.map_cons, listFrom, Sessions.listFrom, key_utf8, indexKey_utf8]
    refine Coding.inStep_get (C := coding T) fun r' r hr => ?_
    cases hr with
    | error he =>
      subst he
      have hcontext : ascii "session store: list get " ++ utf8 sid =
          utf8 ("session store: list get " ++ sid) := by
        rw [utf8_append, ascii_eq_utf8 (by decide +kernel)]
      exact .fail (.redis hcontext _)
    | ok hfound =>
      cases hfound with
      | none => exact Coding.inStep_write (.sRem _ _) fun _ => ih
      | @some b doc hdoc =>
        simp only [hdoc.1]
        cases doc with
        | none => exact ih
        | some data => exact ih.bind fun rest' rest hrest => .ret (by rw [hrest]; rfl)

theorem inStep_listByIdentity (identityID : String) :
    InStep ((coding T).link (Writable T)) SameSessions SameError
      (listByIdentity T (utf8 identityID)) (Sessions.listByIdentity identityID) := by
  unfold listByIdentity Sessions.listByIdentity
  rw [indexKey_utf8]
  refine Coding.inStep_sMembers (C := coding T) fun r' r hr => ?_
  cases hr with
  | error he =>
    subst he
    exact .fail (.redis (ascii_eq_utf8 (by decide +kernel)) _)
  | ok hsids =>
    subst hsids
    exact inStep_listFrom identityID _

theorem inStep_program {req' : Request} {req : Sessions.Request} (h : SameRequest T req' req) :
    InStep ((coding T).link (Writable T)) SameSessions SameError (req'.program T ttl)
      (req.program ttl) := by
  cases h with
  | create hcreated hseen =>
    exact (inStep_create hcreated hseen).bind fun _ _ _ => .ret rfl
  | get sid => exact (inStep_get sid).bind fun data' data hdata => .ret (by rw [hdata]; rfl)
  | delete sid => exact (inStep_delete sid).bind fun _ _ _ => .ret rfl
  | deleteAll identityID => exact (inStep_deleteAll identityID).bind fun _ _ _ => .ret rfl
  | listByIdentity identityID =>
    exact (inStep_listByIdentity identityID).bind fun _ _ hsessions => .ret hsessions

end InStep

/-! ### Interleaved requests -/

abbrev Requests (ι : Type) :=
  Pool ι (Server Bytes Bytes) (@Command.Reply Bytes Bytes) StoreError (List SessionData)

def starting {ι : Type} (T : TimeText) (ttl : Nat) (w : Server Bytes Bytes) (req : ι → Request) :
    Requests ι :=
  Pool.start w fun i => (req i).program T ttl

/-- The time that passes if every step of a schedule makes its call. -/
def elapsed {ι : Type} : List (ι × Choice) → Nat
  | [] => 0
  | (_, e) :: rest => e.elapsed + elapsed rest

variable {ι : Type} [DecidableEq ι] {T : TimeText}

theorem now_step (s : Requests ι) (i : ι) (e : Choice) :
    s.world.now ≤ (s.step Redis.exec i e).world.now ∧
      (s.step Redis.exec i e).world.now ≤ s.world.now + e.elapsed := by
  rcases Pool.step_cases Redis.exec s i with ⟨c, k, hc⟩ | hidle
  · rw [Pool.world_step hc, exec_now]
    omega
  · rw [hidle e]
    omega

/-- By induction on the schedule: the clock stays within the time that passes. -/
theorem meets_writable {sched : List (ι × Choice)} : ∀ {s : Requests ι},
    (∀ t, s.world.now ≤ t → t ≤ s.world.now + elapsed sched → (T.write t).isSome = true) →
      s.Meets Redis.exec (Writable T) sched := by
  induction sched with
  | nil => exact fun _ => trivial
  | cons x rest ih =>
    intro s hclock
    obtain ⟨i, e⟩ := x
    rw [elapsed] at hclock
    obtain ⟨hle, hbound⟩ := now_step s i e
    refine ⟨hclock _ (by omega) (by omega), ih fun t hlow hhigh => hclock t ?_ ?_⟩
    · omega
    · omega

/-- Whatever the order in which requests to the two stores take turns, they leave servers that
correspond, and each request has come to the same answer or to none yet. -/
theorem documents_refine_sessions {req' : ι → Request} {req : ι → Sessions.Request}
    (hreq : ∀ i, SameRequest T (req' i) (req i)) (ttl : Nat) {w : Server Bytes Bytes}
    {s : Server String Doc} (hserver : (coding T).SameServer w s) {sched : List (ι × Choice)}
    (hclock : ∀ t, w.now ≤ t → t ≤ w.now + elapsed sched → (T.write t).isSome = true) :
    (coding T).SameServer ((starting T ttl w req').play Redis.exec sched).world
        ((Sessions.starting ttl s req).play Redis.exec sched).world ∧
      ∀ i, Option.Rel (Alike SameSessions SameError)
        (((starting T ttl w req').play Redis.exec sched).prog i).ended?
        (((Sessions.starting ttl s req).play Redis.exec sched).prog i).ended? := by
  have hstart : Pool.InStep ((coding T).link (Writable T)) SameSessions SameError
      (starting T ttl w req') (Sessions.starting ttl s req) :=
    ⟨hserver, fun i => inStep_program (hreq i)⟩
  have hplayed := hstart.play (meets_writable hclock)
  exact ⟨hplayed.world, fun i => (hplayed.prog i).ended⟩

/-- A session is created and read in between. -/
def createAndGet : Fin 2 → Sessions.Request :=
  ![.create adaSession, .get "s"]

def createAndGetDocument : Fin 2 → Request :=
  ![.create (raw adaSession), .get (utf8 "s")]

/-- The `GET` finds the session before it is indexed. -/
def getBetween : List (Fin 2 × Choice) :=
  [(0, ⟨true, 1⟩), (1, ⟨true, 1⟩), (0, ⟨true, 1⟩), (1, ⟨true, 1⟩), (0, ⟨true, 1⟩), (1, ⟨true, 1⟩)]

theorem ada_document_read :
    (((starting numberedTimes 10 (Server.empty 0) createAndGetDocument).play Redis.exec
      getBetween).prog 1).ended? = some (.ok [raw { adaSession with lastSeenAt := 4 }]) := by
  have hreq : ∀ i, SameRequest numberedTimes (createAndGetDocument i) (createAndGet i) :=
    Fin.forall_fin_two.mpr ⟨.create (by decide +kernel) (by decide +kernel), .get "s"⟩
  have hclock : ∀ t : Int, 0 ≤ t → t ≤ 0 + (elapsed getBetween : Nat) →
      (numberedTimes.write t).isSome = true := by
    intro t hlow hhigh
    have hsteps : elapsed getBetween = 6 := rfl
    rw [hsteps] at hhigh
    have hsmall : Json.Int64 t := by
      unfold Json.Int64
      omega
    simp only [numberedTimes, if_pos hsmall, Option.isSome_some]
  have hanswer := (documents_refine_sessions hreq 10 (Coding.sameServer_empty _ 0) hclock).2 1
  have hsession : (((Sessions.starting 10 (Server.empty 0) createAndGet).play Redis.exec
      getBetween).prog 1).ended? = some (.ok [{ adaSession with lastSeenAt := 4 }]) := by
    decide +kernel
  rw [hsession] at hanswer
  generalize (((starting numberedTimes 10 (Server.empty 0) createAndGetDocument).play Redis.exec
    getBetween).prog 1).ended? = answer at hanswer ⊢
  cases hanswer with
  | some halike => cases halike with
    | ok hsessions => rw [hsessions]; rfl

end Verion.Sessions.Documents
