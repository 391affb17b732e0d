import Verion.Auth.Runs
import Verion.Service.Audit
import Mathlib.Data.Fin.VecNotation

/-!
# Primary keys under interleaved requests

The foreign key of `primary_key_id` only says that the key exists. That it is a
key of the identity rests on the three places that set it: each sets a key that
the same request inserted for the same tenant and identity.
-/

namespace Verion.Auth

open Calls Postgres Service

variable {Attrs ι α : Type} [DecidableEq ι]

/-- A primary key is a key of the identity and of its tenant. -/
def Owned (db : DB) : Prop :=
  ∀ I row K, db.identities.get? I = some row → row.primaryKeyID = some K →
    ∃ key, db.identityKeys.get? K = some key ∧ key.identityID = I ∧ key.tenantID = row.tenantID

/-- The event inserted a key and returned it. -/
def insertion (key created : IdentityKey) : Ev Attrs := ⟨.repo (.keys (.create key)), .ok created⟩

/-- The key to set is one that was inserted for the tenant and the identity. -/
def SetsInserted (seen : Ev Attrs → Prop) : Service.Op Attrs → Prop
  | .repo (.identities (.setPrimaryKey tenantID id keyID)) => ∃ key created,
      seen (insertion key created) ∧ key.tenantID = tenantID ∧ key.identityID = id ∧
        created.id = keyID
  | _ => True

/-! ### Every request keeps to it -/

def settingService (α : Type) : Protocol (@Service.Op.Reply Attrs) Error α where
  call h c := SetsInserted (fun ev => ev ∈ h) c
  done _ _ := True

def setting (α : Type) : Protocol (@Op.Reply Attrs) AuthError α where
  call h c := match c with
    | .svc c => SetsInserted (fun ev => ev ∈ h.filterMap serviceEvent) c
    | _ => True
  done _ _ := True

def SetsNone : Service.Op Attrs → Prop
  | .repo (.identities (.setPrimaryKey ..)) => False
  | _ => True

theorem SetsNone.allowed {c : Service.Op Attrs} (hc : SetsNone c) (seen : Ev Attrs → Prop) :
    SetsInserted seen c := by
  unfold SetsInserted
  split
  · exact absurd hc not_false
  · trivial

section Services

variable {P : Primitives Attrs} {h : List (Ev Attrs)} {β : Type}

theorem setsNone_obeys {q : Svc Attrs α} (hq : q.Only SetsNone) :
    q.Obeys (Service.exec P) (settingService α) h :=
  hq.obeys (fun _ _ hc => hc.allowed _) (fun _ _ => trivial) h

theorem setsNone_bind {q : Svc Attrs β} {f : β → Svc Attrs α} (hq : q.Only SetsNone)
    (hf : ∀ a h', (∀ ev ∈ h, ev ∈ h') → (f a).Obeys (Service.exec P) (settingService α) h') :
    (q >>= f).Obeys (Service.exec P) (settingService α) h :=
  hq.obeys_bind (fun _ _ hc => hc.allowed _) (fun _ _ => trivial) fun a h' hsub _ => hf a h' hsub

theorem createIdentity_sets (input : CreateIdentityInput Attrs) :
    (createIdentity P input).Obeys (Service.exec P) (settingService _) h := by
  refine setsNone_bind (Service.only_orFail _ _) fun _ h _ => ?_
  refine setsNone_bind (Service.only_repo trivial _) fun tenant h _ => ?_
  refine setsNone_bind (Service.only_refuseIf _ _) fun _ h _ => ?_
  refine setsNone_bind (only_encryptAttributes (fun _ => trivial) _) fun enc h _ => ?_
  refine setsNone_bind (Service.only_orFail _ _) fun encryptedAttrs h _ => ?_
  refine setsNone_bind (Service.only_repo trivial _) fun created h _ => ?_
  refine setsNone_bind ⟨trivial, Service.only_orFail _⟩ fun generated h _ => ?_
  refine Service.obeys_repo_bind trivial (fun createdKey _ => ?_) fun _ => trivial
  refine Service.obeys_repo_bind ⟨_, createdKey, List.mem_cons_self .., rfl, rfl, rfl⟩
    (fun _ _ => setsNone_obeys ?_) fun _ => trivial
  refine (Service.only_repo trivial _).bind fun _ => ?_
  exact (only_writeAudit trivial).bind fun _ => trivial

theorem rotateKey_sets (tenantID identityID oldKeyID actorID : String) :
    (rotateKey tenantID identityID oldKeyID actorID : Svc Attrs _).Obeys (Service.exec P)
      (settingService _) h := by
  refine setsNone_bind (Service.only_repo trivial _) fun oldKey h _ => ?_
  refine setsNone_bind ⟨trivial, fun _ => trivial⟩ fun now h _ => ?_
  refine setsNone_bind (Service.only_refuseIf _ _) fun _ h _ => ?_
  refine obeys_generateKeyPair_bind (fun _ _ => trivial) fun generator algorithm _ =>
    ⟨trivial, fun generated _ => ?_⟩
  refine Service.obeys_repo_bind trivial (fun createdKey _ => ?_) fun _ => trivial
  -- the insertion stays in the history
  refine setsNone_bind (Service.only_repo trivial _) fun _ h hsub => ?_
  refine setsNone_bind (Service.only_repo trivial _) fun ident h' hsub' => ?_
  have hlast : ∀ event key, (writeAudit event >>= fun _ => .ret key : Svc Attrs IdentityKey).Only
      SetsNone := fun _ _ => (only_writeAudit trivial).bind fun _ => trivial
  split
  · exact Service.obeys_repo_bind
      ⟨_, createdKey, hsub' _ (hsub _ (List.mem_cons_self ..)), rfl, rfl, rfl⟩
      (fun _ _ => setsNone_obeys (hlast _ _)) fun _ => trivial
  · exact setsNone_obeys (hlast _ _)

theorem service_sets (req : Service.Request Attrs) :
    (req.program P).Obeys (Service.exec P) (settingService _) h := by
  by_cases hfree : ∀ c, Service.MayCall req c → SetsNone c
  · exact setsNone_obeys ((Service.program_only P req).mono hfree)
  · cases req with
    | createIdentity input => exact Service.obeys_respond (createIdentity_sets input)
    | rotateKey => exact Service.obeys_respond (rotateKey_sets ..)
    | _ => exact absurd (fun c hc => by cases hc <;> trivial) hfree

end Services

section Ceremonies

variable {D : Deps Attrs} {h : List (Event (@Op.Reply Attrs))} {β : Type}

def SetsNothing : Op Attrs → Prop
  | .svc c => SetsNone c
  | _ => True

theorem SetsNothing.allowed {c : Op Attrs} (hc : SetsNothing c)
    (h : List (Event (@Op.Reply Attrs))) : (setting α).call h c := by
  cases c with
  | svc c => exact SetsNone.allowed hc _
  | _ => trivial

theorem setsNothing_obeys {q : Ceremony Attrs α} (hq : q.Only SetsNothing) :
    q.Obeys (exec D) (setting α) h :=
  hq.obeys (fun h _ hc => hc.allowed h) (fun _ _ => trivial) h

theorem setsNothing_bind {q : Ceremony Attrs β} {f : β → Ceremony Attrs α}
    (hq : q.Only SetsNothing)
    (hf : ∀ a h', (∀ ev ∈ h, ev ∈ h') → (f a).Obeys (exec D) (setting α) h') :
    (q >>= f).Obeys (exec D) (setting α) h :=
  hq.obeys_bind (fun h _ hc => hc.allowed h) (fun _ _ => trivial) fun a h' hsub _ => hf a h' hsub

theorem looks_setsNothing (c : Op Attrs) (hc : Looks c) : SetsNothing c := by
  cases hc with
  | outer hc => cases c with
    | svc c => exact absurd hc not_false
    | _ => trivial
  | now => trivial
  | read hc =>
    show SetsNone _
    unfold SetsNone
    split
    · rename_i heq
      cases heq
      cases hc
    · trivial

theorem plain_setsNothing {tenantID : String} (c : Op Attrs) (hc : Plain tenantID c) :
    SetsNothing c := by
  cases hc with
  | looks hc => exact looks_setsNothing c hc
  | _ => trivial

theorem finishRegistration_sets (tenantID identityID sessionID : String) (body : Bytes) :
    (finishRegistration D.primitives tenantID identityID sessionID body).Obeys (exec D)
      (setting _) h := by
  refine setsNothing_bind ((only_getIdentity (.read rfl) _).mono looks_setsNothing)
    fun ident h _ => ?_
  refine setsNothing_bind (only_repo trivial _) fun existingCreds h _ => ?_
  refine setsNothing_bind
    ((only_getChallenge (fun _ hc _ => .outer hc) _ _ _).mono looks_setsNothing)
    fun session h _ => ?_
  refine setsNothing_bind ⟨trivial, fun _ => trivial⟩ fun reply h _ => ?_
  refine setsNothing_bind (only_orFail _ _) fun credential h _ => ?_
  refine obeys_repo_bind trivial (fun createdKey _ => ?_) fun _ _ => trivial
  have hlast : ∀ cred (event : Credential → AuditEvent) (f : Credential → FinishRegistrationResult),
      (repo (.credentials (.create cred)) "webauthn: finish: create credential" >>= fun created =>
        dropError (.audit (.insert (event created))) >>= fun _ => .ret (f created) :
        Ceremony Attrs _).Only SetsNothing := fun _ _ _ =>
    (only_repo trivial _).bind fun _ =>
      (only_dropError trivial).bind fun _ => trivial
  split
  · exact obeys_repo_bind ⟨_, createdKey, List.mem_cons_self .., rfl, rfl, rfl⟩
      (fun _ _ => setsNothing_obeys (hlast _ _ _)) fun _ _ => trivial
  · exact setsNothing_obeys (hlast _ _ _)

theorem registerComplete_sets (ttl : Nat) (tenantID identityID sessionID : String)
    (r : HttpRequest) :
    (registerComplete D.primitives ttl tenantID identityID sessionID r).Obeys (exec D)
      (setting _) h := by
  unfold registerComplete
  split
  · trivial
  · have hfinish := finishRegistration_sets (D := D) (h := h) tenantID identityID sessionID r.body
    refine (Program.obeys_attempt_bind _ _ _).mpr (hfinish.mono ?_ ?_)
    · exact fun _ _ hc => hc
    · intro h result _
      cases result with
      | error e => trivial
      | ok result => exact setsNothing_obeys ((openSession_looks ..).mono looks_setsNothing)

/-- Every request sets only keys it has inserted for the same tenant and identity. -/
theorem request_sets (req : Request Attrs) : (req.program D).Obeys (exec D) (setting _) [] := by
  cases req with
  | service req =>
    exact obeys_respond (obeys_embed (S := settingService _) (fun _ _ hc => hc)
      (fun _ _ _ => trivial) (service_sets req))
  | finishRegistration => exact obeys_respond (finishRegistration_sets ..)
  | registerComplete => exact obeys_respond (registerComplete_sets ..)
  | beginRegistration =>
    exact obeys_respond (setsNothing_obeys ((beginRegistration_mute ..).mono fun _ hc =>
      looks_setsNothing _ hc.1))
  | beginAssertion =>
    exact obeys_respond (setsNothing_obeys ((beginAssertion_mute ..).mono fun _ hc =>
      looks_setsNothing _ hc.1))
  | registerBegin =>
    exact obeys_respond (setsNothing_obeys ((registerBegin_mute _).mono fun _ hc =>
      looks_setsNothing _ hc.1))
  | loginBegin =>
    exact obeys_respond (setsNothing_obeys ((loginBegin_mute _).mono fun _ hc =>
      looks_setsNothing _ hc.1))
  | finishAssertion =>
    exact obeys_respond (setsNothing_obeys
      ((finishAssertion_asserts ..).mono fun _ hc => plain_setsNothing _ hc.1))
  | loginComplete =>
    exact obeys_respond (setsNothing_obeys ((loginComplete_plain ..).mono plain_setsNothing))

end Ceremonies

/-! ### One call -/

/-- The key is in the table, for the identity and the tenant it was inserted for. -/
def Stored (db : DB) (key created : IdentityKey) : Prop :=
  ∃ K row, UUID.ofText? created.id = some K ∧ db.identityKeys.get? K = some row ∧
    UUID.ofText? key.identityID = some row.identityID ∧
    UUID.ofText? key.tenantID = some row.tenantID

section Step

variable {P : Primitives Attrs} {c : Service.Op Attrs} {e : Service.Env} {w : Service.World}

theorem Stored.exec {key created : IdentityKey} (h : Stored w.db key created) :
    Stored (Service.exec P c e w).2.db key created := by
  obtain ⟨K, row, hK, hrow, hI, hT⟩ := h
  obtain ⟨row', hrow', hrs⟩ := (exec_keyStep P c e w).row hrow
  obtain ⟨hI', hT', -⟩ := hrs.keeps
  exact ⟨K, row', hK, hrow', hI' ▸ hI, hT' ▸ hT⟩

theorem stored_of_insertion {key created : IdentityKey}
    (h : (⟨c, (Service.exec P c e w).1⟩ : Ev Attrs) = insertion key created) :
    Stored (Service.exec P c e w).2.db key created := by
  obtain rfl : c = .repo (.keys (.create key)) := congrArg Event.op h
  have hok : (Service.exec P (.repo (.keys (.create key))) e w).1 = .ok created :=
    eq_of_heq (Event.mk.inj h).2
  obtain ⟨st, I, T, hI, hT, hins, rfl⟩ := exec_createKey_ok hok
  exact ⟨st.newID, _, UUID.ofText?_toText _, Table.get?_insert?_self hins, hI, hT⟩

theorem Owned.exec {seen : Ev Attrs → Prop} (h : Owned w.db) (hc : SetsInserted seen c)
    (hseen : ∀ key created, seen (insertion key created) → Stored w.db key created) :
    Owned (Service.exec P c e w).2.db := by
  intro I row' K hrow' hK
  have hkeys : ∀ {row : IdentityRow}, (∃ key, w.db.identityKeys.get? K = some key ∧
      key.identityID = I ∧ key.tenantID = row.tenantID) → row'.tenantID = row.tenantID →
      ∃ key, (Service.exec P c e w).2.db.identityKeys.get? K = some key ∧ key.identityID = I ∧
        key.tenantID = row'.tenantID := by
    rintro row ⟨key, hkey, hI, hT⟩ hrowT
    obtain ⟨key', hkey', hrs⟩ := (exec_keyStep P c e w).row hkey
    obtain ⟨hI', hT', -⟩ := hrs.keeps
    exact ⟨key', hkey', hI'.trans hI, hT'.trans (hT.trans hrowT.symm)⟩
  have hstep := exec_identityStep P c e w
  cases hrow : w.db.identities.get? I with
  | none =>
    obtain ⟨ident, st, T, by_, -, -, rfl, -⟩ := hstep.new_row hrow hrow'
    cases hK
  | some row =>
    obtain ⟨row'', hrow'', hrs⟩ := hstep.row hrow
    obtain rfl : row'' = row' := Option.some.inj (hrow''.symm.trans hrow')
    generalize hev : (⟨c, (Service.exec P c e w).1⟩ : Ev Attrs) = ev at hrs
    cases hrs with
    | same => exact hkeys (h I _ K hrow hK) rfl
    | updated => exact hkeys (h I row K hrow hK) rfl
    | statusWritten => exact hkeys (h I row K hrow hK) rfl
    | primaryKeySet tenantID id keyID now K' _ hT hI hK' =>
      -- the key was inserted for this tenant and this identity
      cases hK
      obtain rfl : c = _ := congrArg Event.op hev
      obtain ⟨key, created, hmem, rfl, rfl, rfl⟩ := hc
      obtain ⟨K'', stored, hK'', hstored, hI', hT'⟩ := hseen key created hmem
      obtain rfl : K'' = K := Option.some.inj (hK''.symm.trans hK')
      exact hkeys ⟨stored, hstored, Option.some.inj (hI'.symm.trans hI),
        Option.some.inj (hT'.symm.trans hT)⟩ rfl

end Step

/-! ### Whole runs -/

/-- Primary keys are owned, and what the requests have inserted is stored. -/
structure Binding (s : Requests ι Attrs) : Prop where
  owned : Owned s.world.svc.db
  stored : ∀ i key created, insertion key created ∈ (s.hist i).filterMap serviceEvent →
    Stored s.world.svc.db key created

section Run

variable {D : Deps Attrs} {s : Requests ι Attrs} {i : ι} {e : Env}

theorem Binding.outer {c : Op Attrs} {k : c.Reply → Ceremony Attrs (Response Attrs)}
    (h : Binding s) (hc : s.prog i = .call c k) (houter : Outer c) :
    Binding (s.step (exec D) i e) := by
  have hsvc : (s.step (exec D) i e).world.svc = s.world.svc := by
    rw [Pool.world_step hc]
    exact exec_outer houter e s.world
  have hhist : ∀ j, ((s.step (exec D) i e).hist j).filterMap serviceEvent =
      (s.hist j).filterMap serviceEvent := by
    intro j
    by_cases hj : j = i
    · subst hj
      rw [Pool.hist_step_self hc, List.filterMap_cons_none]
      cases c with
      | svc c => exact absurd houter not_false
      | _ => rfl
    · rw [Pool.hist_step_other hj]
  refine ⟨hsvc ▸ h.owned, fun j key created hmem => ?_⟩
  rw [hsvc]
  exact h.stored j key created (hhist j ▸ hmem)

theorem Binding.service {c : Service.Op Attrs}
    {k : c.Reply → Ceremony Attrs (Response Attrs)} (h : Binding s)
    (hc : s.prog i = .call (.svc c) k)
    (hcall : SetsInserted (fun ev => ev ∈ (s.hist i).filterMap serviceEvent) c) :
    Binding (s.step (exec D) i e) := by
  have hsvc : (s.step (exec D) i e).world.svc =
      (Service.exec D.primitives c e.svc s.world.svc).2 := by
    rw [Pool.world_step hc]
    rfl
  refine ⟨hsvc ▸ h.owned.exec hcall (h.stored i), fun j key created hmem => ?_⟩
  rw [hsvc]
  by_cases hj : j = i
  · subst hj
    have hpick : serviceEvent ⟨.svc c, (exec D (.svc c) e s.world).1⟩ =
        some ⟨c, (Service.exec D.primitives c e.svc s.world.svc).1⟩ := rfl
    rw [Pool.hist_step_self hc, List.filterMap_cons_some hpick] at hmem
    rcases List.mem_cons.mp hmem with hnew | hold
    · exact stored_of_insertion hnew.symm
    · exact (h.stored j key created hold).exec
  · rw [Pool.hist_step_other hj] at hmem
    exact (h.stored j key created hmem).exec

/-- In every interleaving of any requests, a primary key is a key of its identity and of
the tenant of the identity. -/
theorem primaryKey_owned (D : Deps Attrs) (w : World) (req : ι → Request Attrs)
    (s : Requests ι Attrs) (h0 : Owned w.svc.db)
    (hs : Pool.Reach (exec D) (fun _ _ _ => True) (starting D w req) s) : Owned s.world.svc.db := by
  have ho : Pool.Obeyed (exec D) (fun _ => setting _) (starting D w req) :=
    fun i => request_sets (req i)
  have hinv : Pool.Obeyed (exec D) (fun _ => setting _) s ∧ Binding s := by
    refine hs.invariant (J := fun s => Pool.Obeyed (exec D) (fun _ => setting _) s ∧ Binding s)
      (fun t i e c k _ hc ht => ⟨ht.1.step i e, ?_⟩) ⟨ho, h0, fun _ _ _ hmem => nomatch hmem⟩
    have hcall := ht.1.call hc
    cases c with
    | svc c => exact ht.2.service hc hcall
    | _ => exact ht.2.outer hc trivial
  exact hinv.2.owned

end Run

/-! ### A fixed run -/

/-- The primary key of an identity with the identity and the tenant of that key. -/
def primaryOf (i : UUID) (db : DB) : Option (UUID × UUID × UUID) := do
  let K ← (← db.identities.get? i).primaryKeyID
  let key ← db.identityKeys.get? K
  some (K, key.identityID, key.tenantID)

def oneIdentity : World := { World.empty with svc := smallWorld }

theorem oneIdentity_owned : Owned oneIdentity.svc.db := by
  intro I row K hrow hK
  cases List.mem_singleton.mp (Table.mem_of_get? hrow)
  cases hK

theorem interleaved_creation_owned :
    let start : Requests (Fin 2) Bytes := starting plainDeps oneIdentity
      ![.service createGrace, .service (.generateKey ⟨(UUID.ofNat 1).toText, (UUID.ofNat 2).toText,
        .ed25519, .signing, none⟩)]
    let s := start.play (exec plainDeps) [(0, calm 3), (1, calm 4), (0, calm 5), (1, calm 6),
      (0, calm 7), (1, calm 8), (0, calm 9), (0, calm 10)]
    primaryOf (.ofNat 5) s.world.svc.db = some (.ofNat 9, .ofNat 5, .ofNat 1) ∧
      Owned s.world.svc.db := by
  intro start s
  exact ⟨by decide +kernel, primaryKey_owned plainDeps oneIdentity _ s oneIdentity_owned
    (Pool.reach_play (fun _ _ _ => trivial) _)⟩

end Verion.Auth
