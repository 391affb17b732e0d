import Verion.Auth.Runs

/-!
# Keys and the identities they belong to

The foreign keys of `identity_keys` check the identity, the tenant and the
successor of a key separately. That they fit together rests on the calls the
services make: `Fits` says which insertions and rotations keep the tables
coherent, all other calls do.
-/

namespace Verion.Auth

open Calls Postgres Service

variable {Attrs α β : Type}

def Replaces (next key : KeyRow) : Prop :=
  next.identityID = key.identityID ∧ next.keyType = key.keyType ∧ next.purpose = key.purpose

structure Coherent (db : DB) : Prop where
  tenant : ∀ k key, db.identityKeys.get? k = some key →
    ∃ ident, db.identities.get? key.identityID = some ident ∧ ident.tenantID = key.tenantID
  successor : ∀ k key n, db.identityKeys.get? k = some key → key.rotatedTo = some n →
    ∃ next, db.identityKeys.get? n = some next ∧ Replaces next key

/-- What the insertion and the rotation of a key have to find. -/
def Fits (db : DB) : Service.Op Attrs → Prop
  | .repo (.keys (.create k)) => ∃ I ident, UUID.ofText? k.identityID = some I ∧
      db.identities.get? I = some ident ∧ UUID.ofText? k.tenantID = some ident.tenantID
  | .repo (.keys (.rotate tenantID oldKeyID newKeyID)) => ∀ K key,
      UUID.ofText? oldKeyID = some K → db.identityKeys.get? K = some key →
      UUID.ofText? tenantID = some key.tenantID →
      ∃ N next, UUID.ofText? newKeyID = some N ∧ db.identityKeys.get? N = some next ∧
        Replaces next key
  | _ => True

/-! ### One call -/

section Step

variable {P : Primitives Attrs} {c : Service.Op Attrs} {e : Service.Env} {w : Service.World}

theorem identity_kept {I : UUID} {ident : IdentityRow} (h : w.db.identities.get? I = some ident) :
    ∃ ident', (Service.exec P c e w).2.db.identities.get? I = some ident' ∧
      ident'.tenantID = ident.tenantID := by
  obtain ⟨ident', hident', hrow⟩ := (exec_identityStep P c e w).row h
  exact ⟨ident', hident', hrow.tenant⟩

theorem key_kept {k : UUID} {key : KeyRow} (h : w.db.identityKeys.get? k = some key) :
    ∃ key', (Service.exec P c e w).2.db.identityKeys.get? k = some key' ∧
      KeyRowStep k ⟨c, (Service.exec P c e w).1⟩ key key' :=
  (exec_keyStep P c e w).row h

theorem Replaces.kept {k n : UUID} {ev : Ev Attrs} {key key' next next' : KeyRow}
    (h : Replaces next key) (hkey : KeyRowStep k ev key key') (hnext : KeyRowStep n ev next next') :
    Replaces next' key' := by
  obtain ⟨hi, -, ht, hp, -⟩ := hkey.keeps
  obtain ⟨hi', -, ht', hp', -⟩ := hnext.keeps
  exact ⟨hi'.trans (h.1.trans hi.symm), ht'.trans (h.2.1.trans ht.symm),
    hp'.trans (h.2.2.trans hp.symm)⟩

theorem Coherent.exec_tenant (h : Coherent w.db) (hc : Fits w.db c) {k : UUID} {key : KeyRow}
    (hkey : (Service.exec P c e w).2.db.identityKeys.get? k = some key) :
    ∃ ident, (Service.exec P c e w).2.db.identities.get? key.identityID = some ident ∧
      ident.tenantID = key.tenantID := by
  cases hold : w.db.identityKeys.get? k with
  | none =>
    obtain ⟨new, st, I, T, hI, hT, -, rfl, hev⟩ := (exec_keyStep P c e w).new_row hold hkey
    obtain rfl : c = _ := congrArg Event.op hev
    obtain ⟨I', ident, hI', hident, hT'⟩ := hc
    obtain rfl : I' = I := Option.some.inj (hI'.symm.trans hI)
    obtain rfl : ident.tenantID = T := Option.some.inj (hT'.symm.trans hT)
    exact identity_kept hident
  | some old =>
    obtain ⟨key', hkey', hrow⟩ := key_kept (P := P) (c := c) (e := e) hold
    obtain rfl : key' = key := Option.some.inj (hkey'.symm.trans hkey)
    obtain ⟨hI, hT, -⟩ := hrow.keeps
    obtain ⟨ident, hident, htenant⟩ := h.tenant k old hold
    rw [hI, hT, ← htenant]
    exact identity_kept hident

theorem Coherent.exec_successor (h : Coherent w.db) (hc : Fits w.db c) {k n : UUID} {key : KeyRow}
    (hkey : (Service.exec P c e w).2.db.identityKeys.get? k = some key)
    (hn : key.rotatedTo = some n) :
    ∃ next, (Service.exec P c e w).2.db.identityKeys.get? n = some next ∧ Replaces next key := by
  cases hold : w.db.identityKeys.get? k with
  | none =>
    -- an inserted key has no successor
    obtain ⟨new, st, I, T, -, -, -, rfl, -⟩ := (exec_keyStep P c e w).new_row hold hkey
    cases hn
  | some old =>
    obtain ⟨key', hkey', hrow⟩ := key_kept (P := P) (c := c) (e := e) hold
    obtain rfl : key' = key := Option.some.inj (hkey'.symm.trans hkey)
    have hnext : ∃ next, w.db.identityKeys.get? n = some next ∧ Replaces next old := by
      obtain ⟨-, -, -, -, hto | ⟨tenantID, oldKeyID, newKeyID, N, hT, hK, hN, hto, hev⟩⟩ :=
          hrow.keeps
      · exact h.successor k old n hold (hto ▸ hn)
      · obtain rfl : c = _ := congrArg Event.op hev
        obtain rfl : N = n := Option.some.inj (hto.symm.trans hn)
        obtain ⟨N', next, hN', hnext, hrep⟩ := hc k old hK hold hT
        obtain rfl : N' = N := Option.some.inj (hN'.symm.trans hN)
        exact ⟨next, hnext, hrep⟩
    obtain ⟨next, hnext, hrep⟩ := hnext
    obtain ⟨next', hnext', hrow'⟩ := key_kept (P := P) (c := c) (e := e) hnext
    exact ⟨next', hnext', hrep.kept hrow hrow'⟩

theorem Coherent.exec (h : Coherent w.db) (hc : Fits w.db c) :
    Coherent (Service.exec P c e w).2.db where
  tenant _ _ hkey := h.exec_tenant hc hkey
  successor _ _ _ hkey hn := h.exec_successor hc hkey hn

end Step

/-! ### Requests of the services -/

/-- Calls that fit in every state. -/
def Free : Service.Op Attrs → Prop
  | .repo (.keys (.create _)) | .repo (.keys (.rotate ..)) => False
  | _ => True

theorem Free.fits {c : Service.Op Attrs} (hc : Free c) (db : DB) : Fits db c := by
  unfold Fits
  split
  · exact absurd hc not_false
  · exact absurd hc not_false
  · trivial

/-- A rotation concerns a key of the identity it names, if the tenant has the key. -/
def RotatesOwn : Request Attrs → World → Prop
  | .service (.rotateKey tenantID identityID oldKeyID _), w => ∀ K key,
      UUID.ofText? oldKeyID = some K → w.svc.db.identityKeys.get? K = some key →
      UUID.ofText? tenantID = some key.tenantID → UUID.ofText? identityID = some key.identityID
  | _, _ => True

section Services

variable {P : Primitives Attrs} {w : Service.World}

theorem free_keeps (c : Service.Op Attrs) (e : Service.Env) (w : Service.World) (hc : Free c)
    (h : Coherent w.db) : Coherent (Service.exec P c e w).2.db :=
  h.exec (hc.fits _)

theorem free_ends {q : Svc Attrs α} (hq : q.Only Free) (h : Coherent w.db) :
    q.Ends (Service.exec P) (fun _ w => Coherent w.db) w :=
  hq.ends free_keeps (fun _ _ h => h) h

theorem free_bind {q : Svc Attrs α} {f : α → Svc Attrs β} (hq : q.Only Free) (h : Coherent w.db)
    (hf : ∀ a w', Coherent w'.db → (f a).Ends (Service.exec P) (fun _ w => Coherent w.db) w') :
    (q >>= f).Ends (Service.exec P) (fun _ w => Coherent w.db) w :=
  hq.ends_bind free_keeps (fun _ _ h => h) h hf

/-- A key may be inserted for an identity of its tenant. -/
theorem createKey_bind {k : IdentityKey} {f : Error → Error} {g : IdentityKey → Svc Attrs α}
    {I : UUID} {ident : IdentityRow} (h : Coherent w.db) (hI : UUID.ofText? k.identityID = some I)
    (hident : w.db.identities.get? I = some ident)
    (hT : UUID.ofText? k.tenantID = some ident.tenantID)
    (hg : ∀ st T w', Coherent w'.db →
      w.db.identityKeys.insert? (insertedKey st I T k) = some w'.db.identityKeys →
      (g (scanKey (insertedKey st I T k))).Ends (Service.exec P) (fun _ w => Coherent w.db) w') :
    (Service.repo (.keys (.create k)) f >>= g).Ends (Service.exec P) (fun _ w => Coherent w.db)
      w := by
  refine ends_insertKey_bind (fun e st I' T w' hw' hI' _ hins _ => ?_) fun _ => h
  obtain rfl : I' = I := Option.some.inj (hI'.symm.trans hI)
  exact hg st T w' (hw' ▸ h.exec ⟨I', ident, hI, hident, hT⟩) hins

theorem createIdentity_coherent (input : CreateIdentityInput Attrs) (h : Coherent w.db) :
    (createIdentity P input).Ends (Service.exec P) (fun _ w => Coherent w.db) w := by
  refine free_bind (Service.only_orFail _ _) h fun _ w h => ?_
  refine free_bind (Service.only_repo trivial _) h fun tenant w h => ?_
  refine free_bind (Service.only_refuseIf _ _) h fun _ w h => ?_
  refine free_bind (only_encryptAttributes (fun _ => trivial) _) h fun enc w h => ?_
  refine free_bind (Service.only_orFail _ _) h fun encryptedAttrs w h => ?_
  refine ends_insertIdentity_bind (fun e I row w' hw' hget hid _ hT => ?_) fun _ => h
  replace h : Coherent w'.db := hw' ▸ free_keeps _ e w trivial h
  -- the key is inserted for the identity that was just inserted under the same tenant
  refine Service.ends_generateKey_bind (fun generated w hdb => ?_) fun _ w hdb => hdb ▸ h
  rw [← hdb] at h hget
  have hI : UUID.ofText? (scanIdentity row : Identity Attrs).id = some I :=
    hid ▸ UUID.ofText?_toText row.id
  refine createKey_bind h hI hget hT fun _ _ w h _ => ?_
  refine free_bind (Service.only_repo trivial _) h fun _ w h => ?_
  refine free_bind (Service.only_repo trivial _) h fun _ w h => ?_
  exact free_bind (only_writeAudit trivial) h fun _ _ h => h

theorem generateKey_coherent (input : GenerateKeyInput) (h : Coherent w.db) :
    (generateKey input : Svc Attrs IdentityKey).Ends (Service.exec P) (fun _ w => Coherent w.db)
      w := by
  refine Service.ends_repo_bind (fun e ident hident => ?_) fun _ => h
  obtain ⟨T, I, row, hT, hI, hget, rfl, rfl⟩ := getByID_ok hident
  rw [exec_read rfl]
  refine Service.ends_refuseIf_bind h fun _ => ?_
  refine ends_generateKeyPair_bind (fun algorithm generated w' hdb => ?_) fun _ w' hdb => hdb ▸ h
  rw [← hdb] at h hget
  refine createKey_bind h hI hget hT fun _ _ w h _ => ?_
  exact free_bind (only_writeAudit trivial) h fun _ _ h => h

theorem rotateKey_coherent {tenantID identityID oldKeyID actorID : String} (h : Coherent w.db)
    (hown : ∀ K key, UUID.ofText? oldKeyID = some K → w.db.identityKeys.get? K = some key →
      UUID.ofText? tenantID = some key.tenantID → UUID.ofText? identityID = some key.identityID) :
    (rotateKey tenantID identityID oldKeyID actorID : Svc Attrs IdentityKey).Ends (Service.exec P)
      (fun _ w => Coherent w.db) w := by
  refine Service.ends_repo_bind (fun e oldKey hold => ?_) fun _ => h
  obtain ⟨T, K, key, hT, hK, hget, rfl, rfl⟩ := getKeyByID_ok hold
  have hI := hown K key hK hget hT
  rw [exec_read rfl]
  refine ends_now_bind fun now => ?_
  refine Service.ends_refuseIf_bind h fun _ => ?_
  refine ends_generateKeyPair_bind (fun algorithm generated w' hdb => ?_) fun _ w' hdb => hdb ▸ h
  rw [← hdb] at h hget
  obtain ⟨ident, hident, htenant⟩ := h.tenant K key hget
  refine createKey_bind h hI hident (htenant ▸ hT) fun st T' w'' h'' hins => ?_
  refine Service.ends_repo_bind (fun e' _ _ => ?_) fun _ => h''
  have hrotated := h''.exec (P := P) (e := e')
    (c := .repo (.keys (.rotate tenantID oldKeyID st.newID.toText))) ?_
  · refine free_bind (Service.only_repo trivial _) hrotated fun ident w h => ?_
    refine free_bind ?_ h fun _ w h => free_bind (only_writeAudit trivial) h fun _ _ h => h
    split
    · exact Service.only_repo trivial _
    · trivial
  · -- the old key is still the one that was read, the new one has its type and purpose
    intro K' key' hK' hkey' _
    obtain rfl : K = K' := Option.some.inj (hK.symm.trans hK')
    obtain rfl : key = key' :=
      Option.some.inj ((Table.get?_insert?_of_some hins hget).symm.trans hkey')
    exact ⟨_, _, UUID.ofText?_toText _, Table.get?_insert?_self hins, rfl, rfl, rfl⟩

theorem service_coherent {req : Service.Request Attrs} {v : World}
    (hown : RotatesOwn (.service req) v) (h : Coherent v.svc.db) :
    (req.program P).Ends (Service.exec P) (fun _ w => Coherent w.db) v.svc := by
  by_cases hfree : ∀ c, Service.MayCall req c → Free c
  · exact free_ends ((Service.program_only P req).mono hfree) h
  · cases req with
    | createIdentity input => exact Service.ends_respond (createIdentity_coherent input h)
    | generateKey input => exact Service.ends_respond (generateKey_coherent input h)
    | rotateKey tenantID identityID oldKeyID actorID =>
      exact Service.ends_respond (rotateKey_coherent h hown)
    | _ => exact absurd (fun c hc => by cases hc <;> trivial) hfree

end Services

/-! ### Ceremonies -/

section Ceremonies

variable {D : Deps Attrs} {w : World}

theorem plain_keeps {tenantID : String} (c : Op Attrs) (e : Env) (w : World)
    (hc : Plain tenantID c) (h : Coherent w.svc.db) : Coherent (exec D c e w).2.svc.db := by
  cases hc with
  | looks hc => rw [hc.exec]; exact h
  | event | signCount | lastUsed =>
    exact free_keeps (P := D.primitives) _ e.svc w.svc trivial h

theorem plain_ends {tenantID : String} {q : Ceremony Attrs α} (hq : q.Only (Plain tenantID))
    (h : Coherent w.svc.db) : q.Ends (exec D) (fun _ w => Coherent w.svc.db) w :=
  hq.ends plain_keeps (fun _ _ h => h) h

theorem looks_ends {q : Ceremony Attrs α} (hq : q.Only Looks) (h : Coherent w.svc.db) :
    q.Ends (exec D) (fun _ w => Coherent w.svc.db) w :=
  plain_ends (hq.mono fun _ hc => (.looks hc : Plain "" _)) h

theorem finishRegistration_coherent {tenantID identityID sessionID : String} {body : Bytes}
    (h : Coherent w.svc.db) :
    (finishRegistration D.primitives tenantID identityID sessionID body).Ends (exec D)
      (fun _ w => Coherent w.svc.db) w := by
  refine ends_getIdentity_bind (fun I row attrs hT hI hget _ => ?_) fun _ => h
  refine looks_bind (only_repo (.read rfl) _) (fun _ _ hw => hw ▸ h) fun existingCreds w hw => ?_
  rw [← hw] at h hget
  refine looks_bind (only_getChallenge (fun _ hc _ => .outer hc) _ _ _) (fun _ _ hw => hw ▸ h)
    fun session w hw => ?_
  rw [← hw] at h hget
  refine looks_bind ⟨.outer trivial, fun _ => trivial⟩ (fun _ _ hw => hw ▸ h) fun reply w hw => ?_
  rw [← hw] at h hget
  refine ends_orFail_bind (fun credential _ => ?_) fun _ _ => h
  refine ends_repo_bind (fun e createdKey _ => ?_) fun _ => h
  have hkey := h.exec (P := D.primitives) (e := e) (c := .repo (.keys (.create
    (registeredKey D.primitives tenantID identityID credential)))) ⟨I, row, hI, hget, hT⟩
  -- nothing that follows inserts or rotates a key
  have keeps : ∀ c (e : Env) (w : World), Registers D.primitives tenantID identityID c ∧
      (∀ k, c ≠ .svc (.repo (.keys (.create k)))) → Coherent w.svc.db →
      Coherent (exec D c e w).2.svc.db := by
    rintro c e w ⟨hc, hne⟩ h
    cases hc with
    | plain hc => exact plain_keeps c e w hc h
    | key credential => exact absurd rfl (hne _)
    | primaryKey | credential => exact free_keeps (P := D.primitives) _ e.svc w.svc trivial h
  refine Program.Only.ends keeps (fun _ _ h => h) (Program.Only.bind ?_ fun _ => ?_) hkey
  · split
    · exact only_repo ⟨.primaryKey _, fun _ h => nomatch h⟩ _
    · trivial
  · refine (only_repo ⟨.credential _ credential, fun _ h => nomatch h⟩ _).bind fun createdCred => ?_
    exact (only_dropError ⟨.plain (.event _ rfl), fun _ h => nomatch h⟩).bind fun _ => trivial

theorem registerComplete_coherent {ttl : Nat} {tenantID identityID sessionID : String}
    {r : HttpRequest} (h : Coherent w.svc.db) :
    (registerComplete D.primitives ttl tenantID identityID sessionID r).Ends (exec D)
      (fun _ w => Coherent w.svc.db) w := by
  unfold registerComplete
  split
  · exact h
  · refine (Program.ensures_attempt_bind _ _ _).mpr ((finishRegistration_coherent h).mono ?_)
    intro result w h
    cases result with
    | error e => exact h
    | ok result => exact looks_ends (openSession_looks ..) h

/-- A request that rotates only own keys leaves the tables coherent. -/
theorem request_coherent {req : Request Attrs} (hown : RotatesOwn req w) (h : Coherent w.svc.db) :
    (req.program D).Ends (exec D) (fun _ w => Coherent w.svc.db) w := by
  cases req with
  | service req =>
    refine ends_respond (Program.Ends.embed (servicePart D) (F := fun _ => True)
      (fun _ _ _ _ => trivial) trivial ((service_coherent hown h).mono ?_))
    rintro r _ h w - rfl
    exact h
  | beginRegistration => exact ends_respond (looks_ends
      ((beginRegistration_mute ..).mono fun _ hc => hc.1) h)
  | beginAssertion => exact ends_respond (looks_ends
      ((beginAssertion_mute ..).mono fun _ hc => hc.1) h)
  | registerBegin => exact ends_respond (looks_ends
      ((registerBegin_mute _).mono fun _ hc => hc.1) h)
  | loginBegin => exact ends_respond (looks_ends ((loginBegin_mute _).mono fun _ hc => hc.1) h)
  | finishRegistration => exact ends_respond (finishRegistration_coherent h)
  | registerComplete => exact ends_respond (registerComplete_coherent h)
  | finishAssertion => exact ends_respond (plain_ends
      ((finishAssertion_asserts ..).mono fun _ hc => hc.1) h)
  | loginComplete => exact ends_respond (plain_ends (loginComplete_plain ..) h)

end Ceremonies

/-- Requests one after another, from the empty database on. -/
abbrev Reachable (D : Deps Attrs) (ok : Request Attrs → World → Prop) (w : World) : Prop :=
  Program.Served (exec D) (Request.program D) ok .empty w

theorem coherent_empty : Coherent DB.empty where
  tenant _ _ h := nomatch h
  successor _ _ _ h := nomatch h

/-- In every run whose rotations concern keys of the identity they name, the tables are
coherent in every state reached. -/
theorem reachable_coherent (D : Deps Attrs) (w : World) (h : Reachable D RotatesOwn w) :
    Coherent w.svc.db :=
  h.invariant (fun _ _ hown h => request_coherent hown h) coherent_empty

/-! ### Fixed runs -/

def newTenant (name : String) : Request Bytes :=
  .service (.createTenant { name, slug := name, tier := .standard, dataRegion := "" })

def newIdentity (tenant : Nat) (handle : String) : Request Bytes :=
  .service (.createIdentity
    { tenantID := (UUID.ofNat tenant).toText, type := .human, displayName := handle, handle,
      createdBy := none, attributes := [] })

/-- Tenant 10 with identity 31 and its key 33. -/
def oneTenant : List (Request Bytes × (Nat → Env)) :=
  [(newTenant "acme", calmFrom 10), (newIdentity 10 "ada", calmFrom 30)]

/-- Besides, tenant 20 with identity 41, whose key 43 is revoked. -/
def twoTenants : List (Request Bytes × (Nat → Env)) :=
  oneTenant ++ [(newTenant "beta", calmFrom 20), (newIdentity 20 "bob", calmFrom 40),
    (.service (.revokeKey (UUID.ofNat 20).toText (UUID.ofNat 43).toText ""), calmFrom 45)]

abbrev after (steps : List (Request Bytes × (Nat → Env))) : World :=
  Program.serve (exec plainDeps) (Request.program plainDeps) steps .empty

def keyOwner (k : Nat) (w : World) : Option (UUID × UUID) :=
  (w.svc.db.identityKeys.get? (.ofNat k)).map fun key => (key.tenantID, key.identityID)

def tenantOf (i : Nat) (w : World) : Option UUID :=
  (w.svc.db.identities.get? (.ofNat i)).map IdentityRow.tenantID

def successorOf (k : Nat) (w : World) : Option UUID :=
  (w.svc.db.identityKeys.get? (.ofNat k)).bind KeyRow.rotatedTo

/-- Identity 31 asks for the rotation of its own key 33. -/
def rotateOwn : Request Bytes :=
  .service (.rotateKey (UUID.ofNat 10).toText (UUID.ofNat 31).toText (UUID.ofNat 33).toText "")

theorem rotateOwn_coherent :
    let w := after twoTenants
    let w' := ((rotateOwn.program plainDeps).run (exec plainDeps) (calmFrom 50) w).2
    keyOwner 33 w = some (.ofNat 10, .ofNat 31) ∧ keyOwner 43 w' = some (.ofNat 20, .ofNat 41) ∧
      Coherent w'.svc.db := by
  intro w w'
  have howners : keyOwner 33 w = some (.ofNat 10, .ofNat 31) ∧
      keyOwner 43 w' = some (.ofNat 20, .ofNat 41) := by
    decide +kernel
  have hw : Reachable plainDeps RotatesOwn w := by
    refine (Program.Served.refl _).serve fun step hstep w => ?_
    simp only [twoTenants, oneTenant, List.cons_append, List.nil_append, List.mem_cons,
      List.not_mem_nil, or_false] at hstep
    rcases hstep with rfl | rfl | rfl | rfl | rfl <;> trivial
  refine ⟨howners.1, howners.2, reachable_coherent plainDeps w' (hw.request rotateOwn _ ?_)⟩
  intro K key hK hkey _
  obtain rfl : UUID.ofNat 33 = K := Option.some.inj ((UUID.ofText?_toText _).symm.trans hK)
  obtain ⟨key', hkey', howner⟩ := Option.map_eq_some_iff.mp howners.1
  obtain rfl : key = key' := Option.some.inj (hkey.symm.trans hkey')
  obtain ⟨-, hI⟩ := Prod.mk.inj howner
  rw [UUID.ofText?_toText, hI]

/-- A rotation of the key of one tenant that names an identity of another: the new key
carries the tenant of the first and the identity of the second. -/
theorem rotation_crosses_tenants :
    let w := after (twoTenants ++ [(.service (.rotateKey (UUID.ofNat 10).toText
      (UUID.ofNat 41).toText (UUID.ofNat 33).toText ""), calmFrom 50)])
    Reachable plainDeps (fun _ _ => True) w ∧
      keyOwner 53 w = some (.ofNat 10, .ofNat 41) ∧ tenantOf 41 w = some (.ofNat 20) ∧
      keyOwner 33 w = some (.ofNat 10, .ofNat 31) ∧ successorOf 33 w = some (.ofNat 53) ∧
      ¬ Coherent w.svc.db := by
  intro w
  -- one evaluation of the run for all four
  have hrows : keyOwner 53 w = some (.ofNat 10, .ofNat 41) ∧ tenantOf 41 w = some (.ofNat 20) ∧
      keyOwner 33 w = some (.ofNat 10, .ofNat 31) ∧ successorOf 33 w = some (.ofNat 53) := by
    decide +kernel
  obtain ⟨hkey, hident, hold, hsuccessor⟩ := hrows
  refine ⟨(Program.Served.refl _).serve fun _ _ _ => trivial, hkey, hident, hold, hsuccessor,
    fun h => ?_⟩
  obtain ⟨key, hget, howner⟩ := Option.map_eq_some_iff.mp hkey
  obtain ⟨ident, hident', htenant⟩ := h.tenant _ key hget
  obtain ⟨hT, hI⟩ := Prod.mk.inj howner
  have hten : tenantOf 41 w = some key.tenantID := by
    rw [tenantOf, ← hI, hident', ← htenant]
    rfl
  rw [hT, hident] at hten
  exact absurd (Option.some.inj hten) (by decide)

end Verion.Auth
