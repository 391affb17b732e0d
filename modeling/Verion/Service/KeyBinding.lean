import Verion.Service.Runs

/-!
# Active identities and their primary keys

An identity is activated once its first key is stored and bound to it. Here: which
calls keep every active identity bound to a trusted key of its own.
-/

namespace Verion.Service

open Calls Postgres

variable {Attrs α β : Type}

/-- Key `K` is a trusted key of identity `I`. -/
def TrustedKey (db : DB) (I K : UUID) : Prop :=
  ∃ key, db.identityKeys.get? K = some key ∧ key.identityID = I ∧ key.status.isTrusted = true

def Bound (db : DB) (I : UUID) (row : IdentityRow) : Prop :=
  ∃ K, row.primaryKeyID = some K ∧ TrustedKey db I K

def ActiveBound (db : DB) : Prop :=
  ∀ I row, db.identities.get? I = some row → row.status = .active → Bound db I row

/-- The call takes the trust from key `K`. -/
def Distrusts (db : DB) (K : UUID) : Op Attrs → Prop
  | .repo (.keys (.revoke tenantID keyID)) | .repo (.keys (.markCompromised tenantID keyID)) =>
    UUID.ofText? keyID = some K ∧
      ∃ key, db.identityKeys.get? K = some key ∧ UUID.ofText? tenantID = some key.tenantID
  | _ => False

/-- What the calls that concern the binding have to find. -/
def Binds (db : DB) : Op Attrs → Prop
  | .repo (.identities (.create ident)) => ident.status ≠ .active
  | .repo (.identities (.updateStatus tenantID id status)) => status = .active → ∀ I row,
      UUID.ofText? id = some I → db.identities.get? I = some row →
      UUID.ofText? tenantID = some row.tenantID → Bound db I row
  | .repo (.identities (.setPrimaryKey _ id keyID)) => ∀ I K, UUID.ofText? id = some I →
      UUID.ofText? keyID = some K → TrustedKey db I K
  | c => ∀ K, Distrusts db K c → ∀ I row, db.identities.get? I = some row →
      row.status = .active → row.primaryKeyID ≠ some K

/-! ### One call -/

section Step

variable {P : Primitives Attrs} {c : Op Attrs} {e : Env} {w : World} {I K : UUID}

theorem TrustedKey.exec (h : TrustedKey w.db I K) (hc : ¬ Distrusts w.db K c) :
    TrustedKey (exec P c e w).2.db I K := by
  obtain ⟨key, hkey, hI, htrusted⟩ := h
  obtain ⟨key', hkey', hrow⟩ := (exec_keyStep P c e w).row hkey
  refine ⟨key', hkey', hrow.keeps.1.trans hI, ?_⟩
  generalize hev : (⟨c, (Service.exec P c e w).1⟩ : Ev Attrs) = ev at hrow
  cases hrow with
  | same => exact htrusted
  | rotated => rfl
  | revoked tenantID keyID _ hT hK | compromised tenantID keyID _ hT hK =>
    obtain rfl : c = _ := congrArg Event.op hev
    exact absurd ⟨hK, key, hkey, hT⟩ hc

/-- A binding call finds no active identity whose key it takes the trust from. -/
theorem Binds.keeps_trust (hc : Binds w.db c) {row : IdentityRow}
    (hrow : w.db.identities.get? I = some row) (hactive : row.status = .active)
    (hK : row.primaryKeyID = some K) : ¬ Distrusts w.db K c := by
  intro hd
  unfold Distrusts at hd
  split at hd
  · exact hc K hd I row hrow hactive hK
  · exact hc K hd I row hrow hactive hK
  · exact hd

theorem not_distrusts_identities (db : DB) (K : UUID) (c : IdentityCall Attrs) :
    ¬ Distrusts db K (.repo (.identities c)) := id

/-- One call keeps the binding of every active identity. -/
theorem ActiveBound.exec (h : ActiveBound w.db) (hc : Binds w.db c) :
    ActiveBound (exec P c e w).2.db := by
  intro I row' hrow' hactive
  have hstep := exec_identityStep P c e w
  cases hrow : w.db.identities.get? I with
  | none =>
    obtain ⟨ident, st, T, by_, -, -, rfl, hev⟩ := hstep.new_row hrow hrow'
    obtain rfl : c = _ := congrArg Event.op hev
    exact absurd hactive hc
  | some row =>
    obtain ⟨row'', hrow'', hrs⟩ := hstep.row hrow
    obtain rfl : row'' = row' := Option.some.inj (hrow''.symm.trans hrow')
    generalize hev : (⟨c, (Service.exec P c e w).1⟩ : Ev Attrs) = ev at hrs
    cases hrs with
    | same =>
      obtain ⟨K, hK, htrusted⟩ := h I _ hrow hactive
      exact ⟨K, hK, htrusted.exec (hc.keeps_trust hrow hactive hK)⟩
    | updated ident now a _ hT hI ha hlt hv =>
      obtain ⟨K, hK, htrusted⟩ := h I row hrow hactive
      exact ⟨K, hK, htrusted.exec (hc.keeps_trust hrow hactive hK)⟩
    | statusWritten tenantID id status now _ hT hI =>
      obtain rfl : c = _ := congrArg Event.op hev
      obtain ⟨K, hK, htrusted⟩ := hc hactive I row hI hrow hT
      exact ⟨K, hK, htrusted.exec (not_distrusts_identities _ _ _)⟩
    | primaryKeySet tenantID id keyID now K _ hT hI hK =>
      obtain rfl : c = _ := congrArg Event.op hev
      exact ⟨K, rfl, (hc I K hI hK).exec (not_distrusts_identities _ _ _)⟩

end Step

/-! ### Requests -/

/-- Calls that keep the bindings in every state. -/
def Unbinding : Op Attrs → Prop
  | .repo (.identities (.create ident)) => ident.status = .active
  | .repo (.identities (.updateStatus _ _ status)) => status = .active
  | .repo (.identities (.setPrimaryKey ..)) | .repo (.keys (.revoke ..))
  | .repo (.keys (.markCompromised ..)) => True
  | _ => False

/-- No primary key of an active identity is revoked or marked, and an identity is
reactivated only when it is bound to a trusted key. -/
def KeepsBound : Request Attrs → World → Prop
  | .revokeKey tenantID keyID _, w | .markCompromised tenantID keyID, w => ∀ K,
      Distrusts w.db K (.repo (.keys (.revoke tenantID keyID)) : Op Attrs) → ∀ I row,
      w.db.identities.get? I = some row → row.status = .active → row.primaryKeyID ≠ some K
  | .reactivateIdentity tenantID id _, w => ∀ I row, UUID.ofText? id = some I →
      w.db.identities.get? I = some row → UUID.ofText? tenantID = some row.tenantID →
      row.status.isTerminal = false → Bound w.db I row
  | _, _ => True

section Requests

variable {P : Primitives Attrs} {w : World}

theorem not_distrusts_of_free {c : Op Attrs} (hc : ¬ Unbinding c) (db : DB) (K : UUID) :
    ¬ Distrusts db K c := by
  intro hd
  unfold Distrusts at hd
  split at hd
  · exact hc trivial
  · exact hc trivial
  · exact hd

theorem binds_of_free {c : Op Attrs} (hc : ¬ Unbinding c) (db : DB) : Binds db c := by
  unfold Binds
  split
  · exact hc
  · exact fun hactive => absurd hactive hc
  · exact absurd trivial hc
  · exact fun K hd => absurd hd (not_distrusts_of_free hc db K)

theorem free_keepsBound (c : Op Attrs) (e : Env) (w : World) (hc : ¬ Unbinding c)
    (h : ActiveBound w.db) : ActiveBound (exec P c e w).2.db :=
  h.exec (binds_of_free hc _)

theorem free_endsBound {q : Svc Attrs α} (hq : q.Only fun c => ¬ Unbinding c)
    (h : ActiveBound w.db) : q.Ends (exec P) (fun _ w => ActiveBound w.db) w :=
  hq.ends free_keepsBound (fun _ _ h => h) h

theorem free_bindBound {q : Svc Attrs α} {f : α → Svc Attrs β} (hq : q.Only fun c => ¬ Unbinding c)
    (h : ActiveBound w.db)
    (hf : ∀ a w', ActiveBound w'.db → (f a).Ends (exec P) (fun _ w => ActiveBound w.db) w') :
    (q >>= f).Ends (exec P) (fun _ w => ActiveBound w.db) w :=
  hq.ends_bind free_keepsBound (fun _ _ h => h) h hf

/-- Binding and activating an identity that has a trusted key. -/
theorem activate_bound {tenantID id keyID : String} {I K : UUID} {row : IdentityRow}
    {f g : Error → Error} {rest : Svc Attrs α} (h : ActiveBound w.db)
    (hT : UUID.ofText? tenantID = some row.tenantID) (hI : UUID.ofText? id = some I)
    (hK : UUID.ofText? keyID = some K) (hrow : w.db.identities.get? I = some row)
    (hkey : TrustedKey w.db I K) (hrest : rest.Only fun c => ¬ Unbinding c) :
    ((repo (.identities (.setPrimaryKey tenantID id keyID)) f >>= fun _ =>
      repo (.identities (.updateStatus tenantID id .active)) g >>= fun _ => rest) :
      Svc Attrs α).Ends (exec P) (fun _ w => ActiveBound w.db) w := by
  have hset : Binds w.db (.repo (.identities (.setPrimaryKey tenantID id keyID)) : Op Attrs) := by
    intro I' K' hI' hK'
    rw [← Option.some.inj (hI.symm.trans hI'), ← Option.some.inj (hK.symm.trans hK')]
    exact hkey
  refine ends_repo_bind (fun e _ hok => ?_) fun _ => h
  obtain ⟨K', now, hK', hrow'⟩ := exec_setPrimaryKey_ok hok hT hI hrow
  obtain rfl : K = K' := Option.some.inj (hK.symm.trans hK')
  have h' := h.exec (P := P) (e := e) hset
  have hkey' := hkey.exec (P := P) (e := e)
    (not_distrusts_identities w.db K (.setPrimaryKey tenantID id keyID))
  generalize (exec P (.repo (.identities (.setPrimaryKey tenantID id keyID))) e w).2 = w' at *
  refine ends_repo_bind (fun e' _ _ => free_endsBound hrest (h'.exec ?_)) fun _ => h'
  intro _ I' row' hI' hrow'' _
  obtain rfl : I = I' := Option.some.inj (hI.symm.trans hI')
  cases hrow'.symm.trans hrow''
  exact ⟨K, rfl, hkey'⟩

theorem createIdentity_bound (input : CreateIdentityInput Attrs) (h : ActiveBound w.db) :
    (createIdentity P input).Ends (exec P) (fun _ w => ActiveBound w.db) w := by
  refine free_bindBound (only_orFail _ _) h fun _ w h => ?_
  refine free_bindBound (only_repo not_false _) h fun tenant w h => ?_
  refine free_bindBound (only_refuseIf _ _) h fun _ w h => ?_
  refine free_bindBound (only_encryptAttributes (fun _ => not_false) _) h fun enc w h => ?_
  refine free_bindBound (only_orFail _ _) h fun encryptedAttrs w h => ?_
  refine ends_insertIdentity_bind (fun e I row w' hw' hget hid _ hT => ?_) fun _ => h
  replace h : ActiveBound w'.db := hw' ▸ free_keepsBound _ e w (nomatch ·) h
  refine ends_generateKey_bind (fun generated w hdb => ?_) fun _ w hdb => hdb ▸ h
  rw [← hdb] at h hget
  refine ends_insertKey_bind (fun e st I' T w' hw' hI' _ hins hids => ?_) fun _ => h
  replace h : ActiveBound w'.db := hw' ▸ free_keepsBound _ e w not_false h
  have hI : UUID.ofText? (scanIdentity row : Identity Attrs).id = some I :=
    hid ▸ UUID.ofText?_toText row.id
  obtain rfl : I' = I := Option.some.inj (hI'.symm.trans hI)
  refine activate_bound h hT hI (UUID.ofText?_toText _) (hids ▸ hget)
    ⟨_, Table.get?_insert?_self hins, rfl, rfl⟩ ?_
  exact (only_writeAudit not_false).bind fun _ => trivial

theorem rotateKey_bound {tenantID identityID oldKeyID actorID : String} (h : ActiveBound w.db) :
    (rotateKey tenantID identityID oldKeyID actorID : Svc Attrs IdentityKey).Ends (exec P)
      (fun _ w => ActiveBound w.db) w := by
  refine free_bindBound (only_repo not_false _) h fun oldKey w h => ?_
  refine ends_now_bind fun now => ?_
  refine free_bindBound (only_refuseIf _ _) h fun _ w h => ?_
  refine ends_generateKeyPair_bind (fun algorithm generated w hdb => ?_) fun _ w hdb => hdb ▸ h
  rw [← hdb] at h
  refine ends_insertKey_bind (fun e st I T w' hw' hI _ hins _ => ?_) fun _ => h
  replace h : ActiveBound w'.db := hw' ▸ free_keepsBound _ e w not_false h
  -- the new key is there and trusted until the identity is bound to it
  have hkey : TrustedKey w'.db I st.newID := ⟨_, Table.get?_insert?_self hins, rfl, rfl⟩
  have keeps : ∀ (c : Op Attrs) (e : Env) (w : World), ¬ Unbinding c →
      ActiveBound w.db ∧ TrustedKey w.db I st.newID →
      ActiveBound (exec P c e w).2.db ∧ TrustedKey (exec P c e w).2.db I st.newID :=
    fun c e w hc h => ⟨free_keepsBound c e w hc h.1, h.2.exec (not_distrusts_of_free hc _ _)⟩
  refine (only_repo not_false _).ends_bind keeps (fun _ _ h => h.1) ⟨h, hkey⟩ fun _ w h => ?_
  refine (only_repo not_false _).ends_bind keeps (fun _ _ h => h.1) h fun ident w h => ?_
  have hlast : ∀ event key, (writeAudit event >>= fun _ => .ret key : Svc Attrs IdentityKey).Only
      fun c => ¬ Unbinding c := fun _ _ => (only_writeAudit not_false).bind fun _ => trivial
  split
  · refine ends_repo_bind (fun e _ _ => free_endsBound (hlast _ _) (h.1.exec ?_)) fun _ => h.1
    intro I' K' hI' hK'
    rw [← Option.some.inj (hI.symm.trans hI'),
      ← Option.some.inj ((UUID.ofText?_toText _).symm.trans hK')]
    exact h.2
  · exact free_endsBound (hlast _ _) h.1

theorem reactivateIdentity_bound {tenantID id actorID : String} (h : ActiveBound w.db)
    (hbound : ∀ I row, UUID.ofText? id = some I → w.db.identities.get? I = some row →
      UUID.ofText? tenantID = some row.tenantID → row.status.isTerminal = false →
      Bound w.db I row) :
    (reactivateIdentity tenantID id actorID : Svc Attrs Unit).Ends (exec P)
      (fun _ w => ActiveBound w.db) w := by
  refine ends_repo_bind (fun e ident hident => ?_) fun _ => h
  obtain ⟨T, I, row, hT, hI, hget, rfl, rfl⟩ := getByID_ok hident
  rw [exec_read rfl]
  refine ends_refuseIf_bind h fun hlive => ?_
  refine ends_repo_bind (fun e _ _ => free_endsBound (only_writeAudit not_false) (h.exec ?_))
    fun _ => h
  intro _ I' row' hI' hrow' hT'
  obtain rfl : I = I' := Option.some.inj (hI.symm.trans hI')
  cases hget.symm.trans hrow'
  exact hbound I row hI hget hT ((Bool.not_eq_true _).mp hlive)

theorem revokeKey_bound {tenantID keyID actorID : String} (h : ActiveBound w.db)
    (hkeeps : Binds w.db (.repo (.keys (.revoke tenantID keyID)) : Op Attrs)) :
    (revokeKey tenantID keyID actorID : Svc Attrs Unit).Ends (exec P) (fun _ w => ActiveBound w.db)
      w := by
  refine ends_repo_bind (fun e _ _ => ?_) fun _ => h
  rw [exec_read rfl]
  exact ends_repo_bind (fun e _ _ => free_endsBound (only_writeAudit not_false) (h.exec hkeeps))
    fun _ => h

/-- A request that meets the condition keeps every active identity bound. -/
theorem request_bound {req : Request Attrs} (hok : KeepsBound req w) (h : ActiveBound w.db) :
    (req.program P).Ends (exec P) (fun _ w => ActiveBound w.db) w := by
  by_cases hfree : ∀ c, MayCall req c → ¬ Unbinding c
  · exact free_endsBound ((program_only P req).mono hfree) h
  · cases req with
    | createIdentity input => exact ends_respond (createIdentity_bound input h)
    | rotateKey => exact ends_respond (rotateKey_bound h)
    | reactivateIdentity => exact ends_respond (reactivateIdentity_bound h hok)
    | revokeKey => exact ends_respond (revokeKey_bound h hok)
    | markCompromised =>
      exact ends_respond (ends_repo (fun _ _ _ => h.exec hok) fun _ => h)
    | _ => exact absurd (fun c hc => by cases hc <;> exact (nomatch ·)) hfree

end Requests

/-- In every run whose requests meet the condition, each active identity has a trusted
primary key of its own in every state reached. -/
theorem reachable_bound (P : Primitives Attrs) (w : World) (h : Reachable P KeepsBound w) :
    ActiveBound w.db :=
  h.invariant (fun _ _ hok h => request_bound hok h) fun _ _ hrow => nomatch hrow

/-! ### Fixed runs -/

def adaInput : CreateIdentityInput Bytes :=
  { tenantID := (UUID.ofNat 10).toText, type := .human, displayName := "Ada", handle := "ada",
    createdBy := none, attributes := [] }

/-- Tenant 10 is created, then identity 31 with key 33; `drawn` is what the random source
yields for the key. -/
def creation (drawn : Option Bytes) : List (Request Bytes × (Nat → Env)) :=
  [(.createTenant { name := "acme", slug := "acme", tier := .standard, dataRegion := "" },
    fun n => calm (10 + n)),
   (.createIdentity adaInput, fun n => { calm (30 + n) with secret := drawn })]

abbrev servedAfter (steps : List (Request Bytes × (Nat → Env))) : World :=
  Program.serve (exec plainPrimitives) (Request.program plainPrimitives) steps
    ⟨.empty, fun _ => none⟩

/-- Status and primary key of an identity, and the status of that key. -/
def bindingOf (i : Nat) (w : World) : Option (IdentityStatus × Option UUID × Option KeyStatus) :=
  (w.db.identities.get? (.ofNat i)).map fun row =>
    (row.status, row.primaryKeyID, (row.primaryKeyID.bind w.db.identityKeys.get?).map KeyRow.status)

/-- A second key of identity 31, for encryption: key 52. -/
def spareKey : Request Bytes × (Nat → Env) :=
  (.generateKey
    { tenantID := (UUID.ofNat 10).toText, identityID := (UUID.ofNat 31).toText,
      keyType := .ed25519, purpose := .encryption, actorID := none },
    fun n => calm (50 + n))

def revokeSpareKey : Request Bytes × (Nat → Env) :=
  (.revokeKey (UUID.ofNat 10).toText (UUID.ofNat 52).toText "", fun n => calm (60 + n))

theorem spareKey_revoked_bound :
    let w := servedAfter (creation (some [7]) ++ [spareKey])
    let w' := ((revokeSpareKey.1.program plainPrimitives).run (exec plainPrimitives)
      revokeSpareKey.2 w).2
    bindingOf 31 w' = some (.active, some (.ofNat 33), some .active) ∧
      (w'.db.identityKeys.get? (.ofNat 52)).map KeyRow.status = some .revoked ∧
      ActiveBound w'.db := by
  intro w w'
  have hrows : (∀ row ∈ w.db.identities.rows, row.primaryKeyID ≠ some (.ofNat 52)) ∧
      bindingOf 31 w' = some (.active, some (.ofNat 33), some .active) ∧
      (w'.db.identityKeys.get? (.ofNat 52)).map KeyRow.status = some .revoked := by
    decide +kernel
  obtain ⟨hprimary, hbinding, hspare⟩ := hrows
  have hw : Reachable plainPrimitives KeepsBound w := by
    refine (Program.Served.refl _).serve fun step hstep w => ?_
    simp only [creation, List.cons_append, List.nil_append, List.mem_cons, List.not_mem_nil,
      or_false] at hstep
    rcases hstep with rfl | rfl | rfl <;> trivial
  refine ⟨hbinding, hspare, reachable_bound plainPrimitives w' (hw.request _ _ ?_)⟩
  rintro K ⟨hK, -⟩ I row hrow -
  obtain rfl : UUID.ofNat 52 = K := Option.some.inj ((UUID.ofText?_toText _).symm.trans hK)
  exact hprimary row (Table.mem_of_get? hrow)

theorem not_activeBound {i : Nat} {w : World} {k : Option UUID} {s : Option KeyStatus}
    (h : bindingOf i w = some (.active, k, s)) (hs : ∀ t, s = some t → t.isTrusted = false) :
    ¬ ActiveBound w.db := by
  intro hbound
  obtain ⟨row, hrow, hbinding⟩ := Option.map_eq_some_iff.mp h
  obtain ⟨hactive, hk⟩ := Prod.mk.inj hbinding
  obtain ⟨rfl, rfl⟩ := Prod.mk.inj hk
  obtain ⟨K, hK, key, hkey, -, htrusted⟩ := hbound _ row hrow hactive
  have hfalse := hs key.status (by rw [hK, Option.bind_some, hkey]; rfl)
  exact Bool.false_ne_true (hfalse.symm.trans htrusted)

/-- The revocation of the primary key of an active identity, and the reactivation of an
identity that a failed creation left pending. -/
theorem active_without_trusted_key :
    let revoked := servedAfter (creation (some [7]) ++
      [(.revokeKey (UUID.ofNat 10).toText (UUID.ofNat 33).toText (UUID.ofNat 31).toText,
        fun n => calm (50 + n))])
    let keyless := servedAfter (creation none ++
      [(.reactivateIdentity (UUID.ofNat 10).toText (UUID.ofNat 31).toText "",
        fun n => calm (50 + n))])
    (Reachable plainPrimitives (fun _ _ => True) revoked ∧
      bindingOf 31 revoked = some (.active, some (.ofNat 33), some .revoked) ∧
      ¬ ActiveBound revoked.db) ∧
    (Reachable plainPrimitives (fun _ _ => True) keyless ∧
      bindingOf 31 keyless = some (.active, none, none) ∧ ¬ ActiveBound keyless.db) := by
  intro revoked keyless
  have hrevoked : bindingOf 31 revoked = some (.active, some (.ofNat 33), some .revoked) := by
    decide +kernel
  have hkeyless : bindingOf 31 keyless = some (.active, none, none) := by decide +kernel
  refine ⟨⟨(Program.Served.refl _).serve fun _ _ _ => trivial, hrevoked,
    not_activeBound hrevoked ?_⟩,
    (Program.Served.refl _).serve fun _ _ _ => trivial, hkeyless, not_activeBound hkeyless ?_⟩
  · rintro _ ⟨⟩
    rfl
  · rintro _ ⟨⟩

end Verion.Service
