import Verion.Service.Effects
import Mathlib.Data.Fin.VecNotation

/-!
# Key store and key table

The services store a private key under a name and later insert the row whose
`key_ref` is made from it. `KeyStore.Store` overwrites, and the name is the same
for every key of one type that an identity has, so a second key of the type takes
the place of the first one's private half. `FreshKeyName` is the condition under
which store and table agree.
-/

namespace Verion.Service

open Calls Postgres

variable {Attrs ι : Type}

/-! ### What one call does to the store -/

abbrev PrivateKeys := String → Option PrivateKey

inductive StoreStep (P : Primitives Attrs) : Ev Attrs → PrivateKeys → PrivateKeys → Prop where
  | quiet (ev : Ev Attrs) (keys : PrivateKeys)
      (hg : ∀ algorithm keyID generated, ev ≠ ⟨.generateKey algorithm keyID, .ok generated⟩) :
      StoreStep P ev keys keys
  | stored (algorithm : KeyAlgorithm) (keyID : String) (key : PrivateKey) (jwk : Bytes)
      (fingerprint : String) (keys : PrivateKeys) :
      StoreStep P ⟨.generateKey algorithm keyID,
        .ok ⟨P.publicKeyDER key, jwk, keyRefOf keyID, fingerprint⟩⟩ keys
        (fun r => if r = keyRefOf keyID then some key else keys r)
  | deleted (keyRef : String) (keys : PrivateKeys) :
      StoreStep P ⟨.deleteKey keyRef, .ok ()⟩ keys (fun r => if r = keyRef then none else keys r)

theorem StoreStep.of_eq {P : Primitives Attrs} {c : Op Attrs} {r : c.Reply}
    {keys keys' : PrivateKeys}
    (h : keys' = keys) (hg : ∀ algorithm keyID, c ≠ .generateKey algorithm keyID) :
    StoreStep P ⟨c, r⟩ keys keys' := by
  subst h
  exact .quiet _ _ fun algorithm keyID _ heq => hg algorithm keyID (congrArg Event.op heq)

theorem storeStep_generate (P : Primitives Attrs) (algorithm : KeyAlgorithm) (keyID : String)
    (secret : Option Bytes) (w : World) :
    StoreStep P ⟨.generateKey algorithm keyID,
      (generateAndStore P algorithm keyID secret w).1⟩ w.keys
      (generateAndStore P algorithm keyID secret w).2.keys := by
  cases secret with
  | none => exact .quiet _ _ fun _ _ _ heq => by cases heq
  | some bytes =>
    by_cases hid : keyID = ""
    · simp only [generateAndStore, store, hid, if_true]
      exact .quiet _ _ fun _ _ _ heq => by cases heq
    · simp only [generateAndStore, store, hid, if_false]
      exact .stored algorithm keyID ⟨algorithm, bytes⟩ _ _ w.keys

theorem exec_storeStep (P : Primitives Attrs) (c : Op Attrs) (e : Env) (w : World) :
    StoreStep P ⟨c, (exec P c e w).1⟩ w.keys (exec P c e w).2.keys := by
  cases c with
  | repo c => exact .of_eq rfl fun _ _ h => by cases h
  | generateKey algorithm keyID => cases algorithm <;> exact storeStep_generate P _ keyID e.secret w
  | deleteKey keyRef =>
    show StoreStep P ⟨.deleteKey keyRef, (delete keyRef w).1⟩ w.keys (delete keyRef w).2.keys
    by_cases hp : hasKeyRefPrefix keyRef = true
    · simp only [delete, hp, if_true]
      exact .deleted keyRef w.keys
    · simp only [delete, hp]
      exact .of_eq rfl fun _ _ h => by cases h
  | encrypt plaintext => exact .of_eq rfl fun _ _ h => by cases h
  | now => exact .of_eq rfl fun _ _ h => by cases h

/-- A name that nothing is stored under keeps its key, or loses it to a `Delete`. -/
theorem StoreStep.other {P : Primitives Attrs} {ev : Ev Attrs} {keys keys' : PrivateKeys}
    (h : StoreStep P ev keys keys') {keyRef : String}
    (hother : ∀ algorithm keyID g, ev = ⟨.generateKey algorithm keyID, .ok g⟩ →
      keyRef ≠ keyRefOf keyID) :
    keys' keyRef = keys keyRef ∨ (keys' keyRef = none ∧ ∃ r, ev = ⟨.deleteKey keyRef, r⟩) := by
  cases h with
  | quiet => exact .inl rfl
  | stored algorithm keyID key jwk fingerprint => exact .inl (if_neg (hother _ _ _ rfl))
  | deleted ref =>
    by_cases href : keyRef = ref
    · exact .inr ⟨if_pos href, .ok (), by rw [href]⟩
    · exact .inl (if_neg href)

theorem generated_keyRef {P : Primitives Attrs} {c : Op Attrs} {e : Env} {w : World}
    {algorithm : KeyAlgorithm} {keyID : String} {g : GeneratedKey}
    (h : (⟨c, (exec P c e w).1⟩ : Ev Attrs) = ⟨.generateKey algorithm keyID, .ok g⟩) :
    g.keyRef = keyRefOf keyID ∧ ∃ key, (exec P c e w).2.keys (keyRefOf keyID) = some key ∧
      P.publicKeyDER key = g.publicKeyDER := by
  have hstep := exec_storeStep P c e w
  rw [h] at hstep
  generalize (exec P c e w).2.keys = keys' at hstep ⊢
  generalize w.keys = keys at hstep
  generalize hev : (⟨.generateKey algorithm keyID, .ok g⟩ : Ev Attrs) = ev at hstep
  cases hstep with
  | quiet _ _ hg => exact absurd hev.symm (hg _ _ _)
  | stored algorithm keyID key jwk fingerprint => cases hev; exact ⟨rfl, key, if_pos rfl, rfl⟩
  | deleted => cases hev

/-! ### The condition -/

section Condition

variable [DecidableEq ι]

def createdKeyID : Ev Attrs → Option UUID
  | ⟨.repo (.keys (.create _)), .ok x⟩ => UUID.ofText? x.id
  | _ => none

/-- Key `K` was inserted by one of the requests. -/
def CreatedKey (s : Requests ι Attrs) (K : UUID) : Prop :=
  K ∈ s.log.filterMap fun x => createdKeyID x.2

instance (s : Requests ι Attrs) (K : UUID) : Decidable (CreatedKey s K) :=
  inferInstanceAs (Decidable (K ∈ _))

/-- Request `j` has stored a private key and not yet tried to insert its row. -/
def Unrecorded (s : Requests ι Attrs) (j : ι) (generated : GeneratedKey) : Prop :=
  ∃ algorithm keyID rest,
    s.hist j = ⟨.generateKey algorithm keyID, .ok generated⟩ :: rest

/-- A private key is stored under a name that no row made by the requests refers to
and that no request has stored under without having got to its row. -/
def FreshKeyName (s : Requests ι Attrs) (i : ι) (_ : Env) : Prop :=
  ∀ algorithm keyID k, s.prog i = .call (.generateKey algorithm keyID) k →
    (∀ K row, CreatedKey s K → s.world.db.identityKeys.get? K = some row →
      row.keyRef ≠ keyRefOf keyID) ∧
    ∀ j generated, Unrecorded s j generated → generated.keyRef ≠ keyRefOf keyID

end Condition

/-! ### Every request keeps to the protocol -/

/-- The key to insert is the one generated by the call before. -/
def JustGenerated (h : List (Ev Attrs)) : Op Attrs → Prop
  | .repo (.keys (.create key)) => ∃ algorithm keyID generated rest,
      h = ⟨.generateKey algorithm keyID, .ok generated⟩ :: rest ∧
      key.keyRef = generated.keyRef ∧ key.publicKey = some generated.publicKeyDER
  | _ => True

def keyStoreProtocol (α : Type) : Protocol (@Op.Reply Attrs) Error α where
  call h c := JustGenerated h c
  done _ _ := True

def NoKeyInsert : Op Attrs → Prop
  | .repo (.keys (.create _)) => False
  | _ => True

theorem NoKeyInsert.call {α : Type} (h : List (Ev Attrs)) (c : Op Attrs) (hc : NoKeyInsert c) :
    (keyStoreProtocol α).call h c := by
  show JustGenerated h c
  unfold JustGenerated
  split
  · exact absurd hc not_false
  · trivial

section Obeys

variable (P : Primitives Attrs) {α : Type}

theorem obeys_noKeyInsert {q : Svc Attrs α} (hq : q.Only NoKeyInsert) (h : List (Ev Attrs)) :
    q.Obeys (exec P) (keyStoreProtocol α) h :=
  hq.obeys NoKeyInsert.call (fun _ _ => trivial) h

theorem obeys_noKeyInsert_bind {β : Type} {q : Svc Attrs β} {f : β → Svc Attrs α}
    {h : List (Ev Attrs)} (hq : q.Only NoKeyInsert)
    (hf : ∀ a h, (f a).Obeys (exec P) (keyStoreProtocol α) h) :
    (q >>= f).Obeys (exec P) (keyStoreProtocol α) h :=
  hq.obeys_bind NoKeyInsert.call (fun _ _ => trivial) fun a h' _ _ => hf a h'

/-- A generated key that is inserted at once, and nothing inserted after it. -/
theorem obeys_generateKeyPair_insert {tenantID identityID : String} {keyType : KeyType}
    {purpose : KeyPurpose} {onError : Error → Error} {f : IdentityKey → IdentityKey → Svc Attrs α}
    {h : List (Ev Attrs)} (hf : ∀ key createdKey, (f key createdKey).Only NoKeyInsert) :
    (generateKeyPair tenantID identityID keyType purpose >>= fun key =>
      repo (.keys (.create key)) onError >>= fun createdKey => f key createdKey).Obeys (exec P)
        (keyStoreProtocol α) h := by
  refine obeys_generateKeyPair_bind (fun _ _ => trivial) fun generator algorithm _ =>
    ⟨trivial, fun generated _ => ?_⟩
  refine obeys_repo_bind ⟨_, _, _, _, rfl, rfl, rfl⟩ (fun createdKey _ => ?_) fun _ => trivial
  exact obeys_noKeyInsert P (hf _ createdKey) _

theorem obeys_createIdentity_keyStore (input : CreateIdentityInput Attrs) :
    (createIdentity P input).Obeys (exec P) (keyStoreProtocol _) [] := by
  refine obeys_noKeyInsert_bind P (only_orFail _ _) fun _ _ => ?_
  refine obeys_noKeyInsert_bind P (only_repo trivial _) fun tenant _ => ?_
  refine obeys_noKeyInsert_bind P (only_refuseIf _ _) fun _ _ => ?_
  refine obeys_noKeyInsert_bind P (only_encryptAttributes (fun _ => trivial) _) fun _ _ => ?_
  refine obeys_noKeyInsert_bind P (only_orFail _ _) fun encryptedAttrs _ => ?_
  refine obeys_noKeyInsert_bind P (only_repo trivial _) fun created h => ?_
  refine ⟨trivial, fun r _ => ?_⟩
  cases r with
  | error e => trivial
  | ok generated =>
    refine obeys_repo_bind ⟨_, _, _, _, rfl, rfl, rfl⟩ (fun createdKey _ => ?_) fun _ => trivial
    refine obeys_noKeyInsert P ((only_repo trivial _).bind fun _ => ?_) _
    refine (only_repo trivial _).bind fun _ => ?_
    exact (only_writeAudit trivial).bind fun _ => trivial

/-- Every request keeps to the protocol. -/
theorem obeys_keyStore (req : Request Attrs) :
    (req.program P).Obeys (exec P) (keyStoreProtocol _) [] := by
  by_cases hfree : ∀ c, MayCall req c → NoKeyInsert c
  · exact obeys_noKeyInsert P ((program_only P req).mono hfree) []
  · cases req with
    | createIdentity input => exact obeys_respond (obeys_createIdentity_keyStore P input)
    | generateKey input =>
      refine obeys_respond (obeys_noKeyInsert_bind P (only_repo trivial _) fun ident _ => ?_)
      refine obeys_noKeyInsert_bind P (only_refuseIf _ _) fun _ _ => ?_
      refine obeys_generateKeyPair_insert P fun _ createdKey => ?_
      exact (only_writeAudit trivial).bind fun _ => trivial
    | rotateKey tenantID identityID oldKeyID actorID =>
      refine obeys_respond (obeys_noKeyInsert_bind P (only_repo trivial _) fun oldKey _ => ?_)
      refine ⟨trivial, fun now _ => obeys_refuseIf_bind trivial fun _ => ?_⟩
      refine obeys_generateKeyPair_insert P fun _ createdKey => ?_
      refine (only_repo trivial _).bind fun _ => ?_
      refine (only_repo trivial _).bind fun ident => ?_
      refine Program.Only.bind ?_ fun _ => (only_writeAudit trivial).bind fun _ => ?_
      · split
        · exact only_repo trivial _
        · trivial
      · trivial
    | _ => exact absurd (fun c hc => by cases hc <;> trivial) hfree

end Obeys

/-! ### Agreement -/

/-- The store holds the private half of `publicKey` under `keyRef`, unless a `Delete`
has taken it away. -/
def Held (P : Primitives Attrs) (s : Requests ι Attrs) (keyRef : String) (publicKey : Bytes) :
    Prop :=
  (∃ key, s.world.keys keyRef = some key ∧ P.publicKeyDER key = publicKey) ∨
  (s.world.keys keyRef = none ∧ ∃ i r, (i, (⟨.deleteKey keyRef, r⟩ : Ev Attrs)) ∈ s.log)

/-- Every row the requests made has its private key, and no two of them share it. -/
structure StoreAgrees (P : Primitives Attrs) (s : Requests ι Attrs) : Prop where
  held : ∀ K row, CreatedKey s K → s.world.db.identityKeys.get? K = some row →
    Held P s row.keyRef row.publicKey
  distinct : ∀ K K' row row', CreatedKey s K → CreatedKey s K' →
    s.world.db.identityKeys.get? K = some row → s.world.db.identityKeys.get? K' = some row' →
    row.keyRef = row'.keyRef → K = K'

variable [DecidableEq ι]

/-- The invariant also covers the keys that are stored and not yet recorded. -/
structure StoreInv (P : Primitives Attrs) (s : Requests ι Attrs) : Prop extends
    StoreAgrees P s where
  unrecorded_held : ∀ j g, Unrecorded s j g → Held P s g.keyRef g.publicKeyDER
  unrecorded_free : ∀ j g K row, Unrecorded s j g → CreatedKey s K →
    s.world.db.identityKeys.get? K = some row → row.keyRef ≠ g.keyRef
  unrecorded_apart : ∀ j j' g g', Unrecorded s j g → Unrecorded s j' g' →
    g.keyRef = g'.keyRef → j = j'

section Step

variable {P : Primitives Attrs} {s : Requests ι Attrs} {i : ι} {e : Env} {c : Op Attrs}
  {k : c.Reply → Svc Attrs (Response Attrs)}

theorem createdKey_step (hc : s.prog i = .call c k) {K : UUID}
    (h : CreatedKey (s.step (exec P) i e) K) :
    CreatedKey s K ∨ ∃ key x, (⟨c, (exec P c e s.world).1⟩ : Ev Attrs) =
      ⟨.repo (.keys (.create key)), .ok x⟩ ∧ UUID.ofText? x.id = some K := by
  obtain ⟨x, hmem, hid⟩ := List.mem_filterMap.mp h
  rw [Pool.log_step hc] at hmem
  rcases List.mem_cons.mp hmem with rfl | hold
  · right
    unfold createdKeyID at hid
    split at hid
    · rename_i key y heq
      exact ⟨key, y, heq, hid⟩
    · cases hid
  · exact .inl (List.mem_filterMap.mpr ⟨x, hold, hid⟩)

/-- A created row was there before the step with the same key, or the step inserted it. -/
theorem createdRow_step (hc : s.prog i = .call c k) {K : UUID} {row' : KeyRow}
    (hK : CreatedKey (s.step (exec P) i e) K)
    (hrow' : (s.step (exec P) i e).world.db.identityKeys.get? K = some row') :
    (CreatedKey s K ∧ ∃ row, s.world.db.identityKeys.get? K = some row ∧
      row'.keyRef = row.keyRef ∧ row'.publicKey = row.publicKey) ∨
    ∃ key, (⟨c, (exec P c e s.world).1⟩ : Ev Attrs) =
        ⟨.repo (.keys (.create key)), .ok (scanKey row')⟩ ∧ row'.id = K ∧
      row'.keyRef = key.keyRef ∧ row'.publicKey = key.publicKey.getD [] := by
  rw [Pool.world_step hc] at hrow'
  have hstep := exec_keyStep P c e s.world
  cases hrow : s.world.db.identityKeys.get? K with
  | none =>
    obtain ⟨key, st, I, T, -, -, hnew, rfl, hev⟩ := hstep.new_row hrow hrow'
    exact .inr ⟨key, hev, hnew, rfl, rfl⟩
  | some row =>
    obtain ⟨row'', hrow'', hrs⟩ := hstep.row hrow
    obtain rfl : row'' = row' := Option.some.inj (hrow''.symm.trans hrow')
    rcases createdKey_step hc hK with hold | ⟨key, x, hev, hid⟩
    · refine .inl ⟨hold, row, rfl, ?_⟩
      generalize (⟨c, (exec P c e s.world).1⟩ : Ev Attrs) = ev at hrs
      cases hrs <;> exact ⟨rfl, rfl⟩
    · rw [hev] at hstep
      exact absurd ((hstep.create_fresh hid).symm.trans hrow) (Option.some_ne_none _).symm

theorem unrecorded_step (hc : s.prog i = .call c k) {j : ι} {g : GeneratedKey}
    (h : Unrecorded (s.step (exec P) i e) j g) :
    (j ≠ i ∧ Unrecorded s j g) ∨ j = i ∧ ∃ algorithm keyID,
      (⟨c, (exec P c e s.world).1⟩ : Ev Attrs) = ⟨.generateKey algorithm keyID, .ok g⟩ := by
  obtain ⟨algorithm, keyID, rest, hhist⟩ := h
  by_cases hj : j = i
  · subst hj
    rw [Pool.hist_step_self hc] at hhist
    exact .inr ⟨rfl, algorithm, keyID, (List.cons.inj hhist).1⟩
  · rw [Pool.hist_step_other hj] at hhist
    exact .inl ⟨hj, algorithm, keyID, rest, hhist⟩

/-- What is under a name that a step does not store under stays, or is deleted. -/
theorem keys_step (hc : s.prog i = .call c k) {keyRef : String}
    (hother : ∀ algorithm keyID g,
      (⟨c, (exec P c e s.world).1⟩ : Ev Attrs) = ⟨.generateKey algorithm keyID, .ok g⟩ →
        keyRef ≠ keyRefOf keyID) :
    (s.step (exec P) i e).world.keys keyRef = s.world.keys keyRef ∨
      ((s.step (exec P) i e).world.keys keyRef = none ∧
        ∃ r, (⟨c, (exec P c e s.world).1⟩ : Ev Attrs) = ⟨.deleteKey keyRef, r⟩) := by
  rw [Pool.world_step hc]
  exact (exec_storeStep P c e s.world).other hother

/-- A step leaves what is held under a name it does not store under. -/
theorem held_step (hc : s.prog i = .call c k) {keyRef : String} {publicKey : Bytes}
    (h : Held P s keyRef publicKey)
    (hother : ∀ algorithm keyID g,
      (⟨c, (exec P c e s.world).1⟩ : Ev Attrs) = ⟨.generateKey algorithm keyID, .ok g⟩ →
        keyRef ≠ keyRefOf keyID) :
    Held P (s.step (exec P) i e) keyRef publicKey := by
  have hlog : (s.step (exec P) i e).log = (i, ⟨c, (exec P c e s.world).1⟩) :: s.log :=
    Pool.log_step hc
  rcases keys_step hc hother with hsame | ⟨hnone, r, hev⟩
  · rcases h with ⟨key, hkey, hpub⟩ | ⟨hnone, j, r, hdel⟩
    · exact .inl ⟨key, hsame.trans hkey, hpub⟩
    · exact .inr ⟨hsame.trans hnone, j, r, hlog ▸ List.mem_cons_of_mem _ hdel⟩
  · exact .inr ⟨hnone, i, r, hlog ▸ hev ▸ List.mem_cons_self ..⟩

/-- The row that a step inserts is for the key its request has just generated. -/
theorem inserted_unrecorded (ho : Pool.Obeyed (exec P) (fun _ => keyStoreProtocol _) s)
    (hc : s.prog i = .call c k) {key x : IdentityKey}
    (hev : (⟨c, (exec P c e s.world).1⟩ : Ev Attrs) = ⟨.repo (.keys (.create key)), .ok x⟩) :
    ∃ g, Unrecorded s i g ∧ key.keyRef = g.keyRef ∧ key.publicKey = some g.publicKeyDER := by
  have hcall : JustGenerated (s.hist i) c := ho.call hc
  obtain rfl : c = _ := congrArg Event.op hev
  obtain ⟨algorithm, keyID, g, rest, hhist, href, hpub⟩ := hcall
  exact ⟨g, ⟨algorithm, keyID, rest, hhist⟩, href, hpub⟩

/-- The name a key is generated under is not the `key_ref` of a row. -/
theorem FreshKeyName.rows (hfresh : FreshKeyName s i e) (hc : s.prog i = .call c k)
    {algorithm keyID g K row}
    (hev : (⟨c, (exec P c e s.world).1⟩ : Ev Attrs) = ⟨.generateKey algorithm keyID, .ok g⟩)
    (hK : CreatedKey s K) (hrow : s.world.db.identityKeys.get? K = some row) :
    row.keyRef ≠ keyRefOf keyID := by
  obtain rfl : c = _ := congrArg Event.op hev
  exact (hfresh algorithm keyID k hc).1 K row hK hrow

/-- Nor is it the name of a key that another request has generated and not yet recorded. -/
theorem FreshKeyName.others (hfresh : FreshKeyName s i e) (hc : s.prog i = .call c k)
    {algorithm keyID g j g'}
    (hev : (⟨c, (exec P c e s.world).1⟩ : Ev Attrs) = ⟨.generateKey algorithm keyID, .ok g⟩)
    (hj : Unrecorded s j g') : g'.keyRef ≠ keyRefOf keyID := by
  obtain rfl : c = _ := congrArg Event.op hev
  exact (hfresh algorithm keyID k hc).2 j g' hj

theorem storeInv_step (ho : Pool.Obeyed (exec P) (fun _ => keyStoreProtocol _) s)
    (hfresh : FreshKeyName s i e) (hc : s.prog i = .call c k) (h : StoreInv P s) :
    StoreInv P (s.step (exec P) i e) := by
  refine { held := ?held, distinct := ?distinct, unrecorded_held := ?unrecorded_held,
           unrecorded_free := ?unrecorded_free, unrecorded_apart := ?unrecorded_apart }
  case held =>
    intro K row' hK hrow'
    rcases createdRow_step hc hK hrow' with ⟨hold, row, hrow, href, hpub⟩ | ⟨key, hev, -,
      href, hpub⟩
    · rw [href, hpub]
      exact held_step hc (h.held K row hold hrow) fun _ _ _ hgen => hfresh.rows hc hgen hold hrow
    · obtain ⟨g, hg, hgref, hgpub⟩ := inserted_unrecorded ho hc hev
      rw [href, hpub, hgref, hgpub]
      exact held_step hc (h.unrecorded_held i g hg) fun _ _ _ hgen => hfresh.others hc hgen hg
  case distinct =>
    intro K K' row₁ row₂ hK hK' hrow₁ hrow₂ heq
    rcases createdRow_step hc hK hrow₁ with ⟨hold, row, hrow, href, -⟩ | ⟨key, hev, hid, href, -⟩
    · rcases createdRow_step hc hK' hrow₂ with
        ⟨hold', row', hrow', href', -⟩ | ⟨key', hev', -, href', -⟩
      · exact h.distinct K K' row row' hold hold' hrow hrow' (href ▸ href' ▸ heq)
      · obtain ⟨g, hg, hgref, -⟩ := inserted_unrecorded ho hc hev'
        exact absurd (href ▸ heq.trans (href'.trans hgref))
          (h.unrecorded_free i g K row hg hold hrow)
    · rcases createdRow_step hc hK' hrow₂ with
        ⟨hold', row', hrow', href', -⟩ | ⟨key', hev', hid', -, -⟩
      · obtain ⟨g, hg, hgref, -⟩ := inserted_unrecorded ho hc hev
        exact absurd (href' ▸ heq.symm.trans (href.trans hgref))
          (h.unrecorded_free i g K' row' hg hold' hrow')
      · obtain ⟨hop, hreply⟩ := Event.mk.inj (hev.symm.trans hev')
        cases hop
        have hscan := Except.ok.inj (eq_of_heq hreply)
        rw [← hid, ← hid']
        exact UUID.toText_injective (congrArg IdentityKey.id hscan)
  case unrecorded_held =>
    intro j g hj
    rcases unrecorded_step hc hj with ⟨-, hold⟩ | ⟨rfl, algorithm, keyID, hev⟩
    · exact held_step hc (h.unrecorded_held j g hold) fun _ _ _ hgen => hfresh.others hc hgen hold
    · obtain ⟨href, key, hkey, hpub⟩ := generated_keyRef hev
      refine .inl ⟨key, ?_, hpub⟩
      rw [Pool.world_step hc, href]
      exact hkey
  case unrecorded_free =>
    intro j g K row' hj hK hrow'
    rcases createdRow_step hc hK hrow' with ⟨hold, row, hrow, href, -⟩ | ⟨key, hev, -, href, -⟩
    · rw [href]
      rcases unrecorded_step hc hj with ⟨-, hjold⟩ | ⟨rfl, algorithm, keyID, hev⟩
      · exact h.unrecorded_free j g K row hjold hold hrow
      · rw [(generated_keyRef hev).1]
        exact hfresh.rows hc hev hold hrow
    · obtain ⟨g', hg', hgref, -⟩ := inserted_unrecorded ho hc hev
      rcases unrecorded_step hc hj with ⟨hne, hjold⟩ | ⟨rfl, algorithm, keyID, hev'⟩
      · rw [href, hgref]
        exact fun heq => hne (h.unrecorded_apart j i g g' hjold hg' heq.symm)
      · cases hev.symm.trans hev'
  case unrecorded_apart =>
    intro j j' g g' hj hj' heq
    rcases unrecorded_step hc hj with ⟨hne, hjold⟩ | ⟨rfl, algorithm, keyID, hev⟩
    · rcases unrecorded_step hc hj' with ⟨hne', hjold'⟩ | ⟨rfl, algorithm, keyID, hev⟩
      · exact h.unrecorded_apart j j' g g' hjold hjold' heq
      · exact absurd (heq.trans (generated_keyRef hev).1) (hfresh.others hc hev hjold)
    · rcases unrecorded_step hc hj' with ⟨hne', hjold'⟩ | ⟨rfl, algorithm', keyID', hev'⟩
      · exact absurd (heq.symm.trans (generated_keyRef hev).1) (hfresh.others hc hev hjold')
      · rfl

end Step

/-- In every run in which private keys are stored under fresh names, every row made
by the requests has its private key in the store until it is deleted, and no two
rows share a `key_ref`. -/
theorem store_agrees (P : Primitives Attrs) (w : World) (req : ι → Request Attrs)
    (s : Requests ι Attrs)
    (hs : Pool.Reach (exec P) FreshKeyName (starting P w req) s) : StoreAgrees P s := by
  have ho : Pool.Obeyed (exec P) (fun _ => keyStoreProtocol _) (starting P w req) :=
    fun i => obeys_keyStore P (req i)
  have hstart : StoreInv P (starting P w req) := by
    have hnone : ∀ K, ¬ CreatedKey (starting P w req) K := fun K hK => by cases hK
    have hfree : ∀ j g, ¬ Unrecorded (starting P w req) j g := by
      rintro j g ⟨algorithm, keyID, rest, hhist⟩
      cases hhist
    exact { held := fun K _ hK => absurd hK (hnone K)
            distinct := fun K _ _ _ hK => absurd hK (hnone K)
            unrecorded_held := fun j g hj => absurd hj (hfree j g)
            unrecorded_free := fun j g _ _ hj => absurd hj (hfree j g)
            unrecorded_apart := fun j _ g _ hj => absurd hj (hfree j g) }
  have hall : StoreInv P s := by
    induction hs with
    | refl => exact hstart
    | @step t i e hr hok ih =>
      rcases Pool.step_cases (exec P) t i with ⟨c, k, hc⟩ | hidle
      · exact storeInv_step (hr.obeyed ho) hok hc ih
      · rw [hidle e]; exact ih
  exact hall.toStoreAgrees

/-! ### Two keys of one type -/

/-- The call stores no private key, or does so under a name that is new among the rows made
so far and the keys on their way to a row. -/
def storesFresh {n : Nat} (s : Requests (Fin n) Attrs) (i : Fin n) (_ : Env) : Bool :=
  match s.prog i with
  | .call (.generateKey _ keyID) _ =>
    ((s.log.filterMap fun x => createdKeyID x.2).all fun K =>
      (s.world.db.identityKeys.get? K).all fun row => row.keyRef != keyRefOf keyID) &&
    (List.finRange n).all fun j => match s.hist j with
      | ⟨.generateKey _ _, .ok g⟩ :: _ => g.keyRef != keyRefOf keyID
      | _ => true
  | _ => true

theorem freshKeyName_of_check {n : Nat} (s : Requests (Fin n) Attrs) (i : Fin n) (e : Env)
    (h : storesFresh s i e = true) : FreshKeyName s i e := by
  intro algorithm keyID k hc
  rw [storesFresh, hc] at h
  obtain ⟨hrows, hhists⟩ := Bool.and_eq_true_iff.mp h
  constructor
  · intro K row hK hrow
    have hrowK := List.all_eq_true.mp hrows K hK
    rw [hrow, Option.all_some] at hrowK
    simpa using hrowK
  · rintro j g ⟨algorithm', keyID', rest, hhist⟩
    have hj := List.all_eq_true.mp hhists j (List.mem_finRange j)
    rw [hhist] at hj
    simpa using hj

def adaKey (purpose : KeyPurpose) : Request Bytes :=
  .generateKey { tenantID := (UUID.ofNat 1).toText, identityID := (UUID.ofNat 2).toText,
                 keyType := .ed25519, purpose, actorID := none }

def adaP256Key (purpose : KeyPurpose) : Request Bytes :=
  .generateKey { tenantID := (UUID.ofNat 1).toText, identityID := (UUID.ofNat 2).toText,
                 keyType := .ecdsaP256, purpose, actorID := none }

/-- Two keys of different types for one identity; both private halves are stored before either
row is inserted, and the second row comes first. -/
theorem store_agrees_interleaved :
    let start : Requests (Fin 2) Bytes :=
      starting plainPrimitives smallWorld ![adaKey .authentication, adaP256Key .encryption]
    let s := start.play (exec plainPrimitives) [(0, calm 3), (1, calm 4), (0, calm 5), (1, calm 6),
      (1, calm 7), (0, calm 8), (0, calm 9), (1, calm 10)]
    CreatedKey s (.ofNat 7) ∧ CreatedKey s (.ofNat 8) ∧ StoreAgrees plainPrimitives s := by
  intro start s
  have hcreated : CreatedKey s (.ofNat 7) ∧ CreatedKey s (.ofNat 8) := by decide +kernel
  exact ⟨hcreated.1, hcreated.2, store_agrees plainPrimitives smallWorld _ s
    (Pool.reach_of_passes freshKeyName_of_check (by decide +kernel))⟩

/-- An authentication key and then an encryption key for one identity: both rows
refer to one private key, the second. -/
theorem second_key_replaces_first :
    ∃ s : Requests (Fin 2) Bytes,
      Pool.Reach (exec plainPrimitives) (fun _ _ _ => True)
        (starting plainPrimitives smallWorld ![adaKey .authentication, adaKey .encryption]) s ∧
      ¬ StoreAgrees plainPrimitives s := by
  let s : Requests (Fin 2) Bytes :=
    (starting plainPrimitives smallWorld ![adaKey .authentication, adaKey .encryption]).play
      (exec plainPrimitives) [(0, calm 3), (0, calm 4), (0, calm 5), (0, calm 6), (1, calm 7),
        (1, calm 8), (1, calm 9), (1, calm 10)]
  refine ⟨s, Pool.reach_play (fun _ _ _ => trivial) _, fun h => ?_⟩
  have hrow : (s.world.db.identityKeys.get? (.ofNat 5)).map (fun r => (r.keyRef, r.publicKey)) =
      some (keyRefOf (cryptoKeyID (UUID.ofNat 1).toText (UUID.ofNat 2).toText .ed25519), [4]) := by
    decide +kernel
  have hkey : s.world.keys (keyRefOf (cryptoKeyID (UUID.ofNat 1).toText (UUID.ofNat 2).toText
      .ed25519)) = some ⟨.ed25519, [8]⟩ := by decide +kernel
  obtain ⟨row, hget, hpair⟩ := Option.map_eq_some_iff.mp hrow
  obtain ⟨href, hpub⟩ := Prod.mk.inj hpair
  rcases h.held (.ofNat 5) row (by decide +kernel) hget with ⟨key, hkey', hmatch⟩ | ⟨hnone, -⟩
  · rw [href, hkey] at hkey'
    cases hkey'
    rw [hpub] at hmatch
    exact absurd hmatch (by decide)
  · rw [href, hkey] at hnone
    cases hnone

end Verion.Service
