import Verion.Service.KeyStore
import Verion.Service.Rotation

/-!
# Signing with revoked keys

`RevokeKey` writes a status and an event. The private key stays in the store, and
`CryptoService.Sign` looks at nothing but the store, so whether a revoked key still
signs is decided by others: by a `KeyStore.Delete` in time, and by what is stored
under its name afterwards.
-/

namespace Verion.Service

open Calls Postgres

variable {Attrs ι : Type} [DecidableEq ι]

/-- `Sign` with the `key_ref` of the row reaches the library with the private half of the
row's own public key; an ECDSA key asks for a digest. -/
def Signs (P : Primitives Attrs) (signature : PrivateKey → Bytes → Except Error Bytes) (w : World)
    (row : KeyRow) : Prop :=
  ∃ key f, P.publicKeyDER key = row.publicKey ∧
    ∀ data, (key.algorithm = .ecdsaP256 → data.length = 32) →
      sign signature row.keyRef data w = (signature key data).mapError f

def SignsNothing (signature : PrivateKey → Bytes → Except Error Bytes) (w : World)
    (row : KeyRow) : Prop :=
  ∀ data, ∃ x, sign signature row.keyRef data w = .error x

/-- A `RevokeKey` of key `K` has returned success. -/
def RevocationReturned (req : ι → Request Attrs) (s : Requests ι Attrs) (K : UUID) : Prop :=
  ∃ i tenantID keyID actorID response, req i = .revokeKey tenantID keyID actorID ∧
    s.prog i = .ret response ∧ UUID.ofText? keyID = some K

/-- The status of key `K` was written by one of the requests. -/
def RevocationWritten (s : Requests ι Attrs) (K : UUID) : Prop :=
  ∃ i tenantID keyID, (i, (⟨.repo (.keys (.revoke tenantID keyID)), .ok ()⟩ : Ev Attrs)) ∈ s.log ∧
    UUID.ofText? keyID = some K

/-! ### The condition -/

/-- When a `RevokeKey` comes to its last call, the private key is no longer held. -/
def ErasedInTime (req : ι → Request Attrs) (s : Requests ι Attrs) (i : ι) : Prop :=
  ∀ tenantID keyID actorID event k K row, req i = .revokeKey tenantID keyID actorID →
    s.prog i = .call (.repo (.audit (.insert event))) k → UUID.ofText? keyID = some K →
    s.world.db.identityKeys.get? K = some row → s.world.keys row.keyRef = none

/-- A private key is deleted only if the rows that refer to it have been revoked and no
request is about to insert one. -/
def DeletesRevoked (s : Requests ι Attrs) (i : ι) : Prop :=
  ∀ keyRef k, s.prog i = .call (.deleteKey keyRef) k →
    (∀ K row, CreatedKey s K → s.world.db.identityKeys.get? K = some row → row.keyRef = keyRef →
      RevocationWritten s K) ∧
    ∀ j generated, Unrecorded s j generated → generated.keyRef ≠ keyRef

/-- Names are fresh, deletions follow revocations, and revocations wait for deletions. -/
def KeepsStore (req : ι → Request Attrs) (s : Requests ι Attrs) (i : ι) (e : Env) : Prop :=
  FreshKeyName s i e ∧ DeletesRevoked s i ∧ ErasedInTime req s i

/-! ### What a revocation has done when it returns -/

def revocationProtocol (req : Request Attrs) :
    Protocol (@Op.Reply Attrs) Error (Response Attrs) where
  call _ _ := True
  done h x := ∀ tenantID keyID actorID response, req = .revokeKey tenantID keyID actorID →
    x = .ok response → ∃ event old,
      h = [⟨.repo (.audit (.insert event)), .ok ()⟩,
        ⟨.repo (.keys (.revoke tenantID keyID)), .ok ()⟩,
        ⟨.repo (.keys (.getByID tenantID keyID)), .ok old⟩]

theorem obeys_revocation (P : Primitives Attrs) (req : Request Attrs) :
    (req.program P).Obeys (exec P) (revocationProtocol req) [] := by
  cases req with
  | revokeKey tenantID keyID actorID =>
    refine obeys_respond ?_
    refine obeys_repo_bind trivial (fun old _ => ?_) fun _ _ _ _ _ _ h => nomatch h
    refine obeys_repo_bind trivial (fun _ _ => ?_) fun _ _ _ _ _ _ h => nomatch h
    refine ⟨trivial, fun r _ => ?_⟩
    cases r with
    | error x => exact fun _ _ _ _ _ h => nomatch h
    | ok u =>
      intro tenantID' keyID' actorID' response heq _
      cases heq
      exact ⟨_, old, rfl⟩
  | _ =>
    exact Program.obeys_of_always (fun _ _ => trivial) (fun _ _ _ _ _ _ h => nomatch h) _ _

/-! ### All schedules -/

/-- The private half of `publicKey` is held under `keyRef`. -/
def Holds (P : Primitives Attrs) (w : World) (keyRef : String) (publicKey : Bytes) : Prop :=
  hasKeyRefPrefix keyRef = true ∧
    ∃ key, w.keys keyRef = some key ∧ P.publicKeyDER key = publicKey

structure SignInv (P : Primitives Attrs) (req : ι → Request Attrs) (s : Requests ι Attrs) :
    Prop where
  read : ∀ j K, HasRead s j K → (s.world.db.identityKeys.get? K).isSome
  held : ∀ K row, CreatedKey s K → s.world.db.identityKeys.get? K = some row →
    ¬ RevocationWritten s K → Holds P s.world row.keyRef row.publicKey
  unrecorded : ∀ j g, Unrecorded s j g → Holds P s.world g.keyRef g.publicKeyDER
  erased : ∀ K row, RevocationReturned req s K → CreatedKey s K →
    s.world.db.identityKeys.get? K = some row → s.world.keys row.keyRef = none

theorem hasKeyRefPrefix_keyRefOf (keyID : String) : hasKeyRefPrefix (keyRefOf keyID) = true := by
  simp [hasKeyRefPrefix, keyRefOf]

section Step

variable {P : Primitives Attrs} {req : ι → Request Attrs} {s : Requests ι Attrs} {i : ι} {e : Env}
  {c : Op Attrs} {k : c.Reply → Svc Attrs (Response Attrs)}

theorem holds_step (hc : s.prog i = .call c k) {keyRef : String} {publicKey : Bytes}
    (h : Holds P s.world keyRef publicKey)
    (hother : ∀ algorithm keyID g,
      (⟨c, (exec P c e s.world).1⟩ : Ev Attrs) = ⟨.generateKey algorithm keyID, .ok g⟩ →
        keyRef ≠ keyRefOf keyID)
    (hkept : ∀ r, (⟨c, (exec P c e s.world).1⟩ : Ev Attrs) ≠ ⟨.deleteKey keyRef, r⟩) :
    Holds P (s.step (exec P) i e).world keyRef publicKey := by
  obtain ⟨href, key, hkey, hpub⟩ := h
  rcases keys_step hc hother with hsame | ⟨-, r, hev⟩
  · exact ⟨href, key, hsame.trans hkey, hpub⟩
  · exact absurd hev (hkept r)

theorem RevocationWritten.step {K : UUID} (h : RevocationWritten s K) (hc : s.prog i = .call c k) :
    RevocationWritten (s.step (exec P) i e) K := by
  obtain ⟨j, tenantID, keyID, hmem, hK⟩ := h
  refine ⟨j, tenantID, keyID, ?_, hK⟩
  rw [Pool.log_step hc]
  exact List.mem_cons_of_mem _ hmem

/-- A revocation that returns has written its event last, after reading the key. -/
theorem returned_hist (ho : Pool.Obeyed (exec P) (fun i => revocationProtocol (req i)) s) {j : ι}
    {tenantID keyID actorID : String} {response : Response Attrs}
    (hreq : req j = .revokeKey tenantID keyID actorID) (hret : s.prog j = .ret response) :
    ∃ event rest, s.hist j = ⟨.repo (.audit (.insert event)), .ok ()⟩ :: rest ∧
      ∀ K, UUID.ofText? keyID = some K → HasRead s j K := by
  have hj := ho j
  rw [hret] at hj
  obtain ⟨event, old, hhist⟩ := hj tenantID keyID actorID response hreq rfl
  refine ⟨event, _, hhist, fun K hK => ⟨tenantID, keyID, old, ?_, hK⟩⟩
  rw [hhist]
  simp

theorem read_step (hc : s.prog i = .call c k)
    (h : ∀ j K, HasRead s j K → (s.world.db.identityKeys.get? K).isSome) (j : ι) (K : UUID)
    (hread : HasRead (s.step (exec P) i e) j K) :
    ((s.step (exec P) i e).world.db.identityKeys.get? K).isSome := by
  have hstep := exec_keyStep P c e s.world
  rw [← Pool.world_step hc] at hstep
  rcases hasRead_step hc hread with hold | ⟨-, -, hK⟩
  · exact hstep.isSome (h j K hold)
  · exact hstep.isSome hK

theorem erased_step (hok : KeepsStore req s i e)
    (ho : Pool.Obeyed (exec P) (fun i => revocationProtocol (req i)) s)
    (hc : s.prog i = .call c k) (h : SignInv P req s) {K : UUID} {row' : KeyRow}
    (hret : RevocationReturned req (s.step (exec P) i e) K)
    (hK : CreatedKey (s.step (exec P) i e) K)
    (hrow' : (s.step (exec P) i e).world.db.identityKeys.get? K = some row') :
    (s.step (exec P) i e).world.keys row'.keyRef = none := by
  obtain ⟨j, tenantID, keyID, actorID, response, hreq, hdone, hid⟩ := hret
  obtain ⟨event, rest, hhist, hread⟩ := returned_hist (ho.step i e) hreq hdone
  have hsome : (s.world.db.identityKeys.get? K).isSome := by
    rcases hasRead_step hc (hread K hid) with hold | ⟨-, -, hK⟩
    · exact h.read j K hold
    · exact hK
  -- the row was there before, since its revocation had read it
  rcases createdRow_step hc hK hrow' with ⟨hold, row, hrow, href, -⟩ | ⟨key, hev, hnew, -⟩
  · rw [href]
    have hnone : s.world.keys row.keyRef = none := by
      by_cases hj : j = i
      · subst hj
        rw [Pool.hist_step_self hc] at hhist
        obtain rfl : c = _ := congrArg Event.op (List.cons.inj hhist).1
        exact hok.2.2 tenantID keyID actorID event k K row hreq hc hid hrow
      · rw [Pool.prog_step_other hj] at hdone
        exact h.erased K row ⟨j, tenantID, keyID, actorID, response, hreq, hdone, hid⟩ hold hrow
    refine (keys_step hc fun algorithm keyID g hev => ?_).elim (fun hsame => hsame.trans hnone)
      fun hdel => hdel.1
    obtain rfl : c = _ := congrArg Event.op hev
    exact (hok.1 algorithm keyID k hc).1 K row hold hrow
  · have hstep := exec_keyStep P c e s.world
    rw [hev] at hstep
    have hscan : UUID.ofText? (scanKey row').id = some K := by
      rw [← hnew]
      exact UUID.ofText?_toText _
    rw [hstep.create_fresh hscan] at hsome
    cases hsome

theorem signInv_step (hok : KeepsStore req s i e)
    (hstore : Pool.Obeyed (exec P) (fun _ => keyStoreProtocol _) s)
    (ho : Pool.Obeyed (exec P) (fun i => revocationProtocol (req i)) s)
    (hc : s.prog i = .call c k) (h : SignInv P req s) : SignInv P req (s.step (exec P) i e) where
  read := read_step hc h.read
  held := by
    intro K row' hK hrow' hlive
    have hlive : ¬ RevocationWritten s K := fun hw => hlive (hw.step hc)
    rcases createdRow_step hc hK hrow' with ⟨hold, row, hrow, href, hpub⟩ | ⟨key, hev, -,
      href, hpub⟩
    · rw [href, hpub]
      refine holds_step hc (h.held K row hold hrow hlive) (fun algorithm keyID g hev => ?_)
        fun r hev => ?_
      · obtain rfl : c = _ := congrArg Event.op hev
        exact (hok.1 algorithm keyID k hc).1 K row hold hrow
      · obtain rfl : c = _ := congrArg Event.op hev
        exact hlive ((hok.2.1 _ k hc).1 K row hold hrow rfl)
    · obtain ⟨g, hg, hgref, hgpub⟩ := inserted_unrecorded hstore hc hev
      rw [href, hpub, hgref, hgpub]
      refine holds_step hc (h.unrecorded i g hg) (fun _ _ _ hev' => ?_) fun r hev' => ?_
      · cases hev.symm.trans hev'
      · cases hev.symm.trans hev'
  unrecorded := by
    intro j g hj
    rcases unrecorded_step hc hj with ⟨-, hold⟩ | ⟨rfl, algorithm, keyID, hev⟩
    · refine holds_step hc (h.unrecorded j g hold)
        (fun algorithm keyID g' hev => ?_) fun r hev => ?_
      · obtain rfl : c = _ := congrArg Event.op hev
        exact (hok.1 algorithm keyID k hc).2 j g hold
      · obtain rfl : c = _ := congrArg Event.op hev
        exact (hok.2.1 _ k hc).2 j g hold rfl
    · obtain ⟨href, key, hkey, hpub⟩ := generated_keyRef hev
      rw [Pool.world_step hc, href]
      exact ⟨hasKeyRefPrefix_keyRefOf keyID, key, hkey, hpub⟩
  erased := fun _ _ hret hK hrow => erased_step hok ho hc h hret hK hrow

end Step

theorem signs_of_holds {P : Primitives Attrs} (signature : PrivateKey → Bytes → Except Error Bytes)
    {w : World} {row : KeyRow} (h : Holds P w row.keyRef row.publicKey) :
    Signs P signature w row := by
  obtain ⟨href, key, hkey, hpub⟩ := h
  cases halg : key.algorithm with
  | ed25519 =>
    refine ⟨key, .wrap "local keystore: ed25519 sign", hpub, fun data _ => ?_⟩
    simp [sign, href, hkey, halg]
  | ecdsaP256 =>
    refine ⟨key, .wrap "local keystore: ecdsa sign", hpub, fun data hdata => ?_⟩
    simp [sign, href, hkey, halg, hdata halg]

theorem signsNothing_of_none (signature : PrivateKey → Bytes → Except Error Bytes) {w : World}
    {row : KeyRow} (h : w.keys row.keyRef = none) : SignsNothing signature w row := by
  intro data
  unfold sign
  rw [h]
  split
  · exact ⟨_, rfl⟩
  · exact ⟨_, rfl⟩

/-- In every run whose steps meet the condition, a key made by the run signs nothing once
a revocation of it has returned, and signs until its revocation is written. -/
theorem revoked_keys_cannot_sign (P : Primitives Attrs)
    (signature : PrivateKey → Bytes → Except Error Bytes) (w : World) (req : ι → Request Attrs)
    (s : Requests ι Attrs) (hs : Pool.Reach (exec P) (KeepsStore req) (starting P w req) s) :
    ∀ K row, CreatedKey s K → s.world.db.identityKeys.get? K = some row →
      (RevocationReturned req s K → SignsNothing signature s.world row) ∧
      (¬ RevocationWritten s K → Signs P signature s.world row) := by
  have hstore : Pool.Obeyed (exec P) (fun _ => keyStoreProtocol _) (starting P w req) :=
    fun i => obeys_keyStore P (req i)
  have ho : Pool.Obeyed (exec P) (fun i => revocationProtocol (req i)) (starting P w req) :=
    fun i => obeys_revocation P (req i)
  have hinv : SignInv P req s := by
    have hstart : SignInv P req (starting P w req) :=
      { read := by rintro j K ⟨_, _, _, hmem, -⟩; cases hmem
        held := fun K _ hK => by cases hK
        unrecorded := by rintro j g ⟨_, _, _, hhist⟩; cases hhist
        erased := fun K _ _ hK => by cases hK }
    induction hs with
    | refl => exact hstart
    | @step t i e hr hok ih =>
      rcases Pool.step_cases (exec P) t i with ⟨c, k, hc⟩ | hidle
      · exact signInv_step hok (hr.obeyed hstore) (hr.obeyed ho) hc ih
      · rw [hidle e]; exact ih
  intro K row hK hrow
  exact ⟨fun hret => signsNothing_of_none signature (hinv.erased K row hret hK hrow),
    fun hlive => signs_of_holds signature (hinv.held K row hK hrow hlive)⟩

/-! ### Runs on fixed inputs -/

def revokedID : Ev Attrs → Option UUID
  | ⟨.repo (.keys (.revoke _ keyID)), .ok _⟩ => UUID.ofText? keyID
  | _ => none

/-- Every key made so far has been revoked, and no request is about to insert one. -/
def allRevoked {n : Nat} (s : Requests (Fin n) Attrs) : Bool :=
  ((s.log.filterMap fun x => createdKeyID x.2).all fun K =>
      (s.log.filterMap fun x => revokedID x.2).contains K) &&
    (List.finRange n).all fun j => match s.hist j with
      | ⟨.generateKey _ _, .ok _⟩ :: _ => false
      | _ => true

def keyErased (w : World) (keyID : String) : Bool :=
  match (UUID.ofText? keyID).bind w.db.identityKeys.get? with
  | some row => (w.keys row.keyRef).isNone
  | none => true

def storeKept {n : Nat} (req : Fin n → Request Attrs) (s : Requests (Fin n) Attrs) (i : Fin n)
    (e : Env) : Bool :=
  storesFresh s i e && match s.prog i with
    | .call (.deleteKey _) _ => allRevoked s
    | .call (.repo (.audit _)) _ => match req i with
      | .revokeKey _ keyID _ => keyErased s.world keyID
      | _ => true
    | _ => true

theorem deletesRevoked_of_all {n : Nat} {s : Requests (Fin n) Attrs} (h : allRevoked s = true)
    (i : Fin n) : DeletesRevoked s i := by
  obtain ⟨hrows, hhists⟩ := Bool.and_eq_true_iff.mp h
  intro keyRef k _
  constructor
  · intro K row hK _ _
    have hmem := List.contains_iff_mem.mp (List.all_eq_true.mp hrows K hK)
    obtain ⟨⟨j, ev⟩, hlog, hid⟩ := List.mem_filterMap.mp hmem
    unfold revokedID at hid
    split at hid
    · rename_i tenantID keyID u heq
      exact ⟨j, tenantID, keyID, heq ▸ hlog, hid⟩
    · cases hid
  · rintro j g ⟨algorithm, keyID, rest, hhist⟩
    have hj := List.all_eq_true.mp hhists j (List.mem_finRange j)
    rw [hhist] at hj
    cases hj

theorem keepsStore_of_check {n : Nat} (req : Fin n → Request Attrs) (s : Requests (Fin n) Attrs)
    (i : Fin n) (e : Env) (h : storeKept req s i e = true) : KeepsStore req s i e := by
  obtain ⟨hfirst, hnext⟩ := Bool.and_eq_true_iff.mp h
  refine ⟨freshKeyName_of_check s i e hfirst, fun keyRef k hc => ?_, ?_⟩
  · rw [hc] at hnext
    exact deletesRevoked_of_all hnext i keyRef k hc
  · intro tenantID keyID actorID event k K row hreq hc hK hrow
    simp only [hc, hreq, keyErased, hK, Option.bind_some, hrow] at hnext
    exact Option.isNone_iff_eq_none.mp hnext

/-- A key is made, revoked and deleted from the store; the deletion comes before the
revocation has written its event. -/
theorem overlapped_deletion :
    let req : Fin 3 → Request Bytes :=
      ![adaKey .authentication,
        .revokeKey (UUID.ofNat 1).toText (UUID.ofNat 5).toText (UUID.ofNat 2).toText,
        .deleteKey (keyRefOf (cryptoKeyID (UUID.ofNat 1).toText (UUID.ofNat 2).toText .ed25519))]
    let s := (starting plainPrimitives smallWorld req).play (exec plainPrimitives)
      [(0, calm 3), (0, calm 4), (0, calm 5), (0, calm 6), (1, calm 7), (1, calm 8), (2, calm 9),
        (1, calm 10)]
    CreatedKey s (.ofNat 5) ∧ RevocationReturned req s (.ofNat 5) ∧
      ∃ row, s.world.db.identityKeys.get? (.ofNat 5) = some row ∧
        SignsNothing (fun _ data => .ok data) s.world row := by
  intro req s
  have hrun : CreatedKey s (.ofNat 5) ∧ (s.world.db.identityKeys.get? (.ofNat 5)).isSome ∧
      (s.prog 1).returned?.isSome := by decide +kernel
  obtain ⟨hcreated, hfound, hreturned⟩ := hrun
  obtain ⟨row, hrow⟩ := Option.isSome_iff_exists.mp hfound
  obtain ⟨response, hresponse⟩ := Option.isSome_iff_exists.mp hreturned
  have hret : RevocationReturned req s (.ofNat 5) :=
    ⟨1, _, _, _, response, rfl, Program.returned?_eq_some.mp hresponse, UUID.ofText?_toText _⟩
  refine ⟨hcreated, hret, row, hrow, ?_⟩
  exact (revoked_keys_cannot_sign plainPrimitives _ smallWorld req s
    (Pool.reach_of_passes (keepsStore_of_check req) (by decide +kernel)) _ row hcreated hrow).1 hret

/-- On its own `RevokeKey` leaves the private key, and the revoked key signs. -/
theorem revoked_key_signs :
    let req : Fin 2 → Request Bytes :=
      ![adaKey .authentication,
        .revokeKey (UUID.ofNat 1).toText (UUID.ofNat 5).toText (UUID.ofNat 2).toText]
    ∃ s : Requests (Fin 2) Bytes,
      Pool.Reach (exec plainPrimitives) (fun _ _ _ => True)
        (starting plainPrimitives smallWorld req) s ∧
      (s.prog 1).returned?.isSome ∧
      (s.world.db.identityKeys.get? (.ofNat 5)).map (fun row => (row.status,
        (sign (fun _ data => .ok data) row.keyRef [1, 2] s.world).toOption)) =
          some (.revoked, some [1, 2]) :=
  ⟨_, Pool.reach_play (fun _ _ _ => trivial) [(0, calm 3), (0, calm 4), (0, calm 5), (0, calm 6),
    (1, calm 7), (1, calm 8), (1, calm 9)], by decide +kernel⟩

end Verion.Service
