import Verion.Service.Lifecycle

/-!
# Trust in keys under interleaved requests

`RotateKey` reads the old key, refuses one that is not usable, generates and
inserts the new key, and then writes `status='rotated'` on the old one without
looking at it again. A revocation that lands in between is overwritten, and
rotated keys are trusted. The partial unique index on active keys makes this the
only way for the rotation of an active key to get as far as its write.
-/

namespace Verion.Service

open Calls Postgres

variable {Attrs ι : Type} [DecidableEq ι]

/-- A rotation of key `k`. -/
def Rotates (k : UUID) : Op Attrs → Prop
  | .repo (.keys (.rotate _ oldKeyID _)) => UUID.ofText? oldKeyID = some k
  | _ => False

/-- The call read key `k` while it was trusted. -/
def SeenTrusted (k : UUID) : Ev Attrs → Prop
  | ⟨.repo (.keys (.getByID _ keyID)), .ok key⟩ =>
    UUID.ofText? keyID = some k ∧ key.status.isTrusted = true
  | _ => False

/-- A write of one of the two statuses that are not trusted, on the key it names. -/
def distrusts : Op Attrs → Option String
  | .repo (.keys (.revoke _ keyID)) => some keyID
  | .repo (.keys (.markCompromised _ keyID)) => some keyID
  | _ => none

/-- Request `j` has read key `k` as trusted and may still rotate it. -/
def AboutToRotate (P : Primitives Attrs) (k : UUID) (s : Requests ι Attrs) (j : ι) : Prop :=
  s.Window (exec P) (SeenTrusted k) (Rotates k) j

/-- When a key is revoked or marked compromised, no other request that has read it
as trusted is about to rotate it. -/
def DistrustAlone (P : Primitives Attrs) (s : Requests ι Attrs) (i : ι) (_ : Env) : Prop :=
  ∀ c next keyID k, s.prog i = .call c next → distrusts c = some keyID →
    UUID.ofText? keyID = some k → ∀ j, j ≠ i → ¬ AboutToRotate P k s j

/-! ### Every request keeps to the protocol -/

def CreatesActive : Op Attrs → Prop
  | .repo (.keys (.create key)) => key.status = .active
  | _ => True

/-- Rotations follow a reading of a trusted key and are made by requests that
revoke nothing; keys are created active. -/
abbrev trustProtocol (k : UUID) (α : Type) : Protocol (@Op.Reply Attrs) Error α :=
  guarded (SeenTrusted k) (fun ev => distrusts ev.op ≠ none) (Rotates k) CreatesActive α

/-- Calls that are no rotation. -/
def TrustHarmless : Op Attrs → Prop
  | .repo (.keys (.create key)) => key.status = .active
  | .repo (.keys (.rotate ..)) => False
  | _ => True

theorem TrustHarmless.allowed {k : UUID} {c : Op Attrs} (hc : TrustHarmless c) :
    ¬ Rotates k c ∧ CreatesActive c := by
  constructor
  · intro hr
    unfold Rotates at hr
    split at hr
    · exact hc
    · exact hr
  · unfold CreatesActive
    split
    · exact hc
    · trivial

section Obeys

variable (P : Primitives Attrs) (k : UUID) {α : Type}

theorem obeys_harmless {q : Svc Attrs α} (hq : q.Only TrustHarmless) (h : List (Ev Attrs)) :
    q.Obeys (exec P) (trustProtocol k α) h :=
  (hq.mono fun _ hc => hc.allowed).obeys_guarded h

theorem obeys_rotateKey (tenantID identityID oldKeyID actorID : String) :
    (rotateKey tenantID identityID oldKeyID actorID).Obeys (exec P) (trustProtocol k _) [] := by
  have harmless : ∀ (h : List (Ev Attrs)) {c : Op Attrs}, TrustHarmless c →
      (trustProtocol k IdentityKey).call h c := fun h _ hc => guarded_call h hc.allowed
  refine obeys_repo_bind (harmless _ trivial) (fun oldKey _ => ?_) fun _ => trivial
  refine ⟨harmless _ trivial, fun now _ => ?_⟩
  refine obeys_refuseIf_bind trivial fun husable => ?_
  have htrusted : oldKey.status.isTrusted = true :=
    IdentityKey.isTrusted_of_isUsable (by simpa using husable)
  refine obeys_generateKeyPair_bind (fun _ _ => trivial) fun generator algorithm _ =>
    ⟨harmless _ trivial, fun generated _ => ?_⟩
  refine obeys_repo_bind (harmless _ rfl) (fun createdKey _ => ?_) fun _ => trivial
  -- the rotation: the history holds the reading and no revocation
  refine obeys_repo_bind ⟨fun hold => ⟨⟨⟨.repo (.keys (.getByID tenantID oldKeyID)), .ok oldKey⟩,
    by simp, hold, htrusted⟩, by simp [distrusts]⟩, trivial⟩ (fun _ _ => ?_) fun _ => trivial
  refine obeys_harmless P k ((only_repo trivial _).bind fun ident => ?_) _
  refine Program.Only.bind ?_ fun _ => (only_writeAudit trivial).bind fun _ => ?_
  · split
    · exact only_repo trivial _
    · trivial
  · trivial

/-- Every request keeps to the protocol. -/
theorem obeys_trust (req : Request Attrs) :
    (req.program P).Obeys (exec P) (trustProtocol k _) [] := by
  by_cases hfree : ∀ c, MayCall req c → TrustHarmless c
  · exact obeys_harmless P k ((program_only P req).mono hfree) []
  · cases req with
    | rotateKey tenantID identityID oldKeyID actorID =>
      exact obeys_respond (obeys_rotateKey P k tenantID identityID oldKeyID actorID)
    | _ => exact absurd (fun c hc => by cases hc <;> trivial) hfree

end Obeys

/-! ### Distrust is permanent -/

/-- Key `k` is in the table with a status that is not trusted. -/
def Distrusted (k : UUID) (s : Requests ι Attrs) : Prop :=
  ∃ row, s.world.db.identityKeys.get? k = some row ∧ row.status.isTrusted = false

section Final

variable {P : Primitives Attrs} {k : UUID}

theorem not_seenTrusted {c : Op Attrs} {e : Env} {w : World} {row : KeyRow}
    (hrow : w.db.identityKeys.get? k = some row) (hd : row.status.isTrusted = false) :
    ¬ SeenTrusted k (⟨c, (exec P c e w).1⟩ : Ev Attrs) := by
  intro hs
  generalize hreply : (exec P c e w).1 = reply at hs
  unfold SeenTrusted at hs
  split at hs
  · rename_i heq
    cases heq
    obtain ⟨T, K, row', -, hK, hget, -, rfl⟩ := getKeyByID_ok hreply
    obtain rfl : K = k := Option.some.inj (hK.symm.trans hs.1)
    obtain rfl : row' = row := Option.some.inj (hget.symm.trans hrow)
    exact Bool.false_ne_true (hd.symm.trans hs.2)
  · exact hs

/-- A distrusted key is trusted again only by a rotation. -/
theorem KeyRowStep.rotates {ev : Ev Attrs} {row row' : KeyRow} (h : KeyRowStep k ev row row')
    (hold : row.status.isTrusted = false) (hnew : row'.status.isTrusted = true) :
    Rotates k ev.op := by
  cases h with
  | same => exact absurd (hold.symm.trans hnew) Bool.false_ne_true
  | rotated _ _ _ _ _ _ _ hK _ => exact hK
  | revoked => cases hnew
  | compromised => cases hnew

/-- A key stops being trusted only by a revocation or a mark. -/
theorem KeyRowStep.distrusts {ev : Ev Attrs} {row row' : KeyRow} (h : KeyRowStep k ev row row')
    (hold : row.status.isTrusted = true) (hnew : row'.status.isTrusted = false) :
    ∃ keyID, distrusts ev.op = some keyID ∧ UUID.ofText? keyID = some k := by
  cases h with
  | same => exact absurd (hnew.symm.trans hold) Bool.false_ne_true
  | rotated => cases hnew
  | revoked _ keyID _ _ hK => exact ⟨keyID, rfl, hK⟩
  | compromised _ keyID _ _ hK => exact ⟨keyID, rfl, hK⟩

theorem distrusts_of_distrusted {s : Requests ι Attrs} {i : ι} {e : Env} {c : Op Attrs}
    {next : c.Reply → Svc Attrs (Response Attrs)} (hwf : CreatesActive c)
    (hold : ¬ Distrusted k s) (hc : s.prog i = .call c next)
    (hnew : Distrusted k (s.step (exec P) i e)) :
    ∃ keyID, distrusts c = some keyID ∧ UUID.ofText? keyID = some k := by
  obtain ⟨row', hrow', hd⟩ := hnew
  rw [Pool.world_step hc] at hrow'
  have hstep := exec_keyStep P c e s.world
  cases hrow : s.world.db.identityKeys.get? k with
  | none =>
    -- an inserted key is active
    obtain ⟨key, st, I, T, -, -, -, rfl, hev⟩ := hstep.new_row hrow hrow'
    obtain rfl : c = _ := congrArg Event.op hev
    rw [show KeyRow.status _ = key.status from rfl, show key.status = _ from hwf] at hd
    cases hd
  | some row =>
    obtain ⟨row'', hrow'', hrs⟩ := hstep.row hrow
    obtain rfl : row'' = row' := Option.some.inj (hrow''.symm.trans hrow')
    refine hrs.distrusts ?_ hd
    by_contra htrusted
    exact hold ⟨row, hrow, by simpa using htrusted⟩

theorem checkThenAct_trust :
    CheckThenAct (ι := ι) (exec P) (DistrustAlone P) (Distrusted k) (Distrusted k)
      (SeenTrusted k) (fun ev => distrusts ev.op ≠ none) (Rotates k) CreatesActive where
  blind := by
    rintro s i e c next ⟨row, hrow, hd⟩ -
    exact not_seenTrusted hrow hd
  kept := by
    rintro s i e c next ⟨row, hrow, hd⟩ hc - hbad
    obtain ⟨row', hrow', hrs⟩ := (exec_keyStep P c e s.world).row hrow
    refine ⟨row', by rw [Pool.world_step hc]; exact hrow', ?_⟩
    by_contra htrusted
    exact hbad (hrs.rotates hd (by simpa using htrusted))
  starts := by
    intro s i e c next hold hc hwf hnew
    obtain ⟨keyID, hdis, -⟩ := distrusts_of_distrusted hwf hold hc hnew
    refine ⟨hnew, ?_⟩
    rw [hdis]
    exact Option.some_ne_none keyID
  alone := by
    intro s i e c next hok hold hc hwf hnew j hj
    obtain ⟨keyID, hdis, hK⟩ := distrusts_of_distrusted hwf hold hc hnew
    exact hok c next keyID k hc hdis hK j hj

/-- In every run of requests in which keys are revoked and marked while no other
request that has read the key as trusted is about to rotate it, a revoked or
compromised key is never trusted again. -/
theorem distrust_permanent (P : Primitives Attrs) (w : World) (req : ι → Request Attrs)
    (s t : Requests ι Attrs) (k : UUID) (row : KeyRow)
    (hs : Pool.Reach (exec P) (DistrustAlone P) (starting P w req) s)
    (hrow : s.world.db.identityKeys.get? k = some row)
    (hd : row.status = .revoked ∨ row.status = .compromised)
    (ht : Pool.Reach (exec P) (DistrustAlone P) s t) :
    ∃ row', t.world.db.identityKeys.get? k = some row' ∧ row'.status.isTrusted = false := by
  have ho : Pool.Obeyed (exec P) (fun _ => trustProtocol k _) (starting P w req) :=
    fun i => obeys_trust P k (req i)
  have hdis : row.status.isTrusted = false := by rcases hd with h | h <;> rw [h] <;> rfl
  have hsafe := checkThenAct_trust.safe_of_started ho (CheckThenAct.safe_initial w _) hs
    ⟨row, hrow, hdis⟩
  exact (checkThenAct_trust.permanent (hs.obeyed ho) hsafe ht).1

end Final

/-! ### The late rotation -/

def keyStatusOf (k : UUID) (s : Requests ι Attrs) : Option KeyStatus :=
  (s.world.db.identityKeys.get? k).map KeyRow.status

/-- The identity of `smallWorld` with an active signing key. -/
def keyedWorld : World :=
  { smallWorld with
    db := { smallWorld.db with
      identityKeys := ⟨[{ id := .ofNat 9, identityID := .ofNat 2, tenantID := .ofNat 1,
                          keyType := .ed25519, purpose := .signing, algorithm := "EdDSA",
                          publicKey := [1], publicKeyJWK := [1], keyRef := keyRefOf "k",
                          fingerprint := "01", status := .active, validFrom := 0,
                          validUntil := none, rotatedAt := none, rotatedTo := none,
                          createdAt := 0 }], by simp⟩ } }

/-- A key is distrusted while every other request is idle. -/
def distrustAlone {n : Nat} (s : Requests (Fin n) Attrs) (i : Fin n) (_ : Env) : Bool :=
  match s.prog i with
  | .call c _ => (distrusts c).isNone || (List.finRange n).all fun j => j == i || s.idle j
  | _ => true

theorem distrustAlone_of_check {n : Nat} (P : Primitives Attrs) (s : Requests (Fin n) Attrs)
    (i : Fin n) (e : Env) (h : distrustAlone s i e = true) : DistrustAlone P s i e := by
  intro c next keyID k hc hdis _ j hj
  rw [distrustAlone, hc] at h
  simp only [hdis, Option.isNone_some, Bool.false_or, List.all_eq_true] at h
  have hidle := h j (List.mem_finRange j)
  simp only [Bool.or_eq_true, beq_iff_eq, hj, false_or] at hidle
  exact Pool.not_window_of_idle hidle

/-- A rotation and a revocation have both read the active key. The new key of the rotation is
refused by the unique index while the old one is active; then the key is revoked, and a
second rotation is refused: the key is not trusted at the end. -/
theorem revoked_over_rotations :
    let start : Requests (Fin 3) Bytes := starting plainPrimitives keyedWorld
      ![.rotateKey (UUID.ofNat 1).toText (UUID.ofNat 2).toText (UUID.ofNat 9).toText "",
        .revokeKey (UUID.ofNat 1).toText (UUID.ofNat 9).toText (UUID.ofNat 2).toText,
        .rotateKey (UUID.ofNat 1).toText (UUID.ofNat 2).toText (UUID.ofNat 9).toText ""]
    let written := start.play (exec plainPrimitives)
      [(0, calm 10), (1, calm 11), (0, calm 12), (0, calm 13), (0, calm 14), (1, calm 15)]
    let ended := written.play (exec plainPrimitives) [(2, calm 16), (2, calm 17), (1, calm 18)]
    keyStatusOf (.ofNat 9) written = some .revoked ∧
      (∀ i ∈ [0, 2], ended.idle i = true ∧ (ended.prog i).returned?.isNone) ∧
      ∃ row, ended.world.db.identityKeys.get? (.ofNat 9) = some row ∧
        row.status.isTrusted = false := by
  intro start written ended
  have hrun : keyStatusOf (.ofNat 9) written = some .revoked ∧
      ∀ i ∈ [0, 2], ended.idle i = true ∧ (ended.prog i).returned?.isNone := by decide +kernel
  obtain ⟨hstatus, hrefused⟩ := hrun
  obtain ⟨row, hrow, hd⟩ := Option.map_eq_some_iff.mp hstatus
  exact ⟨hstatus, hrefused, distrust_permanent plainPrimitives keyedWorld _ written ended
    (.ofNat 9) row
    (Pool.reach_of_passes (distrustAlone_of_check plainPrimitives) (by decide +kernel)) hrow
    (.inl hd) (Pool.reach_of_passes (distrustAlone_of_check plainPrimitives) (by decide +kernel))⟩

/-- A rotation reads the active key, a revocation runs to its write, the rotation
goes on: the revoked key is rotated, and trusted. -/
theorem rotation_replaces_revoked :
    ∃ s t : Requests (Fin 2) Bytes,
      Pool.Reach (exec plainPrimitives) (fun _ _ _ => True) (starting plainPrimitives keyedWorld
        ![.rotateKey (UUID.ofNat 1).toText (UUID.ofNat 2).toText (UUID.ofNat 9).toText "",
          .revokeKey (UUID.ofNat 1).toText (UUID.ofNat 9).toText ""]) s ∧
      Pool.Reach (exec plainPrimitives) (fun _ _ _ => True) s t ∧
      keyStatusOf (.ofNat 9) s = some .revoked ∧ keyStatusOf (.ofNat 9) t = some .rotated :=
  ⟨_, _, Pool.reach_play (fun _ _ _ => trivial) [(0, calm 10), (1, calm 11), (1, calm 12)],
    Pool.reach_play (fun _ _ _ => trivial) [(0, calm 13), (0, calm 14), (0, calm 15), (0, calm 16)],
    by decide +kernel, by decide +kernel⟩

end Verion.Service
