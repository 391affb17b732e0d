import Verion.Auth.Counters

/-!
# The signature counter over assertions one after another

`FinishAssertion` is what comes before the verdict of the library, and what is
done with it. A run of assertions whose responses all verify accepts a counter
just if it is greater than the stored one or both are zero.
-/

namespace Verion.Auth

open Calls Postgres Service

variable {Attrs : Type} {D : Deps Attrs}

/-! ### The two halves of an assertion -/

/-- What the library has verified. -/
structure Verified (Attrs : Type) where
  ident : Identity Attrs
  passkeys : List Credential
  credential : LibraryCredential

/-- `FinishAssertion` up to the verdict of the library (`webauthn.go:243-276`). -/
def verifyAssertion (P : Primitives Attrs) (tenantID handle sessionID : String) (body : Bytes) :
    Ceremony Attrs (Verified Attrs) := do
  let ident ← service (getIdentityByHandle P tenantID handle) "webauthn: finish assertion"
  refuseIf (ident.status ≠ .active) (.domain (.sentinel .identityInactive))
  let passkeyCreds ← passkeys tenantID ident.id "webauthn: finish assertion: list"
  let session ← getChallenge sessionID "webauthn: finish assertion: get challenge"
    "webauthn: finish assertion: unmarshal"
  let reply ← .call (.finishLogin (newVerionUserWithCreds ident passkeyCreds) session body) .ret
  match reply with
  | .error text =>
    dropError (.audit (.insert (authEvent tenantID ident.id "auth.failure" false)))
    .fail (.wrap "webauthn: finish assertion: verify" (.library text))
  | .ok credential => .ret ⟨ident, passkeyCreds, credential⟩

/-- The stored credential that was used. -/
def Verified.stored (v : Verified Attrs) : Option Credential :=
  v.passkeys.find? fun c => c.credentialID.getD [] == v.credential.id.getD []

/-- The rest: the counter, and the event of the success. -/
def settleAssertion (tenantID : String) (v : Verified Attrs) : Ceremony Attrs (Identity Attrs) := do
  (match v.stored with
  | some stored => advanceCounter tenantID v.ident.id stored v.credential.signCount
  | none => .ret ())
  dropError (.audit (.insert (authEvent tenantID v.ident.id "auth.success" true)))
  .ret v.ident

theorem finishAssertion_eq (P : Primitives Attrs) (tenantID handle sessionID : String)
    (body : Bytes) : finishAssertion P tenantID handle sessionID body =
      (verifyAssertion P tenantID handle sessionID body >>= settleAssertion tenantID) := by
  unfold finishAssertion verifyAssertion
  simp only [Program.bind_assoc]
  congr 1
  funext ident
  congr 1
  funext _
  congr 1
  funext passkeyCreds
  congr 1
  funext session
  congr 1
  funext reply
  cases reply with
  | error text => rfl
  | ok credential => rfl

/-- A verdict leaves the tables; the passkeys are rows of the tenant, and the library has
accepted one of them. -/
theorem verifyAssertion_ends (tenantID handle sessionID : String) (body : Bytes) {w : World} :
    (verifyAssertion D.primitives tenantID handle sessionID body).Ends (exec D) (fun r w' =>
      ∀ v, r = .ok v → w'.svc = w.svc ∧
        (∃ T, UUID.ofText? tenantID = some T ∧ ∀ cred ∈ v.passkeys,
          ∃ row ∈ w.svc.db.credentials.rows, row.tenantID = T ∧ cred = scanCredential row) ∧
        ∃ session now, D.library.finishLogin (newVerionUserWithCreds v.ident v.passkeys) session
          body now = .ok v.credential) w := by
  refine looks_bind (only_getIdentityByHandle (.read rfl) _) (fun _ _ _ _ h => nomatch h)
    fun ident w₁ h₁ => ?_
  refine ends_refuseIf_bind (fun _ h => nomatch h) fun _ => ?_
  unfold passkeys
  rw [Program.bind_assoc]
  refine ends_repo_bind (fun e creds hcreds => ?_) fun _ _ h => nomatch h
  obtain ⟨T, hT, hrows⟩ := listCredentials_ok (P := D.primitives) hcreds
  rw [h₁] at hrows
  rw [exec_read rfl]
  have hpasskeys : ∀ cred ∈ creds.filter isPasskey, ∃ row ∈ w.svc.db.credentials.rows,
      row.tenantID = T ∧ cred = scanCredential row :=
    fun cred hcred => hrows cred (List.mem_filter.mp hcred).1
  show (getChallenge _ _ _ >>= _).Ends _ _ _
  refine looks_bind (only_getChallenge (fun _ hc _ => .outer hc) _ _ _) (fun _ _ _ _ h => nomatch h)
    fun session w₂ h₂ => ?_
  intro e₃ _
  have hsvc : (exec D (.finishLogin (newVerionUserWithCreds ident (creds.filter isPasskey)) session
      body) e₃ w₂).2.svc = w.svc := h₂.trans h₁
  cases hreply : (exec D (.finishLogin (newVerionUserWithCreds ident (creds.filter isPasskey))
      session body) e₃ w₂).1 with
  | error text =>
    exact fun e₄ _ v h => nomatch h
  | ok credential =>
    rintro v ⟨⟩
    exact ⟨hsvc, ⟨T, hT, hpasskeys⟩, session, _, hreply⟩

/-! ### One assertion -/

/-- The counter that is accepted over the stored one. -/
def Advances (stored : Int) (reported : UInt32) : Prop :=
  stored < reported.toNat ∨ (reported = 0 ∧ stored = 0)

/-- The credential `R` is stored with the counter `n`. -/
def CountIs (R : UUID) (n : Int) (w : World) : Prop :=
  ∃ row, w.svc.db.credentials.get? R = some row ∧ row.signCount = n

/-- The check of the service on the counter that the library returns (`webauthn.go:294`). -/
def Regresses (stored : Int) (newCount : UInt32) : Prop :=
  newCount ≠ 0 ∧ newCount ≤ UInt32.ofInt stored

/-- In the range of the counter, the check asks whether the reported counter advances. -/
theorem advances_iff {x : Int} (h0 : 0 ≤ x) (h1 : x < 2 ^ 32) (reported : UInt32) :
    ¬ Regresses x (counted (UInt32.ofInt x) reported) ↔ Advances x reported := by
  have hx := toNat_ofInt h0 h1
  have hlt : UInt32.ofInt x < reported ↔ x < reported.toNat := by
    rw [UInt32.lt_iff_toNat_lt, hx]
    omega
  have hzero : UInt32.ofInt x = 0 ↔ x = 0 := by
    rw [← UInt32.toNat_inj, hx]
    simp only [UInt32.toNat_zero]
    omega
  unfold Advances
  rw [← hlt, ← hzero]
  constructor
  · exact fun h => (counted_passes h).2
  · intro h
    unfold counted
    rw [if_pos h]
    rintro ⟨hne, hle⟩
    rcases h with hgt | ⟨hzero, -⟩
    · exact absurd hle (UInt32.not_le.mpr hgt)
    · exact hne hzero

theorem countsNothing_keeps {R : UUID} {n : Int} {c : Op Attrs} (hc : CountsNothing c) (e : Env)
    {w : World} (h : CountIs R n w) : CountIs R n (exec D c e w).2 := by
  obtain ⟨row, hrow, hn⟩ := h
  cases c with
  | svc c =>
    obtain ⟨row', hrow', -, hcount⟩ := (exec_credentialStep D.primitives c e.svc w.svc).count hrow
    refine ⟨row', hrow', ?_⟩
    rcases hcount with hsame | ⟨tenantID, id, rfl, -⟩
    · exact hsame.trans hn
    · exact absurd hc not_false
  | _ => exact ⟨row, hrow, hn⟩

/-- The connection and the statement of a call through the pool get through. -/
def Taken (e : Env) : Prop :=
  (e.svc.statements 0).available = true ∧ (e.svc.statements 1).available = true

instance (e : Env) : Decidable (Taken e) := inferInstanceAs (Decidable (_ ∧ _))

/-- The update of the counter, whose error is dropped. -/
theorem updateSignCount_count {tenantID : String} {n : Int} {e : Env} {w : World}
    {row : CredentialRow} {R : UUID} (hrow : w.svc.db.credentials.get? R = some row)
    (hT : UUID.ofText? tenantID = some row.tenantID) :
    CountIs R (if Taken e then n else row.signCount) (exec D (.svc (.repo (.credentials
      (.updateSignCount tenantID row.id.toText n)))) e w).2 := by
  split
  case isTrue hsent =>
    have hid : UUID.ofText? row.id.toText = some R := by
      rw [UUID.ofText?_toText, show row.id = R from Table.key_of_get? hrow]
    exact ⟨_, exec_updateSignCount (P := D.primitives) hrow hT hid hsent.1 hsent.2, rfl⟩
  case isFalse hlost =>
    refine ⟨row, ?_, rfl⟩
    have hdb : (Service.exec D.primitives (.repo (.credentials
        (.updateSignCount tenantID row.id.toText n))) e.svc w.svc).2.db = w.svc.db :=
      exec_updateSignCount_lost hlost
    exact (congrArg (fun db : DB => db.credentials.get? R) hdb).trans hrow

/-- What the rest of an assertion does with a verdict on the credential `R`. -/
theorem settleAssertion_run {tenantID : String} {v : Verified Attrs} {row : CredentialRow}
    {R : UUID} (es : Nat → Env) {w : World} (hrow : w.svc.db.credentials.get? R = some row)
    (hT : UUID.ofText? tenantID = some row.tenantID)
    (hstored : v.stored = some (scanCredential row)) :
    let ran := (settleAssertion tenantID v).run (exec D) es w
    (¬ Regresses row.signCount v.credential.signCount → ran.1 = .ok v.ident ∧
      CountIs R (if Taken (es 0) then v.credential.signCount.toNat else row.signCount) ran.2) ∧
    (Regresses row.signCount v.credential.signCount →
      ran.1 = .error .cloneDetected ∧ CountIs R row.signCount ran.2) := by
  intro ran
  have hprog : settleAssertion tenantID v =
      (advanceCounter tenantID v.ident.id (scanCredential row) v.credential.signCount >>= fun _ =>
        dropError
          (.audit (.insert (authEvent tenantID v.ident.id "auth.success" true))) >>= fun _ =>
        .ret v.ident) := by
    unfold settleAssertion
    rw [hstored]
  subst ran
  rw [hprog]
  constructor
  · intro hpass
    have hcounter : advanceCounter tenantID v.ident.id (scanCredential row) v.credential.signCount =
        (dropError (.credentials (.updateSignCount tenantID row.id.toText
            v.credential.signCount.toNat)) >>= fun _ =>
          now >>= fun at_ =>
          dropError (.credentials (.updateLastUsed tenantID row.id.toText at_)) :
            Ceremony Attrs _) :=
      if_neg hpass
    rw [hcounter]
    have hwritten := updateSignCount_count (D := D) (n := v.credential.signCount.toNat) (e := es 0)
      hrow hT
    have hnow := countsNothing_keeps (D := D) (c := .svc .now) trivial (es 1) hwritten
    have hused := countsNothing_keeps (D := D) (c := .svc (.repo (.credentials
      (.updateLastUsed tenantID row.id.toText (es 1).svc.now)))) trivial (es 2) hnow
    exact ⟨rfl, countsNothing_keeps (D := D) (c := .svc (.repo (.audit (.insert
      (authEvent tenantID v.ident.id "auth.success" true))))) trivial (es 3) hused⟩
  · intro hclone
    have hcounter : advanceCounter tenantID v.ident.id (scanCredential row) v.credential.signCount =
        (dropError
          (.audit (.insert (authEvent tenantID v.ident.id "auth.failure" false))) >>= fun _ =>
          .fail .cloneDetected : Ceremony Attrs _) := if_pos hclone
    rw [hcounter]
    exact ⟨rfl, countsNothing_keeps (D := D) (c := .svc (.repo (.audit (.insert
      (authEvent tenantID v.ident.id "auth.failure" false))))) trivial (es 0) ⟨row, hrow, rfl⟩⟩

/-! ### Assertions one after another -/

/-- A `FinishAssertion` with the choices of its surroundings. -/
structure Assertion where
  tenantID : String
  handle : String
  challengeID : String
  body : Bytes
  es : Nat → Env

namespace Assertion

def run (D : Deps Attrs) (a : Assertion) (w : World) : Except AuthError (Identity Attrs) × World :=
  (finishAssertion D.primitives a.tenantID a.handle a.challengeID a.body).run (exec D) a.es w

def verify (D : Deps Attrs) (a : Assertion) : Ceremony Attrs (Verified Attrs) :=
  verifyAssertion D.primitives a.tenantID a.handle a.challengeID a.body

/-- The choices for the call that stores the counter, the first after the verdict. -/
def storing (D : Deps Attrs) (a : Assertion) (w : World) : Env :=
  a.es (((a.verify D).trace (exec D) a.es w).length)

/-- The checks pass for the credential `R`, and the database is there for the counter. -/
structure Passes (D : Deps Attrs) (R : UUID) (a : Assertion) (w : World) : Prop where
  verified : ∃ v cred, ((a.verify D).run (exec D) a.es w).1 = .ok v ∧ v.stored = some cred ∧
    UUID.ofText? cred.id = some R
  stores : ((a.storing D w).svc.statements 0).available = true ∧
    ((a.storing D w).svc.statements 1).available = true

/-- The rule for one assertion on the credential `R` that reports a counter. -/
def Rule (R : UUID) (reported : UInt32) (w : World)
    (ran : Except AuthError (Identity Attrs) × World) : Prop :=
  ∀ n, CountIs R n w →
    ((∃ ident, ran.1 = .ok ident) ↔ Advances n reported) ∧
    ((∃ ident, ran.1 = .ok ident) → CountIs R reported.toNat ran.2) ∧
    (¬ Advances n reported → ran.1 = .error .cloneDetected ∧ CountIs R n ran.2)

/-- What a verdict on the credential `R` was given for. -/
theorem verified_stored {R : UUID} {a : Assertion} {w : World} {row : CredentialRow}
    {v : Verified Attrs} {cred : Credential} (hrow : w.svc.db.credentials.get? R = some row)
    (hv : ((a.verify D).run (exec D) a.es w).1 = .ok v) (hstored : v.stored = some cred)
    (hid : UUID.ofText? cred.id = some R) :
    v.stored = some (scanCredential row) ∧ UUID.ofText? a.tenantID = some row.tenantID ∧
      ((a.verify D).run (exec D) a.es w).2.svc = w.svc ∧
      ∃ session now,
        D.library.finishLogin (newVerionUserWithCreds v.ident v.passkeys) session a.body
        now = .ok v.credential := by
  have hspec := (verifyAssertion_ends (D := D) a.tenantID a.handle a.challengeID a.body).run
    a.es (w := w)
  obtain ⟨hsvc, ⟨T, hT, hrows⟩, hlogin⟩ := hspec v hv
  -- the credential that was used is the stored row
  obtain ⟨row', hmem, rfl, rfl⟩ := hrows cred (List.mem_of_find?_eq_some hstored)
  obtain rfl : row'.id = R := Option.some.inj ((UUID.ofText?_toText _).symm.trans hid)
  obtain rfl : row' = row := Option.some.inj ((Table.get?_of_mem hmem).symm.trans hrow)
  exact ⟨hstored, hT, hsvc, hlogin⟩

/-- An assertion after its verdict on the credential `R`. -/
theorem run_of_verified {R : UUID} {a : Assertion} {w : World} {row : CredentialRow}
    {v : Verified Attrs} {cred : Credential} (hrow : w.svc.db.credentials.get? R = some row)
    (hv : ((a.verify D).run (exec D) a.es w).1 = .ok v) (hstored : v.stored = some cred)
    (hid : UUID.ofText? cred.id = some R) :
    (¬ Regresses row.signCount v.credential.signCount → (a.run D w).1 = .ok v.ident ∧
      CountIs R (if Taken (a.storing D w) then v.credential.signCount.toNat else row.signCount)
        (a.run D w).2) ∧
    (Regresses row.signCount v.credential.signCount →
      (a.run D w).1 = .error .cloneDetected ∧ CountIs R row.signCount (a.run D w).2) := by
  obtain ⟨hscan, hT, hsvc, -⟩ := verified_stored hrow hv hstored hid
  generalize hw₁ : ((a.verify D).run (exec D) a.es w).2 = w₁ at hsvc
  have hverify : (a.verify D).run (exec D) a.es w = (.ok v, w₁) := Prod.ext hv hw₁
  have hrun : a.run D w = (settleAssertion a.tenantID v).run (exec D)
      (fun n => a.es (((a.verify D).trace (exec D) a.es w).length + n)) w₁ := by
    unfold run
    rw [finishAssertion_eq]
    exact Program.run_bind_of_ok hverify
  rw [hrun]
  exact settleAssertion_run _ (by rw [hsvc]; exact hrow) hT hscan

theorem rule_of_passes {reported : Bytes → UInt32} (hlib : CountsAs D.library reported) {R : UUID}
    {a : Assertion} {w : World} {row : CredentialRow}
    (hrow : w.svc.db.credentials.get? R = some row) (h0 : 0 ≤ row.signCount)
    (h1 : row.signCount < 2 ^ 32) (h : a.Passes D R w) :
    Rule R (reported a.body) w (a.run D w) := by
  obtain ⟨v, cred, hv, hstored, hid⟩ := h.verified
  obtain ⟨hscan, -, -, session, at_, hlogin⟩ := verified_stored hrow hv hstored hid
  obtain ⟨loaded, hfind, hcount⟩ := hlib _ _ _ _ _ hlogin
  obtain ⟨stored, hfound, rfl⟩ := find?_stored hfind
  obtain rfl : stored = scanCredential row := Option.some.inj (hfound.symm.trans hscan)
  have hcheck := advances_iff h0 h1 (reported a.body)
  have hsettle := run_of_verified hrow hv hstored hid
  rw [hcount] at hsettle
  rintro n ⟨row', hget, rfl⟩
  obtain rfl : row = row' := Option.some.inj (hrow.symm.trans hget)
  by_cases hadv : Advances row.signCount (reported a.body)
  · have hpass := hcheck.mpr hadv
    obtain ⟨hok, hcounted⟩ := hsettle.1 hpass
    rw [if_pos (show Taken (a.storing D w) from h.stores),
      show counted (domainCredToWebAuthn (scanCredential row)).signCount (reported a.body) = _ from
        (counted_passes hpass).1] at hcounted
    exact ⟨⟨fun _ => hadv, fun _ => ⟨_, hok⟩⟩, fun _ => hcounted, fun hnot => absurd hadv hnot⟩
  · have hclone := hsettle.2 (not_not.mp fun hpass => hadv (hcheck.mp hpass))
    have hfails : ¬ ∃ ident, (a.run D w).1 = .ok ident := by
      rintro ⟨ident, hok⟩
      exact nomatch hclone.1.symm.trans hok
    exact ⟨⟨fun hok => absurd hok hfails, fun hyes => absurd hyes hadv⟩,
      fun hok => absurd hok hfails,
      fun _ => hclone⟩

/-- What holds of every assertion of a sequence, in the world it meets. -/
def Along (D : Deps Attrs) (p : Assertion → World → Prop) : List Assertion → World → Prop
  | [], _ => True
  | a :: rest, w => p a w ∧ Along D p rest (a.run D w).2

def after (D : Deps Attrs) : List Assertion → World → World
  | [], w => w
  | a :: rest, w => after D rest (a.run D w).2

/-- The counters that a sequence reports and that are accepted. -/
def accepted (D : Deps Attrs) (reported : Bytes → UInt32) : List Assertion → World → List UInt32
  | [], _ => []
  | a :: rest, w => (if (a.run D w).1.isOk then [reported a.body] else []) ++
      accepted D reported rest (a.run D w).2

/-- The rule along a sequence, with the counter that it leaves. -/
theorem rules_of_passes {reported : Bytes → UInt32} (hlib : CountsAs D.library reported) {R : UUID}
    (calls : List Assertion) : ∀ {w : World} {count : UInt32}, CountIs R count.toNat w →
    Along D (Passes D R) calls w →
    Along D (fun a w => Rule R (reported a.body) w (a.run D w)) calls w ∧
      (∀ n ∈ accepted D reported calls w, n ≠ 0 → count < n) ∧
      ((accepted D reported calls w).filter (· ≠ 0)).Pairwise (· < ·) ∧
      CountIs R ((accepted D reported calls w).getLastD count).toNat (after D calls w) := by
  induction calls with
  | nil => exact fun h _ => ⟨trivial, fun _ hn => absurd hn List.not_mem_nil, .nil, h⟩
  | cons a rest ih =>
    intro w count hcount ⟨hpass, hrest⟩
    obtain ⟨row, hrow, hn⟩ := hcount
    have hrange := UInt32.toNat_lt count
    have hrule := rule_of_passes hlib hrow (by omega) (by omega) hpass
    obtain ⟨hiff, hstored, hclone⟩ := hrule _ ⟨row, hrow, hn⟩
    by_cases hadv : Advances count.toNat (reported a.body)
    · have hok := hiff.mpr hadv
      have hisOk : (a.run D w).1.isOk = true := by
        obtain ⟨ident, hident⟩ := hok
        rw [hident]
        rfl
      obtain ⟨hrules, habove, hsorted, hlast⟩ := ih (hstored hok) hrest
      simp only [accepted, hisOk, if_true, List.singleton_append]
      have hfirst : count ≤ reported a.body ∧ (reported a.body ≠ 0 → count < reported a.body) := by
        rw [UInt32.le_iff_toNat_le, UInt32.lt_iff_toNat_lt]
        rcases hadv with hlt | ⟨hzero, hcount⟩
        · exact ⟨by omega, fun _ => by omega⟩
        · exact ⟨by omega, fun hne => absurd hzero hne⟩
      refine ⟨⟨hrule, hrules⟩, ?_, ?_, ?_⟩
      · intro n hmem hne
        rcases List.mem_cons.mp hmem with rfl | hmem
        · exact hfirst.2 hne
        · exact UInt32.lt_of_le_of_lt hfirst.1 (habove n hmem hne)
      · rw [List.filter_cons]
        split
        · refine List.pairwise_cons.mpr ⟨fun n hmem => ?_, hsorted⟩
          obtain ⟨hmem, hne⟩ := List.mem_filter.mp hmem
          exact habove n hmem (of_decide_eq_true hne)
        · exact hsorted
      · rw [List.getLastD_cons]
        exact hlast
    · have hisOk : (a.run D w).1.isOk = false := by
        rw [(hclone hadv).1]
        rfl
      obtain ⟨hrules, habove, hsorted, hlast⟩ := ih (hclone hadv).2 hrest
      simp only [accepted, hisOk, Bool.false_eq_true, if_false, List.nil_append]
      exact ⟨⟨hrule, hrules⟩, habove, hsorted, hlast⟩

/-- In every sequence of assertions on the credential `R` that pass their checks, each is
accepted just if its counter is greater than the stored one or both are zero, then stores
it, and otherwise reports a clone and stores nothing; so the accepted counters that are not
zero increase. -/
theorem sequential_counters (D : Deps Attrs) (reported : Bytes → UInt32)
    (hlib : CountsAs D.library reported) (R : UUID) (calls : List Assertion) (w : World)
    (row : CredentialRow) (hrow : w.svc.db.credentials.get? R = some row) (h0 : 0 ≤ row.signCount)
    (h1 : row.signCount < 2 ^ 32) (hpass : Along D (Passes D R) calls w) :
    Along D (fun a w => Rule R (reported a.body) w (a.run D w)) calls w ∧
      ((accepted D reported calls w).filter (· ≠ 0)).Pairwise (· < ·) := by
  have hcount : CountIs R (UInt32.ofInt row.signCount).toNat w := by
    refine ⟨row, hrow, ?_⟩
    rw [toNat_ofInt h0 h1]
    omega
  obtain ⟨hrules, -, hsorted, -⟩ := rules_of_passes hlib calls hcount hpass
  exact ⟨hrules, hsorted⟩

/-! ### Two assertions with one counter -/

/-- The passkey of `passkeyWorld` reports a counter. -/
def adaAsserts (challengeID : String) (count : UInt8) : Assertion where
  tenantID := (UUID.ofNat 1).toText
  handle := "ada"
  challengeID := challengeID
  body := [7, count]
  es := calmFrom 1

theorem adaAsserts_passes (challengeID : String) (count : UInt8) (w : World) (id : String)
    {R : UUID}
    (h : ((((adaAsserts challengeID count).verify countingDeps).run (exec countingDeps) (calmFrom 1)
      w).1.toOption.bind Verified.stored).map Credential.id = some id)
    (hid : UUID.ofText? id = some R) : Passes countingDeps R (adaAsserts challengeID count) w where
  verified := by
    obtain ⟨cred, hcred, rfl⟩ := Option.map_eq_some_iff.mp h
    obtain ⟨v, hv, hstored⟩ := Option.bind_eq_some_iff.mp hcred
    refine ⟨v, cred, ?_, hstored, hid⟩
    show (((adaAsserts challengeID count).verify countingDeps).run (exec countingDeps) (calmFrom 1)
      w).1 = .ok v
    generalize (((adaAsserts challengeID count).verify countingDeps).run (exec countingDeps)
      (calmFrom 1) w).1 = r at hv
    cases r with
    | error e => cases hv
    | ok v' => exact congrArg Except.ok (Option.some.inj hv)
  stores := ⟨rfl, rfl⟩

/-- Over the stored counter 5 the counter 6 is accepted, and not a second time. -/
theorem six_then_six :
    let w := withCeremony (withCeremony passkeyWorld "c") "d"
    let calls := [adaAsserts "c" 6, adaAsserts "d" 6]
    Along countingDeps (fun a w => Rule (.ofNat 5) (reportedCount a.body) w (a.run countingDeps w))
      calls w ∧ accepted countingDeps reportedCount calls w = [6] := by
  intro w calls
  refine ⟨(sequential_counters countingDeps reportedCount countingLibrary_counts (.ofNat 5) calls w
    adaPasskey rfl (by decide) (by decide) ⟨?_, ?_, trivial⟩).1, by decide +kernel⟩
  · exact adaAsserts_passes _ _ _ (UUID.ofNat 5).toText (by decide +kernel) (by decide)
  · exact adaAsserts_passes _ _ _ (UUID.ofNat 5).toText (by decide +kernel) (by decide)

end Assertion

end Verion.Auth
