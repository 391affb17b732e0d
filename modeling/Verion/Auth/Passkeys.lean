import Verion.Auth.Assertions
import Verion.Auth.Registration

/-!
# Passkeys that are stored and rebuilt

`FinishRegistration` writes the credential of the library into two tables, and
`domainCredToWebAuthn` makes the credential of the library again from a row. The
first never gets past its first insert; what the second gives back is said for
rows that hold what the insert sends.
-/

namespace Verion.Auth

open Calls Postgres Service
open Assertion (adaAsserts)

variable {Attrs : Type} {D : Deps Attrs}

/-! ### Registration -/

/-- No registration succeeds, whatever the library returns and however many passkeys the
identity has: the key is refused, and neither table gets a row. -/
theorem finishRegistration_never (D : Deps Attrs) (tenantID identityID sessionID : String)
    (body : Bytes) (es : Nat → Env) (w : World) :
    let ran := (finishRegistration D.primitives tenantID identityID sessionID body).run
        (exec D) es w
    (∃ e, ran.1 = .error e) ∧ ran.2.svc = w.svc := by
  intro ran
  obtain ⟨hfails, huntouched⟩ :=
    (finishRegistration_fails (D := D) tenantID identityID sessionID body).run es (w := w)
  exact ⟨hfails, huntouched.svc⟩

/-- What an error wraps at last. -/
def AuthError.cause : AuthError → Option Error
  | .domain (.wrap _ e) => some e
  | .wrap _ e => e.cause
  | _ => none

/-- The identity of `smallWorld` is active and has no passkey, the library accepts its new one
and every call gets through; the key is refused for its missing JWK. -/
theorem ada_cannot_register :
    let w := withCeremony { World.empty with svc := smallWorld } "c"
    let ran := (finishRegistration syncedDeps.primitives (UUID.ofNat 1).toText (UUID.ofNat 2).toText
      "c" [8]).run (exec syncedDeps) (calmFrom 1) w
    (match ran.1 with
      | .error e => e.cause
      | .ok _ => none) = some (.pg (.server .notNullViolation)) ∧
    ran.2.svc.db.identityKeys.rows = [] ∧ ran.2.svc.db.credentials.rows = [] := by
  decide +kernel

/-! ### Assertions that are accepted -/

namespace Assertion

/-- The checks pass for the credential `R`. -/
def Verifies (D : Deps Attrs) (R : UUID) (a : Assertion) (w : World) : Prop :=
  ∃ v cred, ((a.verify D).run (exec D) a.es w).1 = .ok v ∧ v.stored = some cred ∧
    UUID.ofText? cred.id = some R

/-- The counter of an assertion that succeeds. -/
def accepts (D : Deps Attrs) (a : Assertion) (w : World) : Option UInt32 :=
  match ((a.verify D).run (exec D) a.es w).1, (a.run D w).1 with
  | .ok v, .ok _ => some v.credential.signCount
  | _, _ => none

def counters (D : Deps Attrs) : List Assertion → World → List UInt32
  | [], _ => []
  | a :: rest, w => (a.accepts D w).toList ++ counters D rest (a.run D w).2

/-- The last counter that is accepted is stored, or was so before. -/
def LastKept (D : Deps Attrs) (R : UUID) : List Assertion → World → Prop
  | [], _ => True
  | a :: rest, w =>
    (∀ n, a.accepts D w = some n → counters D rest (a.run D w).2 = [] →
      Taken (a.storing D w) ∨ CountIs R n.toNat w) ∧ LastKept D R rest (a.run D w).2

theorem countIs_inj {R : UUID} {n m : UInt32} {w : World} (h : CountIs R n.toNat w)
    (h' : CountIs R m.toNat w) : n = m := by
  obtain ⟨row, hrow, hn⟩ := h
  obtain ⟨row', hrow', hm⟩ := h'
  obtain rfl : row = row' := Option.some.inj (hrow.symm.trans hrow')
  have : n.toNat = m.toNat := by omega
  exact UInt32.toNat_inj.mp this

/-- One assertion: refused, it leaves the counter; accepted, it stores its own if it can. -/
theorem accepts_cases {R : UUID} {a : Assertion} {w : World} {count : UInt32}
    (hcount : CountIs R count.toNat w) (h : a.Verifies D R w) :
    (a.accepts D w = none ∧ CountIs R count.toNat (a.run D w).2) ∨
    ∃ n, a.accepts D w = some n ∧
      CountIs R (if Taken (a.storing D w) then n else count).toNat (a.run D w).2 := by
  obtain ⟨v, cred, hv, hstored, hid⟩ := h
  obtain ⟨row, hrow, hn⟩ := hcount
  obtain ⟨hpass, hclone⟩ := run_of_verified hrow hv hstored hid
  rw [hn] at hpass hclone
  by_cases hreg : Regresses count.toNat v.credential.signCount
  · obtain ⟨hfails, hkept⟩ := hclone hreg
    exact .inl ⟨by simp only [accepts, hv, hfails], hkept⟩
  · obtain ⟨hok, hwritten⟩ := hpass hreg
    refine .inr ⟨v.credential.signCount, by simp only [accepts, hv, hok], ?_⟩
    rwa [apply_ite UInt32.toNat, apply_ite (Nat.cast : Nat → Int)]

/-- The counter that a sequence leaves is the last accepted one just if that one was kept. -/
theorem counters_last {R : UUID} (calls : List Assertion) : ∀ {w : World} {count : UInt32},
    CountIs R count.toNat w → Along D (Verifies D R) calls w →
    ∃ final : UInt32, CountIs R final.toNat (after D calls w) ∧
      (counters D calls w = [] → final = count) ∧
      (final = (counters D calls w).getLastD count ↔ LastKept D R calls w) := by
  induction calls with
  | nil => exact fun {_ count} hcount _ => ⟨count, hcount, fun _ => rfl, iff_of_true rfl trivial⟩
  | cons a rest ih =>
    intro w count hcount ⟨hverifies, hrest⟩
    rcases accepts_cases hcount hverifies with ⟨hnone, hleft⟩ | ⟨n, hsome, hleft⟩
    · obtain ⟨final, hfinal, hnothing, hlast⟩ := ih hleft hrest
      refine ⟨final, hfinal, ?_, ?_⟩ <;>
        simp only [counters, LastKept, hnone, Option.toList_none, List.nil_append]
      · exact hnothing
      · exact hlast.trans ⟨fun h => ⟨(fun _ hn => nomatch hn), h⟩, And.right⟩
    · obtain ⟨final, hfinal, hnothing, hlast⟩ := ih hleft hrest
      refine ⟨final, hfinal, ?_, ?_⟩ <;>
        simp only [counters, LastKept, hsome, Option.toList_some, List.singleton_append,
          List.getLastD_cons, Option.some.injEq]
      · exact fun h => nomatch h
      · split at hlast
        case isTrue hsent =>
          exact hlast.trans ⟨fun h => ⟨fun _ _ _ => .inl hsent, h⟩, And.right⟩
        case isFalse hlost =>
          rw [if_neg hlost] at hnothing
          generalize counters D rest (a.run D w).2 = later at *
          cases later with
          | nil =>
            -- the counter is lost unless it was there already
            have hsame := hnothing rfl
            have hkept := hlast.mp hsame
            rw [hsame]
            constructor
            · rintro rfl
              exact ⟨fun _ hn _ => .inr (hn ▸ hcount), hkept⟩
            · rintro ⟨h, -⟩
              exact countIs_inj hcount ((h n rfl rfl).resolve_left hlost)
          | cons m later =>
            rw [List.getLastD_cons] at hlast ⊢
            exact hlast.trans ⟨fun h => ⟨(fun _ _ hnil => nomatch hnil), h⟩, And.right⟩

end Assertion

/-! ### What is rebuilt -/

/-- The credential has what the library asks of it, and the counter `n`. -/
structure Rebuilt (cred : LibraryCredential) (n : UInt32) (c : LibraryCredential) : Prop where
  id : c.id = cred.id
  publicKey : c.publicKey = cred.publicKey
  aaguid : c.aaguid = cred.aaguid
  backupEligible : c.backupEligible = cred.backupEligible
  signCount : c.signCount = n

/-- The row of a passkey holds the identifier and the key of the library's credential. -/
def Holds (cred : LibraryCredential) (R : UUID) (w : World) : Prop :=
  ∃ row, w.svc.db.credentials.get? R = some row ∧ row.credentialID = cred.id ∧
    cred.publicKey = some row.data

theorem holds_exec {cred : LibraryCredential} {R : UUID} (c : Op Attrs) (e : Env) {w : World}
    (h : Holds cred R w) : Holds cred R (exec D c e w).2 := by
  obtain ⟨row, hrow, hid, hdata⟩ := h
  cases c with
  | svc c =>
    obtain ⟨row', hrow', hid', hdata'⟩ :=
      (exec_credentialStep D.primitives c e.svc w.svc).material hrow
    exact ⟨row', hrow', hid'.trans hid, by rw [hdata']; exact hdata⟩
  | _ => exact ⟨row, hrow, hid, hdata⟩

theorem holds_after {cred : LibraryCredential} {R : UUID} (calls : List Assertion) : ∀ {w : World},
    Holds cred R w → Holds cred R (Assertion.after D calls w) := by
  induction calls with
  | nil => exact fun h => h
  | cons a rest ih =>
    exact fun h => ih ((Program.run_leads rfl).invariant (fun c e _ => holds_exec c e) h)

/-- The credential rebuilt from a row that holds what a registration sends, after any number of
later assertions on it, is the registered one just if that one has no AAGUID and may not be
backed up, and the last accepted counter was kept. -/
theorem passkey_rebuilt_iff (D : Deps Attrs) (tenantID identityID keyID : String)
    (cred : LibraryCredential) (row : CredentialRow)
    (hstored : StoredAs (registeredCredential tenantID identityID keyID cred) row) (w : World)
    (hrow : w.svc.db.credentials.get? row.id = some row) (calls : List Assertion)
    (hcalls : Assertion.Along D (Assertion.Verifies D row.id) calls w) :
    ∃ row', (Assertion.after D calls w).svc.db.credentials.get? row.id = some row' ∧
      (Rebuilt cred ((Assertion.counters D calls w).getLastD cred.signCount)
          (domainCredToWebAuthn (scanCredential row')) ↔
        (cred.aaguid = [] ∧ cred.backupEligible = false) ∧
          Assertion.LastKept D row.id calls w) := by
  have hcount : CountIs row.id cred.signCount.toNat w := ⟨row, hrow, hstored.signCount⟩
  obtain ⟨final, ⟨row', hrow', hfinal⟩, -, hlast⟩ := Assertion.counters_last calls hcount hcalls
  obtain ⟨held, hheld, hid, hdata⟩ := holds_after (D := D) calls
    (⟨row, hrow, hstored.credentialID, hstored.data⟩ : Holds cred row.id w)
  obtain rfl : row' = held := Option.some.inj (hrow'.symm.trans hheld)
  have hsign : (domainCredToWebAuthn (scanCredential row')).signCount = final := by
    show UInt32.ofInt row'.signCount = final
    rw [hfinal]
    exact UInt32.toNat_inj.mp
      (by rw [toNat_ofInt (by omega) (by have := final.toNat_lt; omega)]; omega)
  refine ⟨row', hrow', ?_⟩
  constructor
  · intro h
    exact ⟨⟨h.aaguid.symm, h.backupEligible.symm⟩, hlast.mp (hsign.symm.trans h.signCount)⟩
  · rintro ⟨⟨haaguid, hbackup⟩, hkept⟩
    exact ⟨hid, hdata.symm, haaguid.symm, hbackup.symm, hsign.trans (hlast.mpr hkept)⟩

/-- The passkey of `passkeyWorld`, without an AAGUID, after the counters 6 and 6. -/
theorem plain_passkey_rebuilt :
    let w := withCeremony (withCeremony passkeyWorld "c") "d"
    let calls := [adaAsserts "c" 6, adaAsserts "d" 6]
    ∃ row, (Assertion.after countingDeps calls w).svc.db.credentials.get? (.ofNat 5) = some row ∧
      Rebuilt { id := some [7], publicKey := some [1], signCount := 5 } 6
        (domainCredToWebAuthn (scanCredential row)) := by
  intro w calls
  have hlast : (Assertion.counters countingDeps calls w).getLastD 5 = 6 := by decide +kernel
  have hfirst := Assertion.adaAsserts_passes "c" 6 w
    (UUID.ofNat 5).toText (R := .ofNat 5) (by decide +kernel) (by decide)
  have hsecond := Assertion.adaAsserts_passes "d" 6
    ((adaAsserts "c" 6).run countingDeps w).2 (UUID.ofNat 5).toText (R := .ofNat 5)
    (by decide +kernel) (by decide)
  obtain ⟨row, hrow, hiff⟩ := passkey_rebuilt_iff countingDeps "" "" ""
    { id := some [7], publicKey := some [1], signCount := 5 } adaPasskey ⟨rfl, rfl, rfl⟩ w rfl calls
    ⟨hfirst.verified, hsecond.verified, trivial⟩
  refine ⟨row, hrow, ?_⟩
  rw [← hlast]
  exact hiff.mpr ⟨⟨rfl, rfl⟩, (fun _ _ _ => .inl ⟨rfl, rfl⟩),
    (fun _ _ _ => .inl ⟨rfl, rfl⟩), trivial⟩

/-- With its two inserts filled up, the registration of a passkey with an AAGUID that may be
backed up stores a row from which neither is rebuilt. -/
theorem synced_passkey_lost :
    let w := withCeremony { World.empty with svc := smallWorld } "c"
    let cred : LibraryCredential :=
      { id := some [8], publicKey := some [1], aaguid := List.replicate 16 1,
        backupEligible := true }
    let ran := (finishRegistration syncedDeps.primitives (UUID.ofNat 1).toText (UUID.ofNat 2).toText
      "c" [8]).run (inserting syncedDeps (fillingInserts plainPrimitives)) (calmFrom 1) w
    (∀ user session now, syncedDeps.library.finishRegistration user session [8] now = .ok cred) ∧
    ran.1.isOk = true ∧
    ∃ row ∈ ran.2.svc.db.credentials.rows, StoredAs (registeredCredential "" "" "" cred) row ∧
      ¬ Rebuilt cred cred.signCount (domainCredToWebAuthn (scanCredential row)) := by
  intro w cred ran
  refine ⟨fun _ _ _ => rfl, by decide +kernel, ?_⟩
  have hrows : ran.2.svc.db.credentials.rows.map
      (fun row => (row.credentialID, row.data, row.signCount)) = [(some [8], [1], 0)] := by
    decide +kernel
  obtain ⟨row, hmem, hrow⟩ := List.mem_map.mp (hrows ▸ List.mem_singleton_self _)
  obtain ⟨hid, hdata, hcount⟩ : row.credentialID = some [8] ∧ row.data = [1] ∧
      row.signCount = 0 := by
    simpa using hrow
  refine ⟨row, hmem, ⟨hid, congrArg some hdata.symm, hcount⟩, fun h => ?_⟩
  exact absurd h.backupEligible Bool.false_ne_true

end Verion.Auth
