import Verion.Auth.Challenges
import Verion.Service.Credentials

/-!
# The signature counter under interleaved assertions

`FinishAssertion` compares the reported counter with the one it loaded at its
beginning and stores it at its end, unconditionally and without looking at the
error. The library keeps the loaded counter unless the reported one is greater
or both are zero.
-/

namespace Verion.Auth

open Calls Postgres Service

variable {Attrs ι α : Type}

/-- The counter that the library leaves in the credential. -/
def counted (loaded reported : UInt32) : UInt32 :=
  if loaded < reported ∨ (reported = 0 ∧ loaded = 0) then reported else loaded

/-- What is taken of `FinishLogin`: it returns the credential of the user that the response
names, with the counter `counted`. -/
def CountsAs (L : Library) (reported : Bytes → UInt32) : Prop :=
  ∀ user session body now cred, L.finishLogin user session body now = .ok cred →
    ∃ loaded, user.credentials.find? (fun c => c.id.getD [] == cred.id.getD []) = some loaded ∧
      cred.signCount = counted loaded.signCount (reported body)

/-- What passes the check of the service is the reported counter, and it is new. -/
theorem counted_passes {loaded reported : UInt32}
    (h : ¬ (counted loaded reported ≠ 0 ∧ counted loaded reported ≤ loaded)) :
    counted loaded reported = reported ∧ (loaded < reported ∨ (reported = 0 ∧ loaded = 0)) := by
  unfold counted at h ⊢
  split
  · exact ⟨rfl, ‹_›⟩
  · rename_i hold
    rw [if_neg hold] at h
    have hzero : loaded = 0 := by
      by_contra hne
      exact h ⟨hne, UInt32.le_refl loaded⟩
    subst hzero
    have hreported : reported = 0 := by
      by_contra hne
      exact hold (.inl (UInt32.pos_iff_ne_zero.mpr hne))
    exact ⟨hreported.symm, .inr ⟨hreported, rfl⟩⟩

/-! ### What a request has done when it stores a counter -/

def listed (tenantID identityID : String) (creds : List Credential) : AuthEvent Attrs :=
  ⟨.svc (.repo (.credentials (.listByIdentity tenantID identityID (some .active)))), .ok creds⟩

/-- The call stores the counter `n` in the credential. -/
def Counts (R : UUID) (n : Int) (c : Op Attrs) : Prop :=
  ∃ tenantID id, c = .svc (.repo (.credentials (.updateSignCount tenantID id n))) ∧
    UUID.ofText? id = some R

def CountsNothing : Op Attrs → Prop
  | .svc (.repo (.credentials (.updateSignCount ..))) => False
  | _ => True

/-- The counter to store is the reported one, newer than the one that was loaded. -/
def Newer (reported : UInt32) (h : List (AuthEvent Attrs)) : Op Attrs → Prop
  | .svc (.repo (.credentials (.updateSignCount tenantID id n))) =>
    n = reported.toNat ∧ ∃ identityID creds, listed tenantID identityID creds ∈ h ∧
      ∃ stored ∈ creds, stored.id = id ∧ (UInt32.ofInt stored.signCount < reported ∨
        (reported = 0 ∧ UInt32.ofInt stored.signCount = 0))
  | _ => True

theorem CountsNothing.newer {c : Op Attrs} (hc : CountsNothing c) (reported : UInt32)
    (h : List (AuthEvent Attrs)) : Newer reported h c := by
  unfold Newer
  split
  · exact absurd hc not_false
  · trivial

/-- The counter was sent to the database. -/
def Sent (reported : UInt32) (h : List (AuthEvent Attrs)) : Prop :=
  ∃ ev ∈ h, ∃ R, Counts R reported.toNat ev.op

theorem Sent.mono {reported : UInt32} {h h' : List (AuthEvent Attrs)} (hs : Sent reported h)
    (hsub : ∀ ev ∈ h, ev ∈ h') : Sent reported h' := by
  obtain ⟨ev, hmem, hev⟩ := hs
  exact ⟨ev, hsub ev hmem, hev⟩

theorem outer_countsNothing {c : Op Attrs} (hc : Outer c) : CountsNothing c := by
  cases c with
  | svc c => exact absurd hc not_false
  | _ => trivial

def newer (reported : UInt32) (Q : List (AuthEvent Attrs) → α → Prop) :
    Protocol (@Op.Reply Attrs) AuthError α where
  call := Newer reported
  done h x := ∀ a, x = .ok a → Q h a

section Obeys

variable {D : Deps Attrs} {β : Type} {reported : UInt32} {Q : List (AuthEvent Attrs) → α → Prop}
  {h : List (AuthEvent Attrs)}

theorem newer_bind {q : Ceremony Attrs β} {f : β → Ceremony Attrs α} (hq : q.Only CountsNothing)
    (hf : ∀ a h', (∀ ev ∈ h, ev ∈ h') → (f a).Obeys (exec D) (newer reported Q) h') :
    (q >>= f).Obeys (exec D) (newer reported Q) h :=
  hq.obeys_bind (fun h _ hc => hc.newer _ h) (fun _ _ _ hx => nomatch hx)
    fun a h' hsub _ => hf a h' hsub

/-- What has been sent stays sent. -/
theorem newer_sent {q : Ceremony Attrs α} (hq : q.Only CountsNothing) (hs : Sent reported h)
    (hQ : ∀ h a, Sent reported h → Q h a) : q.Obeys (exec D) (newer reported Q) h := by
  induction q generalizing h with
  | ret a => exact fun b _ => hQ h b hs
  | fail e => exact fun _ hx => nomatch hx
  | call c k ih =>
    exact ⟨hq.1.newer _ h, fun r _ => ih r (hq.2 r) (hs.mono fun _ hev => .tail _ hev)⟩

theorem newer_passkeys_bind {tenantID identityID context : String}
    {f : List Credential → Ceremony Attrs α}
    (hf : ∀ creds, (∀ cred ∈ creds, ∃ R : UUID, UUID.ofText? cred.id = some R) →
      (f (creds.filter isPasskey)).Obeys (exec D) (newer reported Q)
        (listed tenantID identityID creds :: h)) :
    (passkeys tenantID identityID context >>= f).Obeys (exec D) (newer reported Q) h := by
  unfold passkeys
  rw [Program.bind_assoc]
  refine obeys_repo_bind trivial (fun creds hcreds => hf creds ?_) fun _ _ _ hx => nomatch hx
  obtain ⟨e, w, hok⟩ := hcreds
  obtain ⟨T, -, hrows⟩ := listCredentials_ok (P := D.primitives) hok
  intro cred hcred
  obtain ⟨row, -, -, rfl⟩ := hrows cred hcred
  exact ⟨row.id, UUID.ofText?_toText _⟩

/-- The credential that the service looks up is the one the library has found. -/
theorem find?_stored {ident : Identity Attrs} {creds : List Credential} {id : Bytes}
    {loaded : LibraryCredential}
    (h : (newVerionUserWithCreds ident creds).credentials.find? (fun c => c.id.getD [] == id) =
      some loaded) :
    ∃ stored, creds.find? (fun c => c.credentialID.getD [] == id) = some stored ∧
      domainCredToWebAuthn stored = loaded := by
  have hmap : (creds.map domainCredToWebAuthn).find? (fun c => c.id.getD [] == id) = some loaded :=
      h
  rw [List.find?_map] at hmap
  exact Option.map_eq_some_iff.mp hmap

/-- The counter is stored when it passes the check. -/
theorem advanceCounter_newer {tenantID identityID idAsked : String} {creds : List Credential}
    {stored : Credential} {R : UUID} {loaded reported : UInt32}
    (hlisted : listed tenantID idAsked creds ∈ h) (hmem : stored ∈ creds)
    (hR : UUID.ofText? stored.id = some R) (hloaded : loaded = UInt32.ofInt stored.signCount) :
    (advanceCounter tenantID identityID stored (counted loaded reported)).Obeys (exec D)
      (newer reported fun h _ => Sent reported h) h := by
  unfold advanceCounter
  split
  · exact newer_bind (only_dropError trivial) fun _ _ _ _ hx => nomatch hx
  · rename_i hpass
    subst hloaded
    obtain ⟨hcount, hnew⟩ := counted_passes hpass
    rw [hcount]
    refine ⟨⟨rfl, idAsked, creds, hlisted, stored, hmem, rfl, hnew⟩, fun r _ => ?_⟩
    have hsent : Sent reported (⟨.svc (.repo (.credentials
        (.updateSignCount tenantID stored.id reported.toNat))), r⟩ :: h) :=
      ⟨_, List.mem_cons_self .., R, tenantID, stored.id, rfl, hR⟩
    exact ⟨trivial, fun at_ _ => ⟨trivial, fun _ _ _ _ => hsent.mono fun _ hev =>
      .tail _ (.tail _ hev)⟩⟩

theorem finishAssertion_newer {reported : Bytes → UInt32} (hlib : CountsAs D.library reported)
    (tenantID handle challengeID : String) (body : Bytes) :
    (finishAssertion D.primitives tenantID handle challengeID body).Obeys (exec D)
      (newer (reported body) fun h _ => Sent (reported body) h) h := by
  refine newer_bind (only_getIdentityByHandle trivial _) fun ident h _ => ?_
  refine newer_bind (only_refuseIf _ _) fun _ h _ => ?_
  refine newer_passkeys_bind fun creds hids => ?_
  refine newer_bind (only_getChallenge (fun c hc _ => outer_countsNothing hc) _ _ _)
    fun session h hsub => ?_
  have hlisted := hsub _ (List.mem_cons_self ..)
  refine ⟨trivial, fun reply hreply => ?_⟩
  cases reply with
  | error text =>
    show (dropError _ >>= _).Obeys _ _ _
    refine newer_bind (only_dropError trivial) fun _ _ _ _ hx => ?_
    cases hx
  | ok credential =>
    obtain ⟨e, w, hok⟩ := hreply
    obtain ⟨loaded, hfind, hcount⟩ := hlib _ _ _ _ _ hok
    obtain ⟨stored, hstored, rfl⟩ := find?_stored hfind
    have hmem : stored ∈ creds := (List.mem_filter.mp (List.mem_of_find?_eq_some hstored)).1
    obtain ⟨R, hR⟩ := hids stored hmem
    dsimp only [Program.bind]
    rw [hstored, hcount]
    refine (Program.obeys_bind _ _ _).mpr
      ((advanceCounter_newer (.tail _ hlisted) hmem hR rfl).mono ?_ ?_)
    · exact fun _ _ hc => hc
    · intro h x hx
      cases x with
      | error e =>
        intro _ hx
        cases hx
      | ok u =>
        exact newer_sent ((only_dropError trivial).bind fun _ => trivial) (hx u rfl)
          fun _ _ hsent => hsent

end Obeys

/-- The response that a request to finish an assertion carries. -/
def assertionBody : Request Attrs → Option Bytes
  | .finishAssertion _ _ _ body => some body
  | .loginComplete _ _ _ r => some r.body
  | _ => none

/-- Only a request that finishes an assertion stores a counter, and only with `Newer`; one
that succeeds has stored the counter it reports. -/
def counting (reported : Bytes → UInt32) (req : Request Attrs) :
    Protocol (@Op.Reply Attrs) AuthError (Response Attrs) where
  call h c := match assertionBody req with
    | some body => Newer (reported body) h c
    | none => CountsNothing c
  done h x := ∀ body resp challengeID id, assertionBody req = some body → x = .ok resp →
    Finished req resp challengeID id → Sent (reported body) h

section Requests

variable {D : Deps Attrs} {reported : Bytes → UInt32}

theorem looks_countsNothing {c : Op Attrs} (hc : Looks c) : CountsNothing c := by
  cases hc with
  | outer hc => exact outer_countsNothing hc
  | now => trivial
  | @read c hc =>
    unfold CountsNothing
    split
    · rename_i heq
      cases heq
      cases hc
    · trivial

theorem service_countsNothing {req : Service.Request Attrs} {c : Service.Op Attrs}
    (hc : Service.MayCall req c) : CountsNothing (.svc c) := by
  cases hc <;> trivial

theorem finishRegistration_countsNothing (tenantID identityID challengeID : String) (body : Bytes) :
    (finishRegistration D.primitives tenantID identityID challengeID body).Only CountsNothing :=
  only_finishRegistration (fun _ hc _ => outer_countsNothing hc)
    (fun _ hc => looks_countsNothing (.read hc)) (fun _ => trivial) (fun _ => trivial)
    (fun _ _ => trivial) (fun _ _ => trivial) challengeID body

theorem registerComplete_countsNothing (ttl : Nat) (tenantID identityID challengeID : String)
    (r : HttpRequest) :
    (registerComplete D.primitives ttl tenantID identityID challengeID r).Only CountsNothing := by
  unfold registerComplete
  split
  · trivial
  · refine only_attempt_bind (finishRegistration_countsNothing ..) fun result => ?_
    cases result with
    | error e => trivial
    | ok result => exact (openSession_looks ..).mono fun _ hc => looks_countsNothing hc

theorem loginComplete_newer (hlib : CountsAs D.library reported) (ttl : Nat)
    (tenantID handle challengeID : String) (r : HttpRequest)
    {h : List (AuthEvent Attrs)} :
    (loginComplete D.primitives ttl tenantID handle challengeID r).Obeys (exec D)
      (newer (reported r.body) fun h resp => (∀ status message, resp ≠ ⟨status, .error message⟩) →
        Sent (reported r.body) h) h := by
  unfold loginComplete
  split
  · rintro _ ⟨⟩ hresp
    exact absurd rfl (hresp _ _)
  · have hfinish := finishAssertion_newer (h := h) hlib tenantID handle challengeID r.body
    refine (Program.obeys_attempt_bind _ _ _).mpr (hfinish.mono ?_ ?_)
    · exact fun _ _ hc => hc
    · intro h x hx
      cases x with
      | error e =>
        rintro _ ⟨⟩ hresp
        cases e <;> exact absurd rfl (hresp _ _)
      | ok ident =>
        exact newer_sent ((openSession_looks ..).mono fun _ => looks_countsNothing) (hx ident rfl)
          fun _ _ hsent _ => hsent

theorem request_counting (hlib : CountsAs D.library reported) (req : Request Attrs) :
    (req.program D).Obeys (exec D) (counting reported req) [] := by
  have hnone : ∀ req : Request Attrs, assertionBody req = none →
      (req.program D).Only CountsNothing →
      (req.program D).Obeys (exec D) (counting reported req) [] := by
    intro req hbody honly
    refine honly.obeys (fun h c hc => ?_) (fun h x => ?_) []
    · simp only [counting, hbody]
      exact hc
    · intro body resp challengeID id hsome
      exact nomatch hbody.symm.trans hsome
  cases req with
  | service req =>
    exact hnone _ rfl (only_respond ((Service.program_only D.primitives req).embed
      fun _ => service_countsNothing))
  | beginRegistration =>
    exact hnone _ rfl (only_respond ((beginRegistration_mute ..).mono fun _ hc =>
      looks_countsNothing hc.1))
  | beginAssertion =>
    exact hnone _ rfl (only_respond ((beginAssertion_mute ..).mono fun _ hc =>
      looks_countsNothing hc.1))
  | registerBegin =>
    exact hnone _ rfl (only_respond ((registerBegin_mute _).mono fun _ hc =>
      looks_countsNothing hc.1))
  | loginBegin =>
    exact hnone _ rfl (only_respond ((loginBegin_mute _).mono fun _ hc => looks_countsNothing hc.1))
  | finishRegistration =>
    exact hnone _ rfl (only_respond (finishRegistration_countsNothing ..))
  | registerComplete =>
    exact hnone _ rfl (only_respond (registerComplete_countsNothing ..))
  | finishAssertion tenantID handle challengeID body =>
    have hfinish := finishAssertion_newer (h := []) hlib tenantID handle challengeID body
    refine obeys_respond (hfinish.mono ?_ ?_)
    · exact fun _ _ hc => hc
    · rintro h x hx _ resp cid id ⟨⟩ hresp -
      cases x with
      | error e => cases hresp
      | ok ident => exact hx ident rfl
  | loginComplete tenantID handle challengeID r =>
    have hlogin := loginComplete_newer (h := []) hlib D.sessionTTL tenantID handle challengeID r
    refine obeys_respond (hlogin.mono ?_ ?_)
    · exact fun _ _ hc => hc
    · rintro h x hx _ resp cid id ⟨⟩ hresp hfin
      cases x with
      | error e => cases hresp
      | ok http =>
        cases hresp
        refine hx http rfl fun status message heq => ?_
        subst heq
        exact not_finished_error hfin

end Requests

/-! ### One step -/

/-- A counter is stored while the one that was loaded is still current, and the database
carries it out. -/
def CountStands (R : UUID) (s : Requests ι Attrs) (i : ι) (e : Env) : Prop :=
  ∀ c k n, s.prog i = .call c k → Counts R n c →
    (e.svc.statements 0).available = true ∧ (e.svc.statements 1).available = true ∧
    ∀ row, s.world.svc.db.credentials.get? R = some row →
      0 ≤ row.signCount ∧ row.signCount < 2 ^ 32 ∧
      ∀ tenantID identityID creds, (i, listed tenantID identityID creds) ∈ s.log →
        ∀ cred ∈ creds, UUID.ofText? cred.id = some R → cred.signCount = row.signCount

/-- The credential `R` of the tenant `T` and what the log says of it. -/
structure Tracked (R T : UUID) (s : Requests ι Attrs) : Prop where
  row : ∃ row, s.world.svc.db.credentials.get? R = some row ∧ row.tenantID = T
  loads : ∀ i tenantID identityID creds, (i, listed tenantID identityID creds) ∈ s.log →
    ∀ cred ∈ creds, UUID.ofText? cred.id = some R → UUID.ofText? tenantID = some T
  bounded : ∀ x ∈ s.log, ∀ n row, Counts R n x.2.op →
    s.world.svc.db.credentials.get? R = some row → n ≤ row.signCount
  distinct : ∀ x ∈ s.log, ∀ y ∈ s.log, ∀ n, Counts R n x.2.op → Counts R n y.2.op →
    x.1 ≠ y.1 → n = 0

theorem toNat_ofInt {x : Int} (h0 : 0 ≤ x) (h1 : x < 2 ^ 32) :
    (UInt32.ofInt x).toNat = x.toNat := by
  unfold UInt32.ofInt
  rw [UInt32.toNat_ofNat', Int.emod_eq_of_lt h0 h1, Nat.mod_eq_of_lt]
  omega

/-- In the range of the counter the comparison of the service is that of the stored numbers. -/
theorem newer_of_range {x : Int} (h0 : 0 ≤ x) (h1 : x < 2 ^ 32) {reported : UInt32}
    (h : UInt32.ofInt x < reported ∨ (reported = 0 ∧ UInt32.ofInt x = 0)) :
    x ≤ reported.toNat ∧ ((reported.toNat : Int) ≠ 0 → x < reported.toNat) := by
  have hx := toNat_ofInt h0 h1
  rcases h with hlt | ⟨rfl, hzero⟩
  · have hlt' := UInt32.lt_iff_toNat_lt.mp hlt
    omega
  · rw [hzero] at hx
    have hx0 : x.toNat = 0 := hx.symm
    refine ⟨?_, fun hne => absurd rfl hne⟩
    simp only [UInt32.toNat_zero]
    omega

section Step

variable [DecidableEq ι] {D : Deps Attrs} {reported : Bytes → UInt32} {req : ι → Request Attrs}
  {s : Requests ι Attrs} {i : ι} {e : Env} {R T : UUID} {c : Op Attrs}
  {k : c.Reply → Ceremony Attrs (Response Attrs)}

theorem Counts.unique {R R' : UUID} {n m : Int} (h : Counts R n c) (h' : Counts R' m c) :
    n = m := by
  obtain ⟨tenantID, id, rfl, -⟩ := h
  obtain ⟨tenantID', id', heq, -⟩ := h'
  cases heq
  rfl

/-- A call that does not store the counter leaves it. -/
theorem count_kept {w : World} {row : CredentialRow} (hcount : ∀ n, ¬ Counts R n c)
    (hrow : w.svc.db.credentials.get? R = some row) :
    ∃ row', (exec D c e w).2.svc.db.credentials.get? R = some row' ∧
      row'.tenantID = row.tenantID ∧ row'.signCount = row.signCount := by
  cases c with
  | svc c =>
    obtain ⟨row', hrow', hT, hsame | ⟨tenantID, id, rfl, hid⟩⟩ :=
      (exec_credentialStep D.primitives c e.svc w.svc).count hrow
    · exact ⟨row', hrow', hT, hsame⟩
    · exact absurd ⟨tenantID, id, rfl, hid⟩ (hcount row'.signCount)
  | _ => exact ⟨row, hrow, rfl, rfl⟩

/-- The stored counter before and after a step that meets the condition. -/
theorem count_step (ht : Tracked R T s)
    (ho : Pool.Obeyed (exec D) (fun i => counting reported (req i)) s)
    (hok : CountStands R s i e) (hc : s.prog i = .call c k) :
    ∃ row row', s.world.svc.db.credentials.get? R = some row ∧
      (exec D c e s.world).2.svc.db.credentials.get? R = some row' ∧ row'.tenantID = T ∧
      ((∀ n, ¬ Counts R n c) ∧ row'.signCount = row.signCount ∨
        Counts R row'.signCount c ∧ row.signCount ≤ row'.signCount ∧
          (row'.signCount ≠ 0 → row.signCount < row'.signCount)) := by
  obtain ⟨row, hrow, hT⟩ := ht.row
  by_cases hcount : ∃ n, Counts R n c
  · obtain ⟨n, hcounts⟩ := hcount
    obtain ⟨h0, h1, hstands⟩ := hok c k n hc hcounts
    obtain ⟨hlow, hhigh, hloaded⟩ := hstands row hrow
    obtain ⟨tenantID, id, rfl, hid⟩ := hcounts
    have hcall := ho.call hc
    simp only [counting] at hcall
    split at hcall
    · rename_i body hbody
      obtain ⟨rfl, identityID, creds, hlisted, stored, hmem, rfl, hnew⟩ := hcall
      have hlog := Pool.mem_hist.mp hlisted
      have htenant := ht.loads i tenantID identityID creds hlog stored hmem hid
      rw [hloaded tenantID identityID creds hlog stored hmem hid] at hnew
      obtain ⟨hle, hlt⟩ := newer_of_range hlow hhigh hnew
      refine ⟨row, _, hrow, exec_updateSignCount (P := D.primitives) hrow (hT ▸ htenant) hid h0 h1,
        hT, .inr ?_⟩
      exact ⟨⟨tenantID, stored.id, rfl, hid⟩, hle, hlt⟩
    · exact absurd hcall not_false
  · have hnone : ∀ n, ¬ Counts R n c := fun n hn => hcount ⟨n, hn⟩
    obtain ⟨row', hrow', hT', hsame⟩ := count_kept (e := e) hnone hrow
    exact ⟨row, row', hrow, hrow', hT'.trans hT, .inl ⟨hnone, hsame⟩⟩

/-- What a request loads of the credential it loads for its tenant. -/
theorem loads_step {w : World} {row : CredentialRow} {tenantID identityID : String}
    {creds : List Credential} (hrow : w.svc.db.credentials.get? R = some row)
    (hev : (⟨c, (exec D c e w).1⟩ : AuthEvent Attrs) = listed tenantID identityID creds)
    {cred : Credential} (hcred : cred ∈ creds) (hid : UUID.ofText? cred.id = some R) :
    UUID.ofText? tenantID = some row.tenantID := by
  obtain rfl :
      c = .svc (.repo (.credentials (.listByIdentity tenantID identityID (some .active)))) :=
    congrArg Event.op hev
  have hok : (exec D (.svc (.repo (.credentials
      (.listByIdentity tenantID identityID (some .active))))) e w).1 = .ok creds :=
    eq_of_heq (Event.mk.inj hev).2
  obtain ⟨T, hT, hrows⟩ := listCredentials_ok (P := D.primitives) hok
  obtain ⟨row', hmem, rfl, rfl⟩ := hrows cred hcred
  have hR : row'.id = R := Option.some.inj ((UUID.ofText?_toText _).symm.trans hid)
  have hrow' : w.svc.db.credentials.get? R = some row' := hR ▸ Table.get?_of_mem hmem
  cases hrow.symm.trans hrow'
  exact hT

theorem Tracked.step (ht : Tracked R T s)
    (ho : Pool.Obeyed (exec D) (fun i => counting reported (req i)) s)
    (hok : CountStands R s i e) (hc : s.prog i = .call c k) :
    Tracked R T (s.step (exec D) i e) := by
  obtain ⟨row, row', hrow, hrow', hT', hcase⟩ := count_step ht ho hok hc
  obtain ⟨hexists, hloads, hbounded, hdistinct⟩ := ht
  have hle : row.signCount ≤ row'.signCount := by
    rcases hcase with ⟨-, hsame⟩ | ⟨-, hle, -⟩
    · exact hsame.ge
    · exact hle
  -- a counter other than zero is greater than all that were stored before
  have hfresh : ∀ x ∈ s.log, ∀ n, Counts R n c → Counts R n x.2.op → n = 0 := by
    intro x hx n hn hold
    rcases hcase with ⟨hnone, -⟩ | ⟨hcounts, -, hlt⟩
    · exact absurd hn (hnone n)
    · obtain rfl := hn.unique hcounts
      by_contra hne
      exact absurd (hbounded x hx _ row hold hrow) (Int.not_le.mpr (hlt hne))
  constructor
  · rw [Pool.world_step hc]
    exact ⟨row', hrow', hT'⟩
  · intro j tenantID identityID creds hmem cred hcred hid
    rw [Pool.log_step hc] at hmem
    rcases List.mem_cons.mp hmem with heq | hold
    · obtain ⟨row₀, hrow₀, hT₀⟩ := hexists
      cases hrow.symm.trans hrow₀
      exact hT₀ ▸ loads_step hrow (congrArg Prod.snd heq).symm hcred hid
    · exact hloads j tenantID identityID creds hold cred hcred hid
  · intro x hx n row₂ hn hrow₂
    rw [Pool.world_step hc] at hrow₂
    cases hrow'.symm.trans hrow₂
    rw [Pool.log_step hc] at hx
    rcases List.mem_cons.mp hx with rfl | hold
    · rcases hcase with ⟨hnone, -⟩ | ⟨hcounts, -, -⟩
      · exact absurd hn (hnone n)
      · exact (hn.unique hcounts).le
    · exact (hbounded x hold n row hn hrow).trans hle
  · intro x hx y hy n hxn hyn hne
    rw [Pool.log_step hc] at hx hy
    rcases List.mem_cons.mp hx with rfl | hx
    · rcases List.mem_cons.mp hy with rfl | hy
      · exact absurd rfl hne
      · exact hfresh y hy n hxn hyn
    · rcases List.mem_cons.mp hy with rfl | hy
      · exact hfresh x hx n hyn hxn
      · exact hdistinct x hx y hy n hxn hyn hne

end Step

/-! ### Whole runs -/

/-- Request `i` has ended as a successful assertion with the response `body`. -/
def Asserted (req : ι → Request Attrs) (s : Requests ι Attrs) (i : ι) (body : Bytes) : Prop :=
  assertionBody (req i) = some body ∧ ∃ challengeID id, Finishes req s i challengeID id

/-- The credential of a successful assertion is the one whose counter it has sent. -/
def AssertedOn (R : UUID) (req : ι → Request Attrs) (s : Requests ι Attrs) (i : ι)
    (body : Bytes) : Prop :=
  Asserted req s i body ∧ ∃ ev n, (i, ev) ∈ s.log ∧ Counts R n ev.op

section Run

variable [DecidableEq ι] {D : Deps Attrs} {reported : Bytes → UInt32} {w : World}
  {req : ι → Request Attrs} {s t : Requests ι Attrs} {R T : UUID}

theorem counting_reach (hlib : CountsAs D.library reported)
    {ok : Requests ι Attrs → ι → Env → Prop}
    (hs : Pool.Reach (exec D) ok (starting D w req) s) :
    Pool.Obeyed (exec D) (fun i => counting reported (req i)) s :=
  hs.obeyed fun i => request_counting hlib (req i)

theorem tracked_reach (hlib : CountsAs D.library reported) {row : CredentialRow}
    (hrow : w.svc.db.credentials.get? R = some row)
    (hs : Pool.Reach (exec D) (CountStands R) (starting D w req) s) :
    Tracked R row.tenantID s := by
  have hinv : Pool.Obeyed (exec D) (fun i => counting reported (req i)) s ∧
      Tracked R row.tenantID s := by
    refine hs.invariant (J := fun s =>
      Pool.Obeyed (exec D) (fun i => counting reported (req i)) s ∧ Tracked R row.tenantID s)
      (fun t i e c k hok hc ht => ⟨ht.1.step i e, ht.2.step ht.1 hok hc⟩) ⟨?_, ?_⟩
    · exact fun i => request_counting hlib (req i)
    · exact ⟨⟨row, hrow, rfl⟩, fun _ _ _ _ hmem => absurd hmem List.not_mem_nil,
        fun _ hmem => absurd hmem List.not_mem_nil, fun _ hmem => absurd hmem List.not_mem_nil⟩
  exact hinv.2

/-- A request stores no counter but the one it reports. -/
theorem sent_reported (hlib : CountsAs D.library reported)
    {ok : Requests ι Attrs → ι → Env → Prop}
    (hs : Pool.Reach (exec D) ok (starting D w req) s) {i : ι} {body : Bytes} {n : Int}
    {ev : AuthEvent Attrs} (hbody : assertionBody (req i) = some body) (hmem : (i, ev) ∈ s.log)
    (hn : Counts R n ev.op) : n = (reported body).toNat := by
  have hlog := hs.logged (P := fun i => counting reported (req i))
    (Q := fun i c => ∀ body, assertionBody (req i) = some body → ∀ n, Counts R n c →
      n = (reported body).toNat) (fun i h c hcall body hbody n hn => ?_)
    (fun i => request_counting hlib (req i)) (fun _ hmem => nomatch hmem)
  · exact hlog _ hmem body hbody n hn
  · obtain ⟨tenantID, id, rfl, -⟩ := hn
    simp only [counting, hbody] at hcall
    exact hcall.1

/-- In every interleaving of any requests in which each counter is stored while the loaded one
stands, the stored counter never decreases and no two successful assertions on the credential
report one counter other than zero; and every successful assertion is on some credential. -/
theorem counter_advances (D : Deps Attrs) (reported : Bytes → UInt32) (w : World)
    (req : ι → Request Attrs) (R : UUID) (s : Requests ι Attrs)
    (hlib : CountsAs D.library reported) (hR : (w.svc.db.credentials.get? R).isSome)
    (hs : Pool.Reach (exec D) (CountStands R) (starting D w req) s) :
    (∀ t, Pool.Reach (exec D) (CountStands R) s t → ∀ row row',
      s.world.svc.db.credentials.get? R = some row →
      t.world.svc.db.credentials.get? R = some row' → row.signCount ≤ row'.signCount) ∧
    (∀ i j body body', AssertedOn R req s i body → AssertedOn R req s j body' → i ≠ j →
      reported body = reported body' → reported body = 0) ∧
    ∀ i body, Asserted req s i body → ∃ R', AssertedOn R' req s i body := by
  obtain ⟨row₀, hrow₀⟩ := Option.isSome_iff_exists.mp hR
  refine ⟨fun t ht => ?_, fun i j body body' hi hj hne heq => ?_, fun i body hi => ?_⟩
  · induction ht with
    | refl => exact fun row row' hrow hrow' => (Option.some.inj (hrow.symm.trans hrow')) ▸ le_rfl
    | @step t i e hst hok ih =>
      rcases Pool.step_cases (exec D) t i with ⟨c, k, hc⟩ | hidle
      · have htracked := tracked_reach hlib hrow₀ (hs.trans hst)
        obtain ⟨mid, mid', hmid, hmid', -, hcase⟩ :=
          count_step htracked (counting_reach hlib (hs.trans hst)) hok hc
        intro row row' hrow hrow'
        rw [Pool.world_step hc] at hrow'
        cases hmid'.symm.trans hrow'
        refine (ih row mid hrow hmid).trans ?_
        rcases hcase with ⟨-, hsame⟩ | ⟨-, hle, -⟩
        · exact hsame.ge
        · exact hle
      · rw [hidle e]
        exact ih
  · obtain ⟨⟨hbody, -⟩, ev, n, hmem, hn⟩ := hi
    obtain ⟨⟨hbody', -⟩, ev', n', hmem', hn'⟩ := hj
    obtain rfl := sent_reported hlib hs hbody hmem hn
    obtain rfl := sent_reported hlib hs hbody' hmem' hn'
    rw [← heq] at hn'
    have hzero := (tracked_reach hlib hrow₀ hs).distinct _ hmem _ hmem' _ hn hn' hne
    exact UInt32.toNat_inj.mp (Int.ofNat_eq_zero.mp hzero)
  · obtain ⟨hbody, challengeID, id, resp, hret, hfin⟩ := hi
    have hdone := counting_reach hlib hs i
    rw [hret] at hdone
    obtain ⟨ev, hmem, R', hn⟩ := hdone body resp challengeID id hbody rfl hfin
    exact ⟨R', ⟨hbody, challengeID, id, resp, hret, hfin⟩, ev, _, Pool.mem_hist.mp hmem, hn⟩

end Run

/-! ### Fixed runs -/

/-- A library that keeps to `counted`. -/
def countingLibrary : Library :=
  { bindingLibrary with
    finishLogin user session body _ :=
      if session.userID = user.id then
        match user.credentials.find? fun c => c.id.getD [] == body.take 1 with
        | none => .error "unknown credential"
        | some c => .ok { c with signCount := counted c.signCount (reportedCount body) }
      else .error "user mismatch" }

theorem countingLibrary_counts : CountsAs countingLibrary reportedCount := by
  intro user session body now cred h
  simp only [countingLibrary] at h
  split at h
  · split at h
    · cases h
    · rename_i c hfind
      cases h
      have hid : c.id.getD [] = body.take 1 := by simpa using List.find?_some hfind
      refine ⟨c, ?_, rfl⟩
      rw [hid]
      exact hfind
  · cases h

def countingDeps : Deps Bytes := { plainDeps with library := countingLibrary }

/-- Two assertions with a passkey, each begun and finished; the responses are `a` and `b`. -/
def twoLogins (a b : Bytes) : Fin 4 → Request Bytes :=
  ![.beginAssertion (UUID.ofNat 1).toText "ada", .beginAssertion (UUID.ofNat 1).toText "ada",
    .finishAssertion (UUID.ofNat 1).toText "ada" (hexText (List.replicate 16 8)) a,
    .finishAssertion (UUID.ofNat 1).toText "ada" (hexText (List.replicate 16 9)) b]

/-- Both ceremonies are begun. -/
def begun : List (Fin 4 × Env) :=
  List.replicate 5 (0, calm 8) ++ List.replicate 5 (1, calm 9)

/-- Both load the credential before either stores its counter. -/
def overlapping : List (Fin 4 × Env) :=
  begun ++ List.replicate 2 (2, calm 10) ++ List.replicate 2 (3, calm 10)

def finishing (i : Fin 4) : List (Fin 4 × Env) := List.replicate 6 (i, calm 11)

def countOf (R : UUID) (s : Requests ι Attrs) : Option Int :=
  (s.world.svc.db.credentials.get? R).map CredentialRow.signCount

/-- The counter that a call stores in the credential. -/
def countSent (R : UUID) : Op Attrs → Option Int
  | .svc (.repo (.credentials (.updateSignCount _ id n))) =>
    if UUID.ofText? id = some R then some n else none
  | _ => none

theorem countSent_eq_some {R : UUID} {c : Op Attrs} {n : Int} :
    countSent R c = some n ↔ Counts R n c := by
  constructor
  · intro h
    unfold countSent at h
    split at h
    · split at h
      · cases h
        exact ⟨_, _, rfl, ‹_›⟩
      · cases h
    · cases h
  · rintro ⟨tenantID, id, rfl, hid⟩
    exact if_pos hid

/-- The credentials that an event has loaded. -/
def loadedCreds : AuthEvent Attrs → List Credential
  | ⟨.svc (.repo (.credentials (.listByIdentity ..))), .ok creds⟩ => creds
  | _ => []

def countStands {n : Nat} (R : UUID) (s : Requests (Fin n) Attrs) (i : Fin n) (e : Env) : Bool :=
  match s.prog i with
  | .call c _ => (countSent R c).isNone ||
    ((e.svc.statements 0).available && (e.svc.statements 1).available &&
      match s.world.svc.db.credentials.get? R with
      | some row => decide (0 ≤ row.signCount) && (decide (row.signCount < 2 ^ 32) &&
        s.log.all fun x => x.1 != i || (loadedCreds x.2).all fun cred =>
          UUID.ofText? cred.id != some R || cred.signCount == row.signCount)
      | none => true)
  | _ => true

theorem countStands_sound {n : Nat} {R : UUID} (s : Requests (Fin n) Attrs) (i : Fin n) (e : Env)
    (h : countStands R s i e = true) : CountStands R s i e := by
  intro c k m hc hcounts
  simp only [countStands, hc, countSent_eq_some.mpr hcounts, Option.isNone_some, Bool.false_or,
    Bool.and_eq_true] at h
  obtain ⟨⟨h0, h1⟩, hrow⟩ := h
  refine ⟨h0, h1, fun row hget => ?_⟩
  simp only [hget, Bool.and_eq_true, decide_eq_true_eq] at hrow
  obtain ⟨hlow, hhigh, hlog⟩ := hrow
  refine ⟨hlow, hhigh, fun tenantID identityID creds hmem cred hcred hid => ?_⟩
  have hx := List.all_eq_true.mp hlog _ hmem
  simp only [bne_self_eq_false, Bool.false_or] at hx
  have hcount := List.all_eq_true.mp hx cred hcred
  simpa [hid] using hcount

theorem assertedOn_of_check {R : UUID} {n : Nat} {req : Fin n → Request Attrs}
    {s : Requests (Fin n) Attrs} {i : Fin n} {tenantID handle challengeID : String} {body : Bytes}
    (hreq : req i = .finishAssertion tenantID handle challengeID body)
    (hret : (assertedID (s.prog i)).isSome)
    (hsent : (s.log.any fun x => x.1 == i && (countSent R x.2.op).isSome) = true) :
    AssertedOn R req s i body := by
  obtain ⟨id, hid⟩ := Option.isSome_iff_exists.mp hret
  obtain ⟨ident, hprog, rfl⟩ := assertedID_eq_some hid
  obtain ⟨⟨j, ev⟩, hmem, hj⟩ := List.any_eq_true.mp hsent
  obtain ⟨hji, hsome⟩ := Bool.and_eq_true_iff.mp hj
  obtain rfl : j = i := eq_of_beq hji
  obtain ⟨m, hm⟩ := Option.isSome_iff_exists.mp hsome
  refine ⟨⟨by rw [hreq]; rfl, challengeID, ident.id, _, hprog, ?_⟩, ev, m, hmem,
    countSent_eq_some.mp hm⟩
  rw [hreq]
  exact .assertion

/-- Assertions that follow each other, with the counters 6 and 8. -/
theorem consecutive_logins :
    let req := twoLogins [7, 6] [7, 8]
    let s := (starting countingDeps passkeyWorld req).play (exec countingDeps)
      (begun ++ List.replicate 8 (2, calm 10) ++ List.replicate 8 (3, calm 11))
    countOf (.ofNat 5) s = some 8 ∧ AssertedOn (.ofNat 5) req s 2 [7, 6] ∧
      AssertedOn (.ofNat 5) req s 3 [7, 8] ∧
      ∀ i j body body', AssertedOn (.ofNat 5) req s i body → AssertedOn (.ofNat 5) req s j body' →
        i ≠ j → reportedCount body = reportedCount body' → reportedCount body = 0 := by
  intro req s
  have hpasses : (starting countingDeps passkeyWorld req).passes (exec countingDeps)
      (countStands (.ofNat 5))
      (begun ++ List.replicate 8 (2, calm 10) ++ List.replicate 8 (3, calm 11)) = true := by
    decide +kernel
  refine ⟨by decide +kernel, assertedOn_of_check rfl (by decide +kernel) (by decide +kernel),
    assertedOn_of_check rfl (by decide +kernel) (by decide +kernel), ?_⟩
  exact (counter_advances countingDeps reportedCount passkeyWorld req (.ofNat 5) s
    countingLibrary_counts (by decide +kernel)
    (Pool.reach_of_passes countStands_sound hpasses)).2.1

/-- Two overlapping assertions both succeed with the counter 10; and where the second reports
7, the stored counter falls from 10 to 7. -/
theorem overlapping_logins :
    CountsAs countingLibrary reportedCount ∧
    (let req := twoLogins [7, 10] [7, 10]
      let s := (starting countingDeps passkeyWorld req).play (exec countingDeps)
        (overlapping ++ finishing 2 ++ finishing 3)
      AssertedOn (.ofNat 5) req s 2 [7, 10] ∧ AssertedOn (.ofNat 5) req s 3 [7, 10] ∧
        reportedCount [7, 10] ≠ 0) ∧
    (let req := twoLogins [7, 10] [7, 7]
      let s := (starting countingDeps passkeyWorld req).play (exec countingDeps)
        (overlapping ++ finishing 2)
      let t := s.play (exec countingDeps) (finishing 3)
      Pool.Reach (exec countingDeps) (fun _ _ _ => True)
        (starting countingDeps passkeyWorld req) s ∧
        Pool.Reach (exec countingDeps) (fun _ _ _ => True) s t ∧
        countOf (.ofNat 5) s = some 10 ∧ countOf (.ofNat 5) t = some 7) := by
  refine ⟨countingLibrary_counts, ?_, ?_⟩
  · intro req s
    refine ⟨assertedOn_of_check rfl ?_ ?_, assertedOn_of_check rfl ?_ ?_, ?_⟩
    all_goals decide +kernel
  · intro req s t
    refine ⟨Pool.reach_play (fun _ _ _ => trivial) _, Pool.reach_play (fun _ _ _ => trivial) _,
      ?_, ?_⟩
    all_goals decide +kernel

end Verion.Auth
