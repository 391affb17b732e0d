import Verion.Service.Effects

/-!
# Rules for whole runs

A service run alone is the sequence of its calls on one world. A repository call
that fails leaves the world, so each rule has one case for what follows a
successful call and one for the error the service ends with.
-/

namespace Verion.Service

open Calls Postgres

variable {Attrs α β : Type} {P : Primitives Attrs} {Q : Except Error α → World → Prop} {w : World}

/-- Calls one after another, from the empty database on. -/
abbrev Reachable (P : Primitives Attrs) (ok : Request Attrs → World → Prop) (w : World) : Prop :=
  Program.Served (exec P) (Request.program P) ok ⟨.empty, fun _ => none⟩ w

theorem exec_repo_error {c : RepoCall Attrs} {e : Env} {x : Error}
    (h : (exec P (.repo c) e w).1 = .error x) : (exec P (.repo c) e w).2 = w := by
  have hdb : (perform (c.script e.now) e.statements w.db).2 = w.db := perform_error c e.now h
  exact congrArg (fun db => { w with db }) hdb

theorem exec_read {c : RepoCall Attrs} (hc : c.target = none) (e : Env) (w : World) :
    (exec P (.repo c) e w).2 = w := by
  have hcreate : ∀ ident, c ≠ .identities (.create ident) := by
    rintro ident rfl
    cases hc
  have hoff := agreeOff_perform c hcreate e.now e.statements w.db
  rw [hc] at hoff
  exact congrArg (fun db => { w with db }) hoff.eq

/-! ### What the operations look up -/

/-- `row` is the identity that `GetByID` returns. -/
def Finds (db : DB) (tenantID id : String) (row : IdentityRow) : Prop :=
  ∃ I, UUID.ofText? id = some I ∧ db.identities.get? I = some row ∧
    UUID.ofText? tenantID = some row.tenantID

/-- `row` is an identity that `GetByHandle` can return. -/
def FindsByHandle (db : DB) (tenantID handle : String) (row : IdentityRow) : Prop :=
  db.identities.get? row.id = some row ∧ UUID.ofText? tenantID = some row.tenantID ∧
    citextEq row.handle handle = true

def FindsKey (db : DB) (tenantID keyID : String) (key : KeyRow) : Prop :=
  ∃ K, UUID.ofText? keyID = some K ∧ db.identityKeys.get? K = some key ∧
    UUID.ofText? tenantID = some key.tenantID

def Decrypts (P : Primitives Attrs) (row : IdentityRow) : Prop :=
  ∃ ident, decryptAttributes P (scanIdentity row) = .ok ident

/-- The indexes and checks of `identity_keys` accept a new active key. -/
def Admits (db : DB) (I : UUID) (purpose : KeyPurpose) : Prop :=
  isKeyPurpose purpose = true ∧ ∀ r ∈ db.identityKeys.rows, r.status = .active →
    r.identityID = I → r.purpose ≠ purpose

/-! ### One call -/

section Route

variable {c : RepoCall Attrs} {q : Query} {T : String} {e : Env}
  {finish : Except PgError (List q.Row) → Except Error c.Result}

theorem exec_disconnected (hscript : c.script e.now = withTenantConn T (ask q finish))
    (hf : ∀ pe, ∃ x, finish (.error pe) = .error x) (hc : ¬ Connected e.statements) (w : World) :
    ∃ x, (exec P (.repo c) e w).1 = .error x := by
  cases h : (exec P (.repo c) e w).1 with
  | error x => exact ⟨x, rfl⟩
  | ok b =>
    have hrun : perform (c.script e.now) e.statements w.db =
        (.ok b, (exec P (.repo c) e w).2.db) := Prod.ext h rfl
    rw [hscript] at hrun
    exact absurd ((conn_eq_ok hf).mp hrun).1 hc

/-- A call on the connection route whose statement goes through needs only its connection. -/
theorem conn_cases {rows : List q.Row} {db' : DB} {a : c.Result}
    (hscript : c.script e.now = withTenantConn T (ask q finish))
    (hf : ∀ pe, ∃ x, finish (.error pe) = .error x) (hT : hasNul T = false)
    (heval : q.eval (e.statements 2).stamp w.db = .ok (rows, db'))
    (hfin : finish (.ok rows) = .ok a) :
    (Connected e.statements ∧ exec P (.repo c) e w = (.ok a, { w with db := db' })) ∨
    (¬ Connected e.statements ∧ ∃ x, (exec P (.repo c) e w).1 = .error x) := by
  by_cases hc : Connected e.statements
  · have hrun := (conn_eq_ok hf).mpr ⟨hc, hT, rows, heval, hfin⟩
    rw [← hscript] at hrun
    exact .inl ⟨hc, congrArg (fun r => (r.1, { w with db := r.2 })) hrun⟩
  · exact .inr ⟨hc, exec_disconnected hscript hf hc w⟩

end Route

theorem exec_generateKey_of (algorithm : KeyAlgorithm) {keyID : String} (hne : keyID ≠ "") {e : Env}
    {secret : Bytes} (he : e.secret = some secret) (w : World) : ∃ generated,
      exec P (.generateKey algorithm keyID) e w = (.ok generated, { w with
        keys := fun r => if r = keyRefOf keyID then some ⟨algorithm, secret⟩ else w.keys r }) := by
  cases algorithm <;>
  · unfold exec
    simp only [generateEd25519Key, generateECDSAP256Key, generateAndStore, he, store, if_neg hne]
    exact ⟨_, rfl⟩

theorem exec_generateKey_calm (algorithm : KeyAlgorithm) {keyID : String} (hne : keyID ≠ "")
    (n : Nat) (w : World) : ∃ generated w',
      exec P (.generateKey algorithm keyID) (calm n) w = (.ok generated, w') ∧ w'.db = w.db := by
  obtain ⟨generated, hgen⟩ := exec_generateKey_of (P := P) algorithm hne (e := calm n) rfl w
  exact ⟨generated, _, hgen, rfl⟩

/-! ### Known replies -/

section Run

variable {c : RepoCall Attrs} {f : Error → Error} (es : Nat → Env) {w' : World} {a : c.Result}

theorem run_repo_of (h : exec P (.repo c) (es 0) w = (.ok a, w')) :
    (repo c f).run (exec P) es w = (.ok a, w') := by
  unfold repo
  rw [Program.run_call, h]
  rfl

theorem run_repo_bind_of {g : c.Result → Svc Attrs α}
    (h : exec P (.repo c) (es 0) w = (.ok a, w')) :
    (repo c f >>= g).run (exec P) es w = (g a).run (exec P) (fun n => es (n + 1)) w' := by
  have hcall : (repo c f >>= g) = .call (.repo c) fun r => orFail f r >>= g := rfl
  rw [hcall, Program.run_call, h]
  rfl

theorem run_refuseIf_bind {cond : Prop} [Decidable cond] {e : Error} {g : Unit → Svc Attrs α}
    (h : ¬ cond) : (refuseIf cond e >>= g).run (exec P) es w = (g ()).run (exec P) es w := by
  rw [refuseIf, if_neg h]
  rfl

theorem run_now_bind {g : Time → Svc Attrs α} :
    ((.call .now .ret : Svc Attrs Time) >>= g).run (exec P) es w =
      (g (es 0).now).run (exec P) (fun n => es (n + 1)) w := rfl

theorem run_orFail_bind {β : Type} {b : β} {g : β → Svc Attrs α} :
    (orFail f (.ok b) >>= g).run (exec P) es w = (g b).run (exec P) es w := rfl

theorem run_repo_error {x : Error} (h : (exec P (.repo c) (es 0) w).1 = .error x) :
    (repo c f).run (exec P) es w = (.error (f x), w) := by
  unfold repo
  rw [Program.run_call, h, exec_repo_error h]
  rfl

theorem run_repo_bind_error {g : c.Result → Svc Attrs α} {x : Error}
    (h : (exec P (.repo c) (es 0) w).1 = .error x) :
    (repo c f >>= g).run (exec P) es w = (.error (f x), w) := by
  have hcall : (repo c f >>= g) = .call (.repo c) fun r => orFail f r >>= g := rfl
  rw [hcall, Program.run_call, h, exec_repo_error h]
  rfl

end Run

theorem run_generateKeyPair_bind {tenantID identityID algorithm : String} {keyType : KeyType}
    {purpose : KeyPurpose} {generator : KeyAlgorithm} {generated : GeneratedKey} {es : Nat → Env}
    {w' : World} {g : IdentityKey → Svc Attrs α}
    (htype : generatorOf keyType = some (generator, algorithm))
    (hgen : exec P (.generateKey generator (cryptoKeyID tenantID identityID keyType)) (es 0) w =
      (.ok generated, w')) :
    (generateKeyPair tenantID identityID keyType purpose >>= g).run (exec P) es w =
      (g (keyOf tenantID identityID keyType purpose algorithm generated)).run (exec P)
        (fun n => es (n + 1)) w' := by
  unfold generateKeyPair
  rw [htype]
  refine (Program.run_call _ _ es w).trans ?_
  rw [hgen]
  rfl

/-! ### All replies -/

theorem ends_repo_bind {c : RepoCall Attrs} {f : Error → Error} {g : c.Result → Svc Attrs α}
    (hok : ∀ e a, (exec P (.repo c) e w).1 = .ok a →
      (g a).Ends (exec P) Q (exec P (.repo c) e w).2)
    (herr : ∀ x, Q (.error (f x)) w) : (repo c f >>= g).Ends (exec P) Q w := by
  intro e _
  cases hr : (exec P (.repo c) e w).1 with
  | ok a => exact hok e a hr
  | error x =>
    rw [exec_repo_error hr]
    exact herr x

theorem ends_repo {c : RepoCall Attrs} {f : Error → Error}
    {Q : Except Error c.Result → World → Prop}
    (hok : ∀ e a, (exec P (.repo c) e w).1 = .ok a → Q (.ok a) (exec P (.repo c) e w).2)
    (herr : ∀ x, Q (.error (f x)) w) : (repo c f).Ends (exec P) Q w := by
  intro e _
  cases hr : (exec P (.repo c) e w).1 with
  | ok a => exact hok e a hr
  | error x =>
    rw [exec_repo_error hr]
    exact herr x

section Instances

variable {c : RepoCall Attrs} {f : Error → Error} {g : c.Result →
    Svc Attrs α} {e : Env} {w' : World}

theorem ends_repo_bind_of {a : c.Result} (h : (repo c f >>= g).Ends (exec P) Q w)
    (hexec : exec P (.repo c) e w = (.ok a, w')) : (g a).Ends (exec P) Q w' := by
  have hnext := h e trivial
  rw [hexec] at hnext
  exact hnext

theorem ends_repo_bind_error {x : Error} (h : (repo c f >>= g).Ends (exec P) Q w)
    (hexec : (exec P (.repo c) e w).1 = .error x) : Q (.error (f x)) w := by
  have hnext := h e trivial
  rw [hexec, exec_repo_error hexec] at hnext
  exact hnext

theorem ends_refuseIf_bind_of {cond : Prop} [Decidable cond] {x : Error} {g : Unit → Svc Attrs α}
    (h : (refuseIf cond x >>= g).Ends (exec P) Q w) (hc : ¬ cond) : (g ()).Ends (exec P) Q w := by
  rw [refuseIf, if_neg hc] at h
  exact h

theorem ends_generateKeyPair_bind_of {tenantID identityID algorithm : String} {keyType : KeyType}
    {purpose : KeyPurpose} {generator : KeyAlgorithm} {generated : GeneratedKey}
    {g : IdentityKey → Svc Attrs α} (htype : generatorOf keyType = some (generator, algorithm))
    (h : (generateKeyPair tenantID identityID keyType purpose >>= g).Ends (exec P) Q w)
    (hexec : exec P (.generateKey generator (cryptoKeyID tenantID identityID keyType)) e w =
      (.ok generated, w')) :
    (g (keyOf tenantID identityID keyType purpose algorithm generated)).Ends (exec P) Q w' := by
  unfold generateKeyPair at h
  rw [htype] at h
  have hnext := h e trivial
  rw [hexec] at hnext
  exact hnext

end Instances

/-- An inserted identity is in the table under the tenant it was inserted for. -/
theorem ends_insertIdentity_bind {ident : Identity Attrs} {f : Error → Error}
    {g : Identity Attrs → Svc Attrs α}
    (hok : ∀ e I row w', (exec P (.repo (.identities (.create ident))) e w).2 = w' →
      w'.db.identities.get? I = some row → row.id = I → row.status = ident.status →
      UUID.ofText? ident.tenantID = some row.tenantID →
      (g (scanIdentity row)).Ends (exec P) Q w')
    (herr : ∀ x, Q (.error (f x)) w) :
    (repo (.identities (.create ident)) f >>= g).Ends (exec P) Q w := by
  refine ends_repo_bind (fun e created hcreated => ?_) herr
  obtain ⟨st, T, by_, hT, -, hget, rfl⟩ := exec_createIdentity_ok hcreated
  exact hok e st.newID _ _ rfl hget rfl rfl hT

/-- An inserted key is in the table; the identities stay. -/
theorem ends_insertKey_bind {k : IdentityKey} {f : Error → Error} {g : IdentityKey → Svc Attrs α}
    (hok : ∀ e st I T w', (exec P (.repo (.keys (.create k))) e w).2 = w' →
      UUID.ofText? k.identityID = some I → UUID.ofText? k.tenantID = some T →
      w.db.identityKeys.insert? (insertedKey st I T k) = some w'.db.identityKeys →
      w'.db.identities = w.db.identities →
      (g (scanKey (insertedKey st I T k))).Ends (exec P) Q w')
    (herr : ∀ x, Q (.error (f x)) w) :
    (repo (.keys (.create k)) f >>= g).Ends (exec P) Q w := by
  refine ends_repo_bind (fun e created hcreated => ?_) herr
  obtain ⟨st, I, T, hI, hT, hins, rfl⟩ := exec_createKey_ok hcreated
  have hoff := agreeOff_perform (.keys (.create k) : RepoCall Attrs) (fun _ h => nomatch h) e.now
    e.statements w.db
  exact hok e st I T _ rfl hI hT hins (hoff.identities fun h => nomatch h)

theorem ends_refuseIf_bind {cond : Prop} [Decidable cond] {x : Error} {g : Unit → Svc Attrs α}
    (hfail : Q (.error x) w) (hgo : ¬ cond → (g ()).Ends (exec P) Q w) :
    (refuseIf cond x >>= g).Ends (exec P) Q w := by
  unfold refuseIf
  split
  · exact hfail
  · exact hgo ‹_›

theorem ends_now_bind {g : Time → Svc Attrs α} (h : ∀ t, (g t).Ends (exec P) Q w) :
    ((.call .now .ret : Svc Attrs Time) >>= g).Ends (exec P) Q w :=
  fun e _ => h e.now

theorem ends_orFail {f : Error → Error} {x : Except Error α} (hok : ∀ a, x = .ok a → Q (.ok a) w)
    (herr : ∀ e, x = .error e → Q (.error (f e)) w) : (orFail f x).Ends (exec P) Q w := by
  cases x with
  | ok a => exact hok a rfl
  | error e => exact herr e rfl

theorem ends_orFail_bind {f : Error → Error} {x : Except Error β} {g : β → Svc Attrs α}
    (hok : ∀ b, x = .ok b → (g b).Ends (exec P) Q w)
    (herr : ∀ e, x = .error e → Q (.error (f e)) w) : (orFail f x >>= g).Ends (exec P) Q w := by
  cases x with
  | ok b => exact hok b rfl
  | error e => exact herr e rfl

/-- Encryption reads the random source and nothing else; an empty map gives no bytes, and
one that does not marshal gives an error. -/
theorem ends_encryptAttributes_bind {attrs : Attrs} {g : Except Error (Option Bytes) → Svc Attrs α}
    (h : ∀ r, (P.isEmpty attrs = true → r = .ok none) →
      (P.isEmpty attrs = false → P.marshal attrs = none → ∀ b, r ≠ .ok b) →
      (g r).Ends (exec P) Q w) : (encryptAttributes P attrs >>= g).Ends (exec P) Q w := by
  unfold encryptAttributes
  split
  · rename_i hempty
    exact h _ (fun _ => rfl) fun hfull => absurd (hempty.symm.trans hfull) Bool.noConfusion
  · rename_i hfull
    split
    · exact h _ (fun hempty => absurd hempty hfull) fun _ _ _ hb => nomatch hb
    · rename_i plaintext hmarshal
      have hsome : P.isEmpty attrs = false → P.marshal attrs = none →
          ∀ (b : Option Bytes) (r : Except Error (Option Bytes)), r ≠ .ok b :=
        fun _ hnone => absurd (hmarshal.symm.trans hnone) (Option.some_ne_none _)
      intro e _
      cases hr : (exec P (.encrypt plaintext) e w).1 with
      | error x => exact h _ (fun hempty => absurd hempty hfull) fun h1 h2 b => hsome h1 h2 b _
      | ok out => exact h _ (fun hempty => absurd hempty hfull) fun h1 h2 b => hsome h1 h2 b _

/-- A generated pair goes to the key store; the tables stay. -/
theorem ends_generateKey_bind {algorithm : KeyAlgorithm} {keyID : String} {f : Error → Error}
    {g : GeneratedKey → Svc Attrs α}
    (hok : ∀ generated w', w'.db = w.db → (g generated).Ends (exec P) Q w')
    (herr : ∀ x w', w'.db = w.db → Q (.error x) w') :
    (Program.call (.generateKey algorithm keyID) (orFail f) >>= g).Ends (exec P) Q w := by
  intro e _
  have hdb := exec_db P (.generateKey algorithm keyID) (fun _ h => by cases h) e w
  cases hr : (exec P (.generateKey algorithm keyID) e w).1 with
  | ok generated => exact hok generated _ hdb
  | error x => exact herr _ _ hdb

theorem ends_generateKeyPair_bind {tenantID identityID : String} {keyType : KeyType}
    {purpose : KeyPurpose} {g : IdentityKey → Svc Attrs α}
    (hok : ∀ algorithm generated w', w'.db = w.db →
      (g (keyOf tenantID identityID keyType purpose algorithm generated)).Ends (exec P) Q w')
    (herr : ∀ x w', w'.db = w.db → Q (.error x) w') :
    (generateKeyPair tenantID identityID keyType purpose >>= g).Ends (exec P) Q w := by
  unfold generateKeyPair
  split
  · exact herr _ w rfl
  · rw [Program.bind_assoc]
    exact ends_generateKey_bind (fun generated w' hdb => hok _ generated w' hdb) herr

theorem ends_respond {f : β → Response Attrs} {q : Svc Attrs β}
    {Q : Except Error (Response Attrs) → World → Prop}
    (hq : q.Ends (exec P) (fun r w => Q (r.map f) w) w) : (respond f q).Ends (exec P) Q w := by
  refine (Program.ensures_bind _ _ _).mpr (hq.mono fun r w hr => ?_)
  cases r <;> exact hr

end Verion.Service
