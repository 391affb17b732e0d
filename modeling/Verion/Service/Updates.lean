import Verion.Service.Attributes
import Verion.Service.Runs

/-!
# What an update comes to

`UpdateIdentity` with nothing failing around it: which input is written, which is
refused as stale, and which is refused by the table. An empty map of attributes
is encrypted to a nil slice, which the driver sends as NULL into a column that
takes none.
-/

namespace Verion.Service

open Calls Postgres

variable {Attrs : Type} {P : Primitives Attrs} {w : World}

/-- Nothing fails around a call. -/
structure Working (e : Env) : Prop where
  connected : Connected e.statements
  nonce : e.iv.isSome

/-! ### The statement -/

section Statement

variable (st : Stamp) {db : DB} {tenantID id displayName : String} {row : IdentityRow}
  (attributes iv : Option Bytes) {version : Int}

theorem sqlIdentityUpdate_nul (hT : UUID.ofText? tenantID = some row.tenantID)
    (hI : UUID.ofText? id = some row.id) (hnul : hasNul displayName = true) :
    sqlIdentityUpdate st db tenantID id displayName attributes iv version =
      .error .characterNotInRepertoire := by
  unfold sqlIdentityUpdate
  rw [uuidParam_ok.mpr hT, uuidParam_ok.mpr hI, textParam, hnul]
  rfl

/-- A stale version selects no row, whatever else is sent. -/
theorem sqlIdentityUpdate_stale (hT : UUID.ofText? tenantID = some row.tenantID)
    (hI : UUID.ofText? id = some row.id) (hnul : hasNul displayName = false)
    (hrow : db.identities.get? row.id = some row) (hv : version ≠ row.version) :
    sqlIdentityUpdate st db tenantID id displayName attributes iv version = .ok ([], db) := by
  have hnone : db.identities.rows.any (fun r => identityAt row.tenantID row.id r &&
      decide (r.version = version)) = false := by
    refine List.any_eq_false.mpr fun r hr hsel => hv ?_
    simp only [Bool.and_eq_true, decide_eq_true_eq] at hsel
    have hid := (identityAt_iff.mp hsel.1).2
    have hget := Table.get?_of_mem hr
    rw [hid, hrow] at hget
    rw [← hsel.2, ← Option.some.inj hget]
  unfold sqlIdentityUpdate
  rw [uuidParam_ok.mpr hT, uuidParam_ok.mpr hI, textParam_ok.mpr ⟨hnul, rfl⟩]
  exact if_neg (Bool.eq_false_iff.mp hnone)

/-- A row that is selected is written only with attributes and below the largest version. -/
theorem sqlIdentityUpdate_refused (hT : UUID.ofText? tenantID = some row.tenantID)
    (hI : UUID.ofText? id = some row.id) (hnul : hasNul displayName = false)
    (hrow : db.identities.get? row.id = some row)
    (h : attributes = none ∨ ¬ row.version < maxBigint) :
    ∃ code, sqlIdentityUpdate st db tenantID id displayName attributes (some []) row.version =
      .error code := by
  cases hout : sqlIdentityUpdate st db tenantID id displayName attributes (some []) row.version with
  | error code => exact ⟨code, rfl⟩
  | ok out =>
    have hsel :
        (identityAt row.tenantID row.id row && decide (row.version = row.version)) = true := by
      simp [identityAt]
    simp only [sqlIdentityUpdate, bind_eq_ok, uuidParam_ok, textParam_ok] at hout
    obtain ⟨T, hT', I, hI', _, ⟨-, rfl⟩, hout⟩ := hout
    obtain rfl : row.tenantID = T := Option.some.inj (hT.symm.trans hT')
    obtain rfl : row.id = I := Option.some.inj (hI.symm.trans hI')
    rw [if_pos (List.any_eq_true.mpr ⟨row, (Table.get?_eq_some.mp hrow).1, hsel⟩)] at hout
    simp only [bind_eq_ok, notNull_ok, ensure_ok, decide_eq_true_eq] at hout
    obtain ⟨a, ha, _, -, _, hlt, -⟩ := hout
    rcases h with hnone | hmax
    · cases hnone.symm.trans ha
    · exact absurd hlt hmax

end Statement

/-! ### The call -/

/-- A connected method is the answer of its statement. -/
theorem exec_conn_answer {c : RepoCall Attrs} {q : Query} {T : String} {e : Env}
    {finish : Except PgError (List q.Row) → Except Error c.Result}
    (he : Connected e.statements) (hscript : c.script e.now = withTenantConn T (ask q finish))
    (hT : hasNul T = false) :
    exec P (.repo c) e w = (finish (answer q w.db (e.statements 2)).1,
      { w with db := (answer q w.db (e.statements 2)).2 }) := by
  have hrun := run_withTenantConn_ask q finish e.statements ⟨none, none⟩ w.db T he.1 he.2.1 hT
  unfold exec perform
  simp only [hscript, hrun]

/-- What the table asks of an update of `row`. -/
def Acceptable (ident : Identity Attrs) (row : IdentityRow) : Prop :=
  hasNul ident.displayName = false ∧
    (ident.version = row.version → ident.attributes.isSome ∧ row.version < maxBigint)

inductive UpdateReply (ident : Identity Attrs) (row : IdentityRow) (w : World) :
    Except Error (Identity Attrs) × World → Prop where
  | written (h : Acceptable ident row) (hv : ident.version = row.version) (a : Bytes)
      (ha : ident.attributes = some a) (now : Time) (w' : World)
      (hw' : w'.db.identities.get? row.id = some (row.updated ident.displayName a [] now)) :
      UpdateReply ident row w (.ok (scanIdentity (row.updated ident.displayName a [] now)), w')
  | stale (h : Acceptable ident row) (hv : ident.version ≠ row.version) :
      UpdateReply ident row w (.error (.versionConflict "identity" ident.id ident.version 0), w)
  | refused (h : ¬ Acceptable ident row) (code : SqlState) : UpdateReply ident row w
      (.error (.wrap "postgres: update identity" (.pg (.server code))), w)

theorem exec_update (ident : Identity Attrs) {row : IdentityRow} {e : Env}
    (he : Connected e.statements) (hT : UUID.ofText? ident.tenantID = some row.tenantID)
    (hI : UUID.ofText? ident.id = some row.id) (hrow : w.db.identities.get? row.id = some row) :
    UpdateReply ident row w (exec P (.repo (.identities (.update ident))) e w) := by
  have hexec := exec_conn_answer (P := P) (w := w) (c := .identities (.update ident))
    (q := .identityUpdate ident.tenantID ident.id ident.displayName ident.attributes (some [])
      ident.version) he rfl (hasNul_of_ofText? hT)
  have refused : ∀ code, (Query.identityUpdate ident.tenantID ident.id ident.displayName
      ident.attributes (some []) ident.version).eval (e.statements 2).stamp w.db = .error code →
      exec P (.repo (.identities (.update ident))) e w =
        (.error (.wrap "postgres: update identity" (.pg (.server code))), w) := by
    intro code hcode
    rw [hexec]
    simp only [answer, he.2.2, if_true, hcode]
    rfl
  cases hnul : hasNul ident.displayName with
  | true =>
    rw [refused _ (sqlIdentityUpdate_nul _ _ _ hT hI hnul)]
    refine .refused (fun h => ?_) _
    exact Bool.false_ne_true (h.1.symm.trans hnul)
  | false =>
    by_cases hv : ident.version = row.version
    · by_cases hgo : ident.attributes.isSome ∧ row.version < maxBigint
      · obtain ⟨a, ha⟩ := Option.isSome_iff_exists.mp hgo.1
        have heval := sqlIdentityUpdate_of_get? (e.statements 2).stamp a [] hT hI hnul hrow hgo.2
        rw [← ha, ← hv] at heval
        have hsel : (identityAt row.tenantID row.id row && decide (row.version = ident.version)) =
            true := by
          simp [identityAt, hv]
        rw [hexec]
        simp only [answer, he.2.2, if_true, Query.eval, heval]
        have hget : (w.db.identities.update (fun r => identityAt row.tenantID row.id r &&
            decide (r.version = ident.version)) (IdentityRow.updated ident.displayName a []
              (e.statements 2).stamp.now) fun _ => rfl).get? row.id =
            some (row.updated ident.displayName a [] (e.statements 2).stamp.now) :=
          (Table.get?_update_of_some hrow).trans (congrArg some (if_pos hsel))
        exact .written ⟨hnul, fun _ => hgo⟩ hv a ha _ _ hget
      · have hwhy : ident.attributes = none ∨ ¬ row.version < maxBigint := by
          by_contra hnot
          rw [not_or, ← ne_eq, Option.ne_none_iff_isSome, not_not] at hnot
          exact hgo hnot
        obtain ⟨code, hcode⟩ := sqlIdentityUpdate_refused (e.statements 2).stamp _ hT hI hnul
          hrow hwhy
        rw [← hv] at hcode
        rw [refused code hcode]
        exact .refused (fun h => hgo (h.2 hv)) code
    · have hstale := sqlIdentityUpdate_stale (e.statements 2).stamp ident.attributes (some [])
        hT hI hnul hrow hv
      rw [hexec]
      simp only [answer, he.2.2, if_true, Query.eval, hstale]
      exact .stale ⟨hnul, fun h => absurd h hv⟩ hv

/-- The attributes as they are sent. -/
inductive Encrypted (P : Primitives Attrs) (m : Attrs) : Except Error (Option Bytes) → Prop where
  | empty (h : P.isEmpty m = true) : Encrypted P m (.ok none)
  | unencodable (h : P.isEmpty m = false) (hm : P.marshal m = none) :
      Encrypted P m (.error (.wrap "marshal attributes" (.text "json: unsupported value")))
  | sealed (h : P.isEmpty m = false) (plaintext iv : Bytes) (hm : P.marshal m = some plaintext) :
      Encrypted P m (.ok (some (iv ++ P.gcmSeal P.masterKey iv plaintext)))

theorem Encrypted.encodes {m : Attrs} {blob : Option Bytes} (h : Encrypted P m (.ok blob)) :
    P.isEmpty m = true ∨ (P.marshal m).isSome := by
  cases h with
  | empty hempty => exact .inl hempty
  | sealed _ plaintext iv hm => exact .inr (by rw [hm]; rfl)

theorem run_encryptAttributes_bind {α : Type} (hkey : P.masterKey.length = 32) (m : Attrs)
    {es : Nat → Env} (hes : ∀ n, Working (es n)) :
    ∃ r k, Encrypted P m r ∧ ∀ g : Except Error (Option Bytes) → Svc Attrs α,
      (encryptAttributes P m >>= g).run (exec P) es w =
        (g r).run (exec P) (fun n => es (n + k)) w := by
  unfold encryptAttributes
  cases hempty : P.isEmpty m with
  | true => exact ⟨_, 0, .empty hempty, fun _ => rfl⟩
  | false =>
    cases hmarshal : P.marshal m with
    | none => exact ⟨_, 0, .unencodable hempty hmarshal, fun _ => rfl⟩
    | some plaintext =>
      obtain ⟨iv, hiv⟩ := Option.isSome_iff_exists.mp (hes 0).nonce
      have henc : encrypt P plaintext (es 0).iv =
          .ok (P.gcmSeal P.masterKey iv.bytes plaintext, iv.bytes) := by
        unfold encrypt
        rw [if_neg (not_not.mpr hkey), hiv]
      refine ⟨_, 1, .sealed hempty plaintext iv.bytes hmarshal, fun g => ?_⟩
      have hexec : exec P (.encrypt plaintext) (es 0) w =
          (.ok (P.gcmSeal P.masterKey iv.bytes plaintext, iv.bytes), w) := congrArg (·, w) henc
      refine (Program.run_call _ _ es w).trans ?_
      rw [hexec]
      rfl

/-! ### The method -/

/-- What an update of `row` with nothing failing around it is to come to: it writes the
name, the encryption of the attributes and the next version, or refuses a stale version. -/
def UpdateOutcome (P : Primitives Attrs) (input : UpdateIdentityInput Attrs) (row : IdentityRow)
    (r : Except Error (Identity Attrs) × World) : Prop :=
  (input.version = row.version → ∃ out blob now, r.1 = .ok out ∧
    (if P.isEmpty input.attributes then blob = []
      else ∃ plaintext iv, P.marshal input.attributes = some plaintext ∧
        blob = iv ++ P.gcmSeal P.masterKey iv plaintext) ∧
    r.2.db.identities.get? row.id = some { row with
      displayName := input.displayName
      attributes := blob
      version := row.version + 1
      updatedAt := now }) ∧
  (input.version ≠ row.version → (∃ e, r.1 = .error e ∧ e.is .versionConflict = true) ∧
    r.2.db.identities.get? row.id = some row)

/-- When it does: the name has no NUL, the attributes can be encoded, and a version that is
not stale comes with some attributes, is below the largest, and meets a row without an
initialisation vector. -/
def UpdateCondition (P : Primitives Attrs) (input : UpdateIdentityInput Attrs) (row : IdentityRow) :
    Prop :=
  hasNul input.displayName = false ∧
  (P.isEmpty input.attributes = true ∨ (P.marshal input.attributes).isSome) ∧
  (input.version = row.version → P.isEmpty input.attributes = false ∧ row.version < maxBigint ∧
    row.attributesIV = [])

/-- The identity that the method hands to `Update`. -/
def updateFrom (input : UpdateIdentityInput Attrs) (row : IdentityRow) (blob : Option Bytes) :
    Identity Attrs :=
  { (scanIdentity row : Identity Attrs) with
    displayName := input.displayName, attributes := blob, version := input.version }

section Method

variable {row : IdentityRow} {input : UpdateIdentityInput Attrs} {es : Nat → Env}
  (hkey : P.masterKey.length = 32) (hrow : w.db.identities.get? row.id = some row)
  (hname : input.displayName ≠ "") (hT : UUID.ofText? input.tenantID = some row.tenantID)
  (hI : UUID.ofText? input.id = some row.id) (hes : ∀ n, Working (es n))
include hkey hrow hname hT hI hes

/-- The method is the answer to its `Update`, once the attributes are encrypted. -/
theorem run_updateIdentity :
    (P.isEmpty input.attributes = false ∧ P.marshal input.attributes = none ∧
      ∃ x, (∀ s, Error.is x s = false) ∧ (updateIdentity P input).run
        (exec P) es w = (.error x, w)) ∨
    ∃ blob reply, Encrypted P input.attributes (.ok blob) ∧
      UpdateReply (updateFrom input row blob) row w reply ∧
      (updateIdentity P input).run (exec P) es w =
        (reply.1.mapError (wrapRepoError · "update identity"), reply.2) := by
  have hget : exec P (.repo (.identities (.getByID input.tenantID input.id))) (es 0) w =
      (.ok (scanIdentity row), w) := by
    have hexec := exec_conn_answer (P := P) (w := w) (hes 0).connected
      (c := .identities (.getByID input.tenantID input.id))
      (q := .identityGetByID input.tenantID input.id) rfl (hasNul_of_ofText? hT)
    rw [hexec]
    simp only [answer, (hes 0).connected.2.2, if_true, Query.eval,
      sqlIdentityGetByID_of_get? hT hI hrow]
    rfl
  obtain ⟨r, k, hr, hencrypted⟩ := run_encryptAttributes_bind (α := Identity Attrs) (w := w) hkey
    input.attributes fun n => hes (n + 1)
  unfold updateIdentity
  rw [run_refuseIf_bind _ hname, run_repo_bind_of _ hget, hencrypted]
  cases r with
  | error x =>
    cases hr with
    | unencodable hempty hmarshal => exact .inl ⟨hempty, hmarshal, _, fun _ => rfl, rfl⟩
  | ok blob =>
    have hreply := exec_update (P := P) (updateFrom input row blob) (hes (0 + k + 1)).connected
      (UUID.ofText?_toText _) (UUID.ofText?_toText _) hrow
    refine .inr ⟨blob, _, hr, hreply, ?_⟩
    generalize hout : exec P (.repo (.identities (.update (updateFrom input row blob))))
      (es (0 + k + 1)) w = out at hreply
    cases hreply with
    | written _ _ a _ now w' _ =>
      refine (run_repo_bind_of (fun n => es (n + k + 1)) hout).trans ?_
      rw [decryptAttributes_scan P rfl]
      rfl
    | stale => exact run_repo_bind_error (fun n => es (n + k + 1)) (congrArg Prod.fst hout)
    | refused _ code => exact run_repo_bind_error (fun n => es (n + k + 1)) (congrArg Prod.fst hout)

end Method

theorem updateIdentity_outcome_iff (P : Primitives Attrs) (hkey : P.masterKey.length = 32)
    (w : World) (row : IdentityRow) (hrow : w.db.identities.get? row.id = some row)
    (input : UpdateIdentityInput Attrs) (hname : input.displayName ≠ "")
    (hT : UUID.ofText? input.tenantID = some row.tenantID)
    (hI : UUID.ofText? input.id = some row.id) (es : Nat → Env) (hes : ∀ n, Working (es n)) :
    UpdateOutcome P input row ((updateIdentity P input).run (exec P) es w) ↔
      UpdateCondition P input row := by
  rcases run_updateIdentity hkey hrow hname hT hI hes with
    ⟨hempty, hmarshal, x, hx, hrun⟩ | ⟨blob, reply, hblob, hreply, hrun⟩
  · -- the attributes cannot be encoded: no version is written and none is found stale
    rw [hrun]
    constructor
    · rintro ⟨hcurrent, hstale⟩
      by_cases hv : input.version = row.version
      · obtain ⟨out, _, _, hok, -⟩ := hcurrent hv
        cases hok
      · obtain ⟨⟨e, he, his⟩, -⟩ := hstale hv
        cases he
        exact absurd (his.symm.trans (hx _)) (by decide)
    · rintro ⟨-, hencodes | hencodes, -⟩
      · exact absurd (hencodes.symm.trans hempty) (by decide)
      · rw [hmarshal] at hencodes
        cases hencodes
  · rw [hrun]
    cases hreply with
    | written haccept hv a ha now w' hw' =>
      cases hblob with
      | empty => cases ha
      | sealed hempty plaintext iv hm =>
        cases ha
        constructor
        · rintro ⟨hcurrent, -⟩
          obtain ⟨out, blob, now', -, -, hget⟩ := hcurrent hv
          have hsame := congrArg IdentityRow.attributesIV (Option.some.inj (hw'.symm.trans hget))
          exact ⟨haccept.1, .inr (by rw [hm]; rfl), fun _ => ⟨hempty, (haccept.2 hv).2, hsame.symm⟩⟩
        · rintro ⟨-, -, hrest⟩
          refine ⟨fun _ => ⟨_, iv ++ P.gcmSeal P.masterKey iv plaintext, now, rfl, ?_,
            hw'.trans ?_⟩,
            fun hne => absurd hv hne⟩
          · rw [hempty]
            exact ⟨plaintext, iv, hm, rfl⟩
          · rw [← (hrest hv).2.2]
            rfl
    | stale haccept hv =>
      constructor
      · exact fun _ => ⟨haccept.1, hblob.encodes, fun heq => absurd heq hv⟩
      · refine fun _ => ⟨fun heq => absurd heq hv, fun _ => ⟨⟨_, rfl, ?_⟩, hrow⟩⟩
        exact wrapRepoError_is _ _ _
    | refused hnot code =>
      constructor
      · rintro ⟨hcurrent, hstale⟩
        by_cases hv : input.version = row.version
        · obtain ⟨out, _, _, hok, -⟩ := hcurrent hv
          cases hok
        · obtain ⟨⟨e, he, his⟩, -⟩ := hstale hv
          cases he
          rw [wrapRepoError_is] at his
          cases his
      · rintro ⟨hnul, -, hrest⟩
        refine absurd ⟨hnul, fun hv => ?_⟩ hnot
        obtain ⟨hempty, hlt, -⟩ := hrest hv
        cases hblob with
        | empty h => exact absurd (h.symm.trans hempty) (by decide)
        | sealed => exact ⟨rfl, hlt⟩

/-- The map of one byte is stored for an identity at its first version. -/
theorem seven_updated :
    UpdateOutcome plainPrimitives sevenForAda adaRow
      ((updateIdentity plainPrimitives sevenForAda).run (exec plainPrimitives) (fun _ => calm 3)
        smallWorld) :=
  (updateIdentity_outcome_iff plainPrimitives rfl smallWorld adaRow rfl sevenForAda (by decide)
    (UUID.ofText?_toText _) (UUID.ofText?_toText _) _ fun _ => ⟨⟨rfl, rfl, rfl⟩, rfl⟩).mpr
      ⟨by decide, .inr rfl, fun _ => ⟨rfl, by decide, rfl⟩⟩

/-- The empty map cannot be stored, at the very version of the row: the column is NOT NULL. -/
theorem empty_map_refused :
    let ran := (updateIdentity plainPrimitives { sevenForAda with attributes := [] }).run
      (exec plainPrimitives) (fun _ => calm 3) smallWorld
    sevenForAda.version = adaRow.version ∧
    ran.1 = .error (.wrap "update identity" (.wrap "postgres: update identity"
      (.pg (.server .notNullViolation)))) ∧
    ran.2.db.identities.get? adaRow.id = some adaRow :=
  ⟨rfl, rfl, rfl⟩

end Verion.Service
