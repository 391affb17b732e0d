import Verion.Service.Effects

/-!
# Attributes on their way through storage

The services write the encrypted attributes into the column `attributes` and
leave `attributes_iv` empty. The row scanner reads both columns into the same
field, the empty one last, so that an identity comes back without stored bytes
and the decryption has nothing to do.
-/

namespace Verion.Service

open Calls Postgres

variable {Attrs : Type}

/-- The identity carries the map `m`; a nil map is an empty one. -/
def Carries (P : Primitives Attrs) (m : Attrs) (ident : Identity Attrs) : Prop :=
  match ident.decryptedAttributes with
  | none => P.isEmpty m = true
  | some m' => m' = m

/-- What the reads of identity `r` in the world `w` return when they succeed. -/
inductive ReadBack (P : Primitives Attrs) (r : UUID) (w : World) : Identity Attrs → Prop where
  | get (tenantID id : String) (es : Nat → Env) (ident : Identity Attrs) (w' : World)
      (hid : UUID.ofText? id = some r)
      (h : (getIdentity P tenantID id).run (exec P) es w = (.ok ident, w')) :
      ReadBack P r w ident
  | byHandle (tenantID handle : String) (es : Nat → Env) (ident : Identity Attrs) (w' : World)
      (h : (getIdentityByHandle P tenantID handle).run (exec P) es w = (.ok ident, w'))
      (hid : UUID.ofText? ident.id = some r) : ReadBack P r w ident
  | list (tenantID : String) (filter : IdentityFilter) (es : Nat → Env)
      (idents : List (Identity Attrs)) (w' : World)
      (h : (listIdentities P tenantID filter).run (exec P) es w = (.ok idents, w'))
      (ident : Identity Attrs) (hmem : ident ∈ idents) (hid : UUID.ofText? ident.id = some r) :
      ReadBack P r w ident

/-! ### Rows without an initialisation vector -/

theorem scanIdentity_attributes (row : IdentityRow) :
    (scanIdentity row : Identity Attrs).attributes = some row.attributesIV := rfl

theorem scanIdentity_id (row : IdentityRow) :
    (scanIdentity row : Identity Attrs).id = row.id.toText :=
  rfl

theorem decryptAttributes_scan (P : Primitives Attrs) {row : IdentityRow}
    (hiv : row.attributesIV = []) : decryptAttributes P (scanIdentity row) =
      .ok (scanIdentity row) := by
  unfold decryptAttributes
  rw [scanIdentity_attributes, hiv]
  rfl

theorem not_carries_scan {P : Primitives Attrs} {m : Attrs} (hm : P.isEmpty m = false)
    (row : IdentityRow) : ¬ Carries P m (scanIdentity row) := by
  intro h
  exact Bool.false_ne_true (hm.symm.trans h)

/-- Identity `r` is stored with an empty `attributes_iv`. -/
def StoredWithoutIV (r : UUID) (w : World) : Prop :=
  ∃ row, w.db.identities.get? r = some row ∧ row.attributesIV = []

/-- No call of the services ever stores an initialisation vector. -/
theorem storedWithoutIV_step {P : Primitives Attrs} {r : UUID} (c : Op Attrs) (e : Env) (w : World)
    (h : StoredWithoutIV r w) : StoredWithoutIV r (exec P c e w).2 := by
  obtain ⟨row, hrow, hiv⟩ := h
  obtain ⟨row', hrow', hrs⟩ := (exec_identityStep P c e w).row hrow
  generalize (⟨c, (exec P c e w).1⟩ : Ev Attrs) = ev at hrs
  refine ⟨row', hrow', ?_⟩
  cases hrs with
  | same => exact hiv
  | updated => rfl
  | statusWritten => exact hiv
  | primaryKeySet => exact hiv

theorem StoredWithoutIV.leads {P : Primitives Attrs} {r : UUID} {w w' : World}
    (h : StoredWithoutIV r w) (hw : Leads (exec P) w w') : StoredWithoutIV r w' :=
  hw.invariant storedWithoutIV_step h

/-- The row of an identity is the one that is found under its identifier. -/
theorem StoredWithoutIV.of_mem {r : UUID} {w : World} {row : IdentityRow}
    (h : StoredWithoutIV r w) (hmem : row ∈ w.db.identities.rows)
    (hid : UUID.ofText? (scanIdentity row : Identity Attrs).id = some r) :
    row.attributesIV = [] := by
  obtain ⟨row', hrow', hiv⟩ := h
  rw [scanIdentity_id, UUID.ofText?_toText] at hid
  have hget : w.db.identities.get? r = some row := Option.some.inj hid ▸ Table.get?_of_mem hmem
  rw [← Option.some.inj (hrow'.symm.trans hget)]
  exact hiv

/-! ### Reads -/

theorem run_repo_ok {P : Primitives Attrs} {c : RepoCall Attrs} {f : Error → Error} {es : Nat → Env}
    {w w' : World} {a : c.Result} (h : (repo c f).run (exec P) es w = (.ok a, w')) :
    (exec P (.repo c) (es 0) w).1 = .ok a ∧ w' = (exec P (.repo c) (es 0) w).2 := by
  unfold repo at h
  rw [Program.run_call] at h
  generalize exec P (.repo c) (es 0) w = out at h
  obtain ⟨x, w1⟩ := out
  cases x with
  | ok b => cases h; exact ⟨rfl, rfl⟩
  | error e => cases h

theorem run_repo_identityStep {P : Primitives Attrs} {c : RepoCall Attrs} {f : Error → Error}
    {es : Nat → Env} {w w' : World} {a : c.Result}
    (h : (repo c f).run (exec P) es w = (.ok a, w')) :
    IdentityStep ⟨.repo c, .ok a⟩ w.db.identities w'.db.identities := by
  obtain ⟨hreply, rfl⟩ := run_repo_ok h
  rw [← hreply]
  exact exec_identityStep P (.repo c) (es 0) w

theorem run_orFail_ok {P : Primitives Attrs} {α : Type} {f : Error → Error} {x : Except Error α}
    {es : Nat → Env} {w w' : World} {a : α}
    (h : (orFail f x : Svc Attrs α).run (exec P) es w = (.ok a, w')) : x = .ok a ∧ w' = w := by
  cases x with
  | ok b => cases h; exact ⟨rfl, rfl⟩
  | error e => cases h

/-- Every read of an identity stored without an initialisation vector returns its
row as it was scanned. -/
theorem ReadBack.scanned {P : Primitives Attrs} {r : UUID} {w : World} {ident : Identity Attrs}
    (h : ReadBack P r w ident) (hs : StoredWithoutIV r w) : ∃ row, ident = scanIdentity row := by
  cases h with
  | get tenantID id es ident w' hid h =>
    obtain ⟨x, w1, es', hget, hdec⟩ := Program.run_bind_ok h
    obtain ⟨T, I, row, -, hI, hrow, -, rfl⟩ := getByID_ok (run_repo_ok hget).1
    obtain rfl : I = r := Option.some.inj (hI.symm.trans hid)
    obtain ⟨row', hrow', hiv⟩ := hs
    obtain rfl : row' = row := Option.some.inj (hrow'.symm.trans hrow)
    rw [decryptAttributes_scan P hiv] at hdec
    exact ⟨row', (Except.ok.inj (run_orFail_ok hdec).1).symm⟩
  | byHandle tenantID handle es ident w' h hid =>
    obtain ⟨x, w1, es', hget, hdec⟩ := Program.run_bind_ok h
    obtain ⟨-, T, -, row, hmem, -, -, rfl⟩ := getByHandle_ok (run_repo_ok hget).1
    have hdec := (run_orFail_ok hdec).1
    rw [(decryptAttributes_ok hdec).1] at hid
    rw [decryptAttributes_scan P (hs.of_mem hmem hid)] at hdec
    exact ⟨row, (Except.ok.inj hdec).symm⟩
  | list tenantID filter es idents w' h ident hmem hid =>
    obtain ⟨xs, w1, es', hlist, hdec⟩ := Program.run_bind_ok h
    obtain ⟨T, rows, -, hrows, rfl⟩ := list_ok (run_repo_ok hlist).1
    obtain ⟨x, hx, hdec⟩ := mem_of_decryptAll (run_orFail_ok hdec).1 ident hmem
    obtain ⟨row, hrow, rfl⟩ := List.mem_map.mp hx
    rw [(decryptAttributes_ok hdec).1] at hid
    rw [decryptAttributes_scan P (hs.of_mem (hrows row hrow).1 hid)] at hdec
    exact ⟨row, (Except.ok.inj hdec).symm⟩

theorem StoredWithoutIV.readable (P : Primitives Attrs) {r : UUID} {w : World}
    (h : StoredWithoutIV r w) : ∃ ident, ReadBack P r w ident := by
  obtain ⟨row, hrow, hiv⟩ := h
  refine ⟨scanIdentity row, .get row.tenantID.toText r.toText (fun _ => calm 0) _ w
    (UUID.ofText?_toText r) ?_⟩
  simp only [getIdentity, repo, Program.call_bind, Program.run_call, 
    exec_getByID_calm (UUID.ofText?_toText _) (UUID.ofText?_toText _) hrow,
    orFail, Program.ret_bind, decryptAttributes_scan P hiv, Program.run_ret]

/-! ### Writes -/

theorem createIdentity_stored {P : Primitives Attrs} {input : CreateIdentityInput Attrs}
    {es : Nat → Env} {w w' : World} {out : IdentityWithKeys Attrs}
    (h : (createIdentity P input).run (exec P) es w = (.ok out, w')) :
    ∃ r, UUID.ofText? out.identity.id = some r ∧ StoredWithoutIV r w' := by
  obtain ⟨_, _, _, -, h⟩ := Program.run_bind_ok h
  obtain ⟨tenant, _, _, -, h⟩ := Program.run_bind_ok h
  obtain ⟨_, _, _, -, h⟩ := Program.run_bind_ok h
  obtain ⟨_, _, _, -, h⟩ := Program.run_bind_ok h
  obtain ⟨encryptedAttrs, _, _, -, h⟩ := Program.run_bind_ok h
  obtain ⟨created, _, _, hcreate, h⟩ := Program.run_bind_ok h
  have hlater := Program.run_leads h
  obtain ⟨st, T, by_, -, -, hrow, hcreated⟩ := (run_repo_identityStep hcreate).create_ok
  obtain ⟨generated, _, _, -, h⟩ := Program.run_bind_ok h
  obtain ⟨createdKey, _, _, -, h⟩ := Program.run_bind_ok h
  obtain ⟨_, _, _, -, h⟩ := Program.run_bind_ok h
  obtain ⟨_, _, _, -, h⟩ := Program.run_bind_ok h
  obtain ⟨_, _, _, -, h⟩ := Program.run_bind_ok h
  cases h
  refine ⟨st.newID, ?_, StoredWithoutIV.leads ⟨_, hrow, rfl⟩ hlater⟩
  rw [hcreated]
  exact UUID.ofText?_toText _

/-- `UpdateIdentity` returns the row it wrote, scanned and not decrypted. -/
theorem updateIdentity_stored {P : Primitives Attrs} {input : UpdateIdentityInput Attrs}
    {es : Nat → Env} {w w' : World} {out : Identity Attrs}
    (h : (updateIdentity P input).run (exec P) es w = (.ok out, w')) :
    ∃ r row, UUID.ofText? out.id = some r ∧ StoredWithoutIV r w' ∧ out = scanIdentity row := by
  obtain ⟨_, _, _, -, h⟩ := Program.run_bind_ok h
  obtain ⟨existing, _, _, -, h⟩ := Program.run_bind_ok h
  obtain ⟨_, _, _, -, h⟩ := Program.run_bind_ok h
  obtain ⟨encryptedAttrs, _, _, -, h⟩ := Program.run_bind_ok h
  obtain ⟨updated, _, _, hupdate, h⟩ := Program.run_bind_ok h
  obtain ⟨I, row, a, now, -, hold, -, -, -, hrow, rfl⟩ := (run_repo_identityStep hupdate).update_ok
  rw [decryptAttributes_scan P rfl] at h
  obtain ⟨hout, rfl⟩ := run_orFail_ok h
  cases hout
  refine ⟨I, _, ?_, ⟨_, hrow, rfl⟩, rfl⟩
  rw [← Table.key_of_get? hold]
  exact UUID.ofText?_toText _

/-- No non-empty attribute map makes the round trip: whenever `CreateIdentity` or
`UpdateIdentity` succeeds, every later world has a read of the identity that
succeeds, no such read carries the map, and neither does what `UpdateIdentity`
returns. -/
theorem attributes_not_read_back (P : Primitives Attrs) (m : Attrs) (hm : P.isEmpty m = false)
    (es : Nat → Env) (w : World) :
    (∀ input out w', input.attributes = m →
      (createIdentity P input).run (exec P) es w = (.ok out, w') →
      ∃ r, UUID.ofText? out.identity.id = some r ∧ ∀ w'', Leads (exec P) w' w'' →
        (∃ ident, ReadBack P r w'' ident) ∧ ∀ ident, ReadBack P r w'' ident → ¬ Carries P m ident) ∧
    (∀ input out w', input.attributes = m →
      (updateIdentity P input).run (exec P) es w = (.ok out, w') → ¬ Carries P m out ∧
      ∃ r, UUID.ofText? out.id = some r ∧ ∀ w'', Leads (exec P) w' w'' →
        (∃ ident, ReadBack P r w'' ident) ∧
          ∀ ident, ReadBack P r w'' ident → ¬ Carries P m ident) := by
  have later : ∀ {r : UUID} {w' : World}, StoredWithoutIV r w' → ∀ w'', Leads (exec P) w' w'' →
      (∃ ident, ReadBack P r w'' ident) ∧ ∀ ident, ReadBack P r w'' ident →
        ¬ Carries P m ident := by
    intro r w' hs w'' hw
    refine ⟨(hs.leads hw).readable P, fun ident hread => ?_⟩
    obtain ⟨row, rfl⟩ := hread.scanned (hs.leads hw)
    exact not_carries_scan hm row
  constructor
  · intro input out w' _ hrun
    obtain ⟨r, hid, hs⟩ := createIdentity_stored hrun
    exact ⟨r, hid, later hs⟩
  · intro input out w' _ hrun
    obtain ⟨r, row, hid, hs, rfl⟩ := updateIdentity_stored hrun
    exact ⟨not_carries_scan hm row, r, hid, later hs⟩

/-- The map `[7]` stored for an identity is gone from what the update returns and
from the next read. -/
theorem attributes_lost_by_update :
    let out := (updateIdentity plainPrimitives sevenForAda).run (exec plainPrimitives)
      (fun _ => calm 3) smallWorld
    out.1.toOption.map Identity.decryptedAttributes = some none ∧
    ((getIdentity plainPrimitives (UUID.ofNat 1).toText (UUID.ofNat 2).toText).run
      (exec plainPrimitives) (fun _ => calm 4) out.2).1.toOption.map
        Identity.decryptedAttributes = some none := by
  decide +kernel

theorem seven_not_read_back :
    ∃ out, ((updateIdentity plainPrimitives sevenForAda).run (exec plainPrimitives)
      (fun _ => calm 3) smallWorld).1 = .ok out ∧ ¬ Carries plainPrimitives [7] out := by
  have hok : ((updateIdentity plainPrimitives sevenForAda).run (exec plainPrimitives)
      (fun _ => calm 3) smallWorld).1.toOption.isSome = true := by decide +kernel
  generalize hrun : (updateIdentity plainPrimitives sevenForAda).run (exec plainPrimitives)
    (fun _ => calm 3) smallWorld = ran at hok
  obtain ⟨x, w'⟩ := ran
  cases x with
  | error e => cases hok
  | ok out =>
    have hnot := (attributes_not_read_back plainPrimitives [7] rfl (fun _ => calm 3) smallWorld).2
      sevenForAda out w' rfl hrun
    exact ⟨out, rfl, hnot.1⟩

end Verion.Service
