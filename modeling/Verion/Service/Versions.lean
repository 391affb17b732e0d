import Verion.Service.Effects

/-!
# Optimistic locking

`UpdateIdentity` reads the row, puts the caller's fields and version into its
copy, and writes with `WHERE ... AND version=$6` and `version=version+1`. The
copy is stale in every other field, but the statement names only the columns
`display_name`, `attributes`, `attributes_iv`, `version` and `updated_at`.
-/

namespace Verion.Service

open Calls Postgres

variable {Attrs ι : Type} [DecidableEq ι]

/-! ### The successful writes of a run -/

/-- The identity a successful `Update` of identity `r` wrote from. -/
def updateWrite (r : UUID) : Ev Attrs → Option (Identity Attrs)
  | ⟨.repo (.identities (.update ident)), .ok _⟩ =>
    if UUID.ofText? ident.id = some r then some ident else none
  | _ => none

/-- The successful updates of identity `r` with the requests that made them, newest first. -/
def updateWrites (r : UUID) (s : Requests ι Attrs) : List (ι × Identity Attrs) :=
  s.log.filterMap fun x => (updateWrite r x.2).map fun ident => (x.1, ident)

/-- The blob stored for the map `m`: nothing, or the nonce followed by the sealed JSON. -/
def IsEncryption (P : Primitives Attrs) (m : Attrs) (blob : Option Bytes) : Prop :=
  (P.isEmpty m = true ∧ blob = none) ∨
  ∃ plaintext iv, P.marshal m = some plaintext ∧
    blob = some (iv ++ P.gcmSeal P.masterKey iv plaintext)

/-- `ident` is what the request `req`, an update, writes from. -/
def WritesFrom (P : Primitives Attrs) (req : Request Attrs) (ident : Identity Attrs) : Prop :=
  ∃ input, req = .updateIdentity input ∧ UUID.ofText? ident.id = UUID.ofText? input.id ∧
    ident.displayName = input.displayName ∧ ident.version = input.version ∧
    IsEncryption P input.attributes ident.attributes

/-! ### Every request keeps to the protocol -/

/-- Updates are made by update requests, from their own input, and an update
request that returns has made one. -/
def versionProtocol (P : Primitives Attrs) (req : Request Attrs) :
    Protocol (@Op.Reply Attrs) Error (Response Attrs) where
  call _ c := MayCall req c ∧ ∀ ident, c = .repo (.identities (.update ident)) →
    WritesFrom P req ident
  done h x := ∀ input a, req = .updateIdentity input → x = .ok a →
    ∃ ident y, (⟨.repo (.identities (.update ident)), .ok y⟩ : Ev Attrs) ∈ h ∧
      WritesFrom P req ident

theorem encrypt_ok {P : Primitives Attrs} {plaintext ciphertext bytes : Bytes} {iv : Option IV}
    (h : encrypt P plaintext iv = .ok (ciphertext, bytes)) :
    ciphertext = P.gcmSeal P.masterKey bytes plaintext := by
  unfold encrypt at h
  split at h
  · cases h
  · split at h
    · cases h
    · cases h; rfl

theorem obeys_encryptAttributes_bind {α : Type} {P : Primitives Attrs} {m : Attrs}
    {Q : Protocol (@Op.Reply Attrs) Error α} {f : Except Error (Option Bytes) → Svc Attrs α}
    {h : List (Ev Attrs)} (hcall : ∀ h plaintext, Q.call h (.encrypt plaintext))
    (hok : ∀ h blob, IsEncryption P m blob → (f (.ok blob)).Obeys (exec P) Q h)
    (herr : ∀ h e, (f (.error e)).Obeys (exec P) Q h) :
    (encryptAttributes P m >>= f).Obeys (exec P) Q h := by
  unfold encryptAttributes
  split
  · rename_i hempty
    exact hok h none (.inl ⟨hempty, rfl⟩)
  · split
    · exact herr h _
    · rename_i plaintext hplain
      refine ⟨hcall h plaintext, fun r hr => ?_⟩
      obtain ⟨e, w, hr⟩ := hr
      cases r with
      | error err => exact herr _ _
      | ok out =>
        refine hok _ _ (.inr ⟨plaintext, out.2, hplain, ?_⟩)
        rw [← encrypt_ok hr]

theorem obeys_updateIdentity (P : Primitives Attrs) (input : UpdateIdentityInput Attrs) :
    ((Request.updateIdentity input).program P).Obeys (exec P)
      (versionProtocol P (.updateIdentity input)) [] := by
  have fails : ∀ (h : List (Ev Attrs)) (e : Error),
      (versionProtocol P (.updateIdentity input)).done h (.error e) := by
    intro h e _ _ _ heq
    cases heq
  refine obeys_respond (obeys_refuseIf_bind (fails _ _) fun _ => ?_)
  refine obeys_repo_bind ⟨.updateIdentityGet _, fun _ heq => by cases heq⟩ (fun existing hget => ?_)
    fun _ => fails _ _
  obtain ⟨e, w, hget⟩ := hget
  obtain ⟨T, I, row, -, hI, hrow, -, rfl⟩ := getByID_ok hget
  have hid : UUID.ofText? (scanIdentity row : Identity Attrs).id = UUID.ofText? input.id := by
    rw [hI, ← Table.key_of_get? hrow]
    exact UUID.ofText?_toText _
  refine obeys_encryptAttributes_bind (fun _ _ =>
    ⟨.updateIdentityEncrypt _ _, fun _ heq => by cases heq⟩)
    (fun h blob hblob => ?_) fun _ _ => fails _ _
  have hwrites : WritesFrom P (.updateIdentity input)
      { (scanIdentity row : Identity Attrs) with
        displayName := input.displayName, attributes := blob, version := input.version } :=
    ⟨input, rfl, hid, rfl, rfl, hblob⟩
  refine obeys_repo_bind ⟨.updateIdentityUpdate _ _ rfl rfl,
    fun ident heq => by cases heq; exact hwrites⟩
    (fun updated _ => ?_) fun _ => fails _ _
  refine (obeys_orFail _ _).mpr ?_
  split
  · intro _ _ _ _
    exact ⟨_, updated, List.mem_cons_self .., hwrites⟩
  · exact fails _ _

/-- Every request keeps to the protocol. -/
theorem obeys_versions (P : Primitives Attrs) (req : Request Attrs) :
    (req.program P).Obeys (exec P) (versionProtocol P req) [] := by
  by_cases hup : ∃ input, req = .updateIdentity input
  · obtain ⟨input, rfl⟩ := hup
    exact obeys_updateIdentity P input
  · have hcall : ∀ h c, MayCall req c → (versionProtocol P req).call h c := by
      intro h c hc
      refine ⟨hc, ?_⟩
      rintro ident rfl
      cases hc with
      | updateIdentityUpdate input _ _ _ => exact absurd ⟨input, rfl⟩ hup
    exact (program_only P req).obeys hcall (fun _ _ input _ hreq _ => absurd ⟨input, hreq⟩ hup) []

/-! ### The books -/

/-- The row of identity `r` and the successful updates of it agree. -/
structure VersionBooks (row0 : IdentityRow) (writes : List (ι × Identity Attrs))
    (row : IdentityRow) : Prop where
  version_eq : row.version = row0.version + writes.length
  below : ∀ x ∈ writes, x.2.version < row.version
  distinct : (writes.map fun x => x.2.version).Nodup
  newest : match writes with
    | [] => row.displayName = row0.displayName ∧ row.attributes = row0.attributes
    | x :: _ => row.displayName = x.2.displayName ∧ x.2.attributes = some row.attributes ∧
        row.version = x.2.version + 1

theorem updateWrites_step {s : Requests ι Attrs} {i : ι} {e : Env} {c : Op Attrs}
    {k : c.Reply → Svc Attrs (Response Attrs)} {P : Primitives Attrs} (r : UUID)
    (hc : s.prog i = .call c k) :
    updateWrites r (s.step (exec P) i e) =
      ((updateWrite r ⟨c, (exec P c e s.world).1⟩).map fun ident => (i, ident)).toList ++
        updateWrites r s := by
  unfold updateWrites
  rw [Pool.log_step hc, List.filterMap_cons]
  cases updateWrite r ⟨c, (exec P c e s.world).1⟩ <;> rfl

omit [DecidableEq ι] in
/-- One call keeps the books. -/
theorem VersionBooks.step {r : UUID} {row0 row row' : IdentityRow}
    {writes : List (ι × Identity Attrs)}
    {ev : Ev Attrs} (hb : VersionBooks row0 writes row)
    (h : IdentityRowStep r ev row row') (i : ι) :
    VersionBooks row0 (((updateWrite r ev).map fun ident => (i, ident)).toList ++ writes) row' := by
  cases h with
  | same _ _ hu =>
    have hnone : updateWrite r ev = none := by
      unfold updateWrite
      split
      · rename_i ident x
        exact if_neg (hu ident x rfl)
      · rfl
    rw [hnone]
    exact hb
  | updated ident now a _ hT hI ha hlt hv =>
    have hsome : updateWrite r ⟨.repo (.identities (.update ident)),
        .ok (scanIdentity (row.updated ident.displayName a [] now))⟩ = some ident := if_pos hI
    rw [hsome]
    have hnew : (row.updated ident.displayName a [] now).version = ident.version + 1 := by
      rw [← hv]; rfl
    refine ⟨?_, ?_, ?_, rfl, ha, hnew⟩
    · rw [hnew, ← hv, hb.version_eq]
      simp
      omega
    · rw [hnew]
      refine List.forall_mem_cons.mpr ⟨Int.lt_succ _, fun x hx => ?_⟩
      have := hb.below x hx
      omega
    · refine List.nodup_cons.mpr ⟨fun hmem => ?_, hb.distinct⟩
      obtain ⟨x, hx, heq⟩ := List.mem_map.mp hmem
      have heq : x.2.version = ident.version := heq
      have := hb.below x hx
      omega
  | statusWritten => exact ⟨hb.version_eq, hb.below, hb.distinct, hb.newest⟩
  | primaryKeySet => exact ⟨hb.version_eq, hb.below, hb.distinct, hb.newest⟩

/-- Every reachable state has its books in order. -/
theorem versionBooks_reach {P : Primitives Attrs} {w : World} {req : ι → Request Attrs} {r : UUID}
    {row0 : IdentityRow} {s : Requests ι Attrs} (h0 : w.db.identities.get? r = some row0)
    (hs : Pool.Reach (exec P) (fun _ _ _ => True) (starting P w req) s) :
    ∃ row, s.world.db.identities.get? r = some row ∧ VersionBooks row0 (updateWrites r s) row := by
  refine Pool.Reach.invariant (J := fun s => ∃ row, s.world.db.identities.get? r = some row ∧
    VersionBooks row0 (updateWrites r s) row) ?_ hs ⟨row0, h0, ?_⟩
  · rintro t i e c k - hc ⟨row, hrow, hb⟩
    obtain ⟨row', hrow', hstep⟩ := (exec_identityStep P c e t.world).row hrow
    rw [Pool.world_step hc, updateWrites_step r hc]
    exact ⟨row', hrow', hb.step hstep i⟩
  · exact ⟨(Int.add_zero _).symm, fun _ hx => absurd hx List.not_mem_nil, List.nodup_nil, rfl, rfl⟩

/-- No update of identity `r` is lost. `row0` is the row as it was created, `row`
the row in the state `s`. -/
structure NoLostUpdate (P : Primitives Attrs) (req : ι → Request Attrs) (r : UUID)
    (row0 : IdentityRow) (s : Requests ι Attrs) (row : IdentityRow) : Prop where
  version_eq : row.version = 1 + (updateWrites r s).length
  own_input : ∀ x ∈ updateWrites r s, WritesFrom P (req x.1) x.2
  versions_differ : ∀ i j input input' a b, i ≠ j → req i = .updateIdentity input →
    req j = .updateIdentity input' → UUID.ofText? input.id = some r →
    UUID.ofText? input'.id = some r → s.prog i = .ret a → s.prog j = .ret b →
    input.version ≠ input'.version
  newest_stored :
    (updateWrites r s = [] ∧ row.displayName = row0.displayName ∧
      row.attributes = row0.attributes) ∨
    ∃ x ∈ updateWrites r s, row.displayName = x.2.displayName ∧
      x.2.attributes = some row.attributes ∧
      ∀ y ∈ updateWrites r s, y.2.version ≤ x.2.version
  other_columns : ∀ i input e row', req i = .updateIdentity input →
    (s.step (exec P) i e).world.db.identities.get? r = some row' →
    row'.status = row.status ∧ row'.deactivatedAt = row.deactivatedAt ∧
    row'.primaryKeyID = row.primaryKeyID ∧ row'.handle = row.handle ∧ row'.type = row.type

section Final

variable {P : Primitives Attrs} {w : World} {req : ι → Request Attrs} {r : UUID}
  {s : Requests ι Attrs}

theorem obeyed_versions (hs : Pool.Reach (exec P) (fun _ _ _ => True) (starting P w req) s) :
    Pool.Obeyed (exec P) (fun i => versionProtocol P (req i)) s :=
  hs.obeyed fun i => obeys_versions P (req i)

omit [DecidableEq ι] in
theorem mem_updateWrites {x : ι × Identity Attrs} :
    x ∈ updateWrites r s ↔ UUID.ofText? x.2.id = some r ∧
      ∃ y, (x.1, (⟨.repo (.identities (.update x.2)), .ok y⟩ : Ev Attrs)) ∈ s.log := by
  simp only [updateWrites, List.mem_filterMap, Option.map_eq_some_iff]
  constructor
  · rintro ⟨⟨i, ev⟩, hlog, ident, hwrite, rfl⟩
    unfold updateWrite at hwrite
    split at hwrite
    · rename_i ident' y hev
      split at hwrite
      · rename_i hid
        cases hwrite
        exact ⟨hid, y, hev ▸ hlog⟩
      · cases hwrite
    · cases hwrite
  · rintro ⟨hid, y, hlog⟩
    exact ⟨_, hlog, x.2, if_pos hid, rfl⟩

/-- A finished update of `r` is among the successful writes. -/
theorem mem_updateWrites_of_ret {i : ι} {input : UpdateIdentityInput Attrs} {a : Response Attrs}
    (hs : Pool.Reach (exec P) (fun _ _ _ => True) (starting P w req) s)
    (hreq : req i = .updateIdentity input) (hid : UUID.ofText? input.id = some r)
    (hret : s.prog i = .ret a) :
    ∃ ident, (i, ident) ∈ updateWrites r s ∧ ident.version = input.version := by
  have hdone := obeyed_versions hs i
  rw [hret] at hdone
  obtain ⟨ident, y, hmem, input', hinput, hident, -, hversion, -⟩ := hdone input a hreq rfl
  rw [hreq] at hinput
  cases hinput
  refine ⟨ident, mem_updateWrites.mpr ⟨hident.trans hid, y, Pool.mem_hist.mp hmem⟩, hversion⟩

/-- A step of an update request leaves the columns that the statement does not name. -/
theorem other_columns_step {i : ι} {input : UpdateIdentityInput Attrs} {e : Env}
    {row row' : IdentityRow}
    (hs : Pool.Reach (exec P) (fun _ _ _ => True) (starting P w req) s)
    (hreq : req i = .updateIdentity input) (hrow : s.world.db.identities.get? r = some row)
    (hrow' : (s.step (exec P) i e).world.db.identities.get? r = some row') :
    row'.status = row.status ∧ row'.deactivatedAt = row.deactivatedAt ∧
    row'.primaryKeyID = row.primaryKeyID ∧ row'.handle = row.handle ∧ row'.type = row.type := by
  rcases Pool.step_cases (exec P) s i with ⟨c, k, hc⟩ | hidle
  · have hmay := ((obeyed_versions hs).call hc).1
    rw [hreq] at hmay
    rw [Pool.world_step hc] at hrow'
    obtain ⟨row'', hrow'', hstep⟩ := (exec_identityStep P c e s.world).row hrow
    obtain rfl : row'' = row' := Option.some.inj (hrow''.symm.trans hrow')
    generalize hev : (⟨c, (exec P c e s.world).1⟩ : Ev Attrs) = ev at hstep
    obtain rfl : c = ev.op := congrArg Event.op hev
    cases hstep with
    | same => exact ⟨rfl, rfl, rfl, rfl, rfl⟩
    | updated => exact ⟨rfl, rfl, rfl, rfl, rfl⟩
    | statusWritten => cases hmay
    | primaryKeySet => cases hmay
  · rw [hidle e, hrow] at hrow'
    cases hrow'
    exact ⟨rfl, rfl, rfl, rfl, rfl⟩

/-- In every state that any interleaving of requests reaches from a world with the
freshly created identity `r`, no update of `r` is lost. -/
theorem no_lost_update (P : Primitives Attrs) (w : World) (req : ι → Request Attrs) (r : UUID)
    (row0 : IdentityRow) (s : Requests ι Attrs) (h0 : w.db.identities.get? r = some row0)
    (hv : row0.version = 1)
    (hs : Pool.Reach (exec P) (fun _ _ _ => True) (starting P w req) s) :
    ∃ row, s.world.db.identities.get? r = some row ∧ NoLostUpdate P req r row0 s row := by
  obtain ⟨row, hrow, hb⟩ := versionBooks_reach h0 hs
  refine ⟨row, hrow, ?_, ?_, ?_, ?_, ?_⟩
  · rw [hb.version_eq, hv]
  · intro x hx
    obtain ⟨-, y, hlog⟩ := mem_updateWrites.mp hx
    have hlogged := Pool.Reach.logged (P := fun i => versionProtocol P (req i))
      (Q := fun i c => ∀ ident, c = .repo (.identities (.update ident)) →
        WritesFrom P (req i) ident) (fun _ _ _ hcall => hcall.2) hs
      (fun i => obeys_versions P (req i)) fun _ hmem => absurd hmem List.not_mem_nil
    exact hlogged _ hlog x.2 rfl
  · intro i j input input' a b hij hi hj hid hid' hreti hretj heq
    obtain ⟨ident, hmem, hver⟩ := mem_updateWrites_of_ret hs hi hid hreti
    obtain ⟨ident', hmem', hver'⟩ := mem_updateWrites_of_ret hs hj hid' hretj
    have hsame := List.inj_on_of_nodup_map hb.distinct hmem hmem' (by rw [hver, hver', heq])
    exact hij (congrArg Prod.fst hsame)
  · have hnewest := hb.newest
    have hbelow := hb.below
    generalize updateWrites r s = writes at hnewest hbelow ⊢
    cases writes with
    | nil => exact .inl ⟨rfl, hnewest⟩
    | cons x rest =>
      refine .inr ⟨x, List.mem_cons_self .., hnewest.1, hnewest.2.1, fun y hy => ?_⟩
      have := hbelow y hy
      have := hnewest.2.2
      omega
  · intro i input e row' hreq hrow'
    exact other_columns_step hs hreq hrow hrow'

end Final

/-- Two updates that carry version 1 read before either writes; one of them gets through. -/
theorem no_lost_update_two :
    let req : Bool → Request Bytes := fun _ => .updateIdentity sevenForAda
    let s := (starting plainPrimitives smallWorld req).play (exec plainPrimitives)
      [(false, calm 3), (true, calm 4), (false, calm 5), (true, calm 6), (true, calm 7),
        (false, calm 8)]
    (updateWrites (.ofNat 2) s).length = 1 ∧
      ∃ row, s.world.db.identities.get? (.ofNat 2) = some row ∧
        NoLostUpdate plainPrimitives req (.ofNat 2) adaRow s row :=
  ⟨by decide +kernel, no_lost_update plainPrimitives smallWorld _ (.ofNat 2) adaRow _
    (by decide +kernel) rfl (Pool.reach_play (fun _ _ _ => trivial) _)⟩

end Verion.Service
