import Verion.Service.KeyTrust

/-!
# Rotation history

`RotateKey` links a key to its successor, and a key that is rotated again, or by
two requests at once, has its link overwritten. A request links the key it has
read to the key it has inserted afterwards, so links lead to rows inserted later;
and it links to its own key once, so no two keys share a successor.
-/

namespace Verion.Service

open Calls Postgres

variable {Attrs ι : Type}

structure Forest (keys : Keys) : Prop where
  later : keys.Forward KeyRow.rotatedTo
  distinct : ∀ K K' row row' N, keys.get? K = some row → keys.get? K' = some row' →
    row.rotatedTo = some N → row'.rotatedTo = some N → K = K'
  linked : ∀ K row, keys.get? K = some row → row.status = .rotated → row.rotatedTo.isSome

def Unlinked (keys : Keys) (N : UUID) : Prop :=
  ∀ K row, keys.get? K = some row → row.rotatedTo ≠ some N

/-! ### One call -/

section Call

variable {ev : Ev Attrs} {keys keys' : Keys}

theorem KeyStep.isSome (h : KeyStep ev keys keys') {K : UUID} (hK : (keys.get? K).isSome) :
    (keys'.get? K).isSome := by
  obtain ⟨row, hrow⟩ := Option.isSome_iff_exists.mp hK
  obtain ⟨row', hrow', -⟩ := h.row hrow
  exact Option.isSome_of_eq_some hrow'

theorem KeyStep.position (h : KeyStep ev keys keys') {K : UUID} (hK : (keys.get? K).isSome) :
    keys'.position K = keys.position K := by
  cases h with
  | quiet => rfl
  | created _ _ _ _ _ _ _ _ hins => exact Table.position_insert? hins hK
  | rotated => exact Table.position_update
  | revoked => exact Table.position_update
  | compromised => exact Table.position_update

/-- A link was there before, or is the one a rotation makes. -/
theorem KeyStep.link (h : KeyStep ev keys keys') {K N : UUID} {row' : KeyRow}
    (hrow' : keys'.get? K = some row') (hN : row'.rotatedTo = some N) :
    (∃ row, keys.get? K = some row ∧ row.rotatedTo = some N) ∨
    ∃ tenantID oldKeyID newKeyID,
      ev = ⟨.repo (.keys (.rotate tenantID oldKeyID newKeyID)), .ok ()⟩ ∧
      UUID.ofText? oldKeyID = some K ∧ UUID.ofText? newKeyID = some N ∧ (keys.get? K).isSome := by
  cases hrow : keys.get? K with
  | none =>
    obtain ⟨key, st, I, T, -, -, -, rfl, -⟩ := h.new_row hrow hrow'
    cases hN
  | some row =>
    obtain ⟨row'', hrow'', hstep⟩ := h.row hrow
    obtain rfl : row'' = row' := Option.some.inj (hrow''.symm.trans hrow')
    obtain ⟨-, -, -, -, hsame | ⟨tenantID, oldKeyID, newKeyID, N', -, hK, hN', hlink, hev⟩⟩ :=
      hstep.keeps
    · exact .inl ⟨row, rfl, hsame ▸ hN⟩
    · obtain rfl : N' = N := Option.some.inj (hlink.symm.trans hN)
      exact .inr ⟨tenantID, oldKeyID, newKeyID, hev, hK, hN', rfl⟩

/-- A rotated key was so before, or has just been linked, or was inserted as rotated. -/
theorem KeyStep.status_rotated (h : KeyStep ev keys keys') {K : UUID} {row' : KeyRow}
    (hrow' : keys'.get? K = some row') (hstatus : row'.status = .rotated) :
    (∃ row, keys.get? K = some row ∧ row.status = .rotated ∧ row'.rotatedTo = row.rotatedTo) ∨
    row'.rotatedTo.isSome ∨ ∃ key x, ev = ⟨.repo (.keys (.create key)), .ok x⟩ ∧
      key.status = .rotated := by
  cases hrow : keys.get? K with
  | none =>
    obtain ⟨key, st, I, T, -, -, -, rfl, hev⟩ := h.new_row hrow hrow'
    exact .inr (.inr ⟨key, _, hev, hstatus⟩)
  | some row =>
    obtain ⟨row'', hrow'', hstep⟩ := h.row hrow
    obtain rfl : row'' = row' := Option.some.inj (hrow''.symm.trans hrow')
    cases hstep with
    | same => exact .inl ⟨row, rfl, hstatus, rfl⟩
    | rotated => exact .inr (.inl rfl)
    | revoked => cases hstatus
    | compromised => cases hstatus

/-- What a call must observe to keep the history a forest. -/
theorem Forest.step (h : Forest keys) (hstep : KeyStep ev keys keys')
    (hcreate : ∀ key x, ev = ⟨.repo (.keys (.create key)), .ok x⟩ → key.status ≠ .rotated)
    (hrotate : ∀ tenantID oldKeyID newKeyID K N,
      ev = ⟨.repo (.keys (.rotate tenantID oldKeyID newKeyID)), .ok ()⟩ →
      UUID.ofText? oldKeyID = some K → UUID.ofText? newKeyID = some N →
      (keys.get? N).isSome ∧ keys.position K < keys.position N ∧ Unlinked keys N) :
    Forest keys' where
  later := by
    intro K row' N hrow' hN
    have hbefore : (keys.get? K).isSome ∧ (keys.get? N).isSome ∧
        keys.position K < keys.position N := by
      rcases hstep.link hrow' hN with ⟨row, hrow, hN⟩ | ⟨_, _, _, hev, hK, hN, hsome⟩
      · exact ⟨Option.isSome_of_eq_some hrow, h.later K row N hrow hN⟩
      · obtain ⟨hnew, hlt, -⟩ := hrotate _ _ _ K N hev hK hN
        exact ⟨hsome, hnew, hlt⟩
    obtain ⟨hK, hsome, hlt⟩ := hbefore
    rw [hstep.position hK, hstep.position hsome]
    exact ⟨hstep.isSome hsome, hlt⟩
  distinct := by
    intro K K' row₁ row₂ N hrow₁ hrow₂ hN₁ hN₂
    rcases hstep.link hrow₁ hN₁ with ⟨row, hrow, hN⟩ | ⟨_, _, _, hev, hK, hN, -⟩
    · rcases hstep.link hrow₂ hN₂ with ⟨row', hrow', hN'⟩ | ⟨_, _, _, hev, hK', hN', -⟩
      · exact h.distinct K K' row row' N hrow hrow' hN hN'
      · exact absurd hN ((hrotate _ _ _ K' N hev hK' hN').2.2 K row hrow)
    · rcases hstep.link hrow₂ hN₂ with ⟨row', hrow', hN'⟩ | ⟨_, _, _, hev', hK', hN', -⟩
      · exact absurd hN' ((hrotate _ _ _ K N hev hK hN).2.2 K' row' hrow')
      · cases hev.symm.trans hev'
        exact Option.some.inj (hK.symm.trans hK')
  linked := by
    intro K row' hrow' hstatus
    rcases hstep.status_rotated hrow' hstatus with
      ⟨row, hrow, hst, hsame⟩ | hsome | ⟨key, x, hev, hst⟩
    · rw [hsame]
      exact h.linked K row hrow hst
    · exact hsome
    · exact absurd hst (hcreate key x hev)

end Call

/-! ### What every request does -/

/-- Keys are inserted as active, and a rotation links a key that was read to the key
inserted by the call before. -/
def Orderly (h : List (Ev Attrs)) : Op Attrs → Prop
  | .repo (.keys (.create key)) => key.status = .active
  | .repo (.keys (.rotate tenantID oldKeyID newKeyID)) => ∃ key created rest old,
      h = ⟨.repo (.keys (.create key)), .ok created⟩ :: rest ∧ newKeyID = created.id ∧
      ⟨.repo (.keys (.getByID tenantID oldKeyID)), .ok old⟩ ∈ rest
  | _ => True

def rotationProtocol (α : Type) : Protocol (@Op.Reply Attrs) Error α where
  call h c := Orderly h c
  done _ _ := True

def RotatesNothing : Op Attrs → Prop
  | .repo (.keys (.create key)) => key.status = .active
  | .repo (.keys (.rotate _ _ _)) => False
  | _ => True

theorem RotatesNothing.call {α : Type} (h : List (Ev Attrs)) (c : Op Attrs)
    (hc : RotatesNothing c) :
    (rotationProtocol α).call h c := by
  show Orderly h c
  unfold Orderly
  split
  · exact hc
  · exact absurd hc not_false
  · trivial

theorem obeys_rotateKey_links (P : Primitives Attrs)
    (tenantID identityID oldKeyID actorID : String) :
    (rotateKey tenantID identityID oldKeyID actorID : Svc Attrs _).Obeys (exec P)
      (rotationProtocol _) [] := by
  refine obeys_repo_bind trivial (fun old _ => ?_) fun _ => trivial
  refine ⟨trivial, fun now _ => obeys_refuseIf_bind trivial fun _ => ?_⟩
  refine obeys_generateKeyPair_bind (fun _ _ => trivial) fun generator algorithm _ =>
    ⟨trivial, fun generated _ => ?_⟩
  refine obeys_repo_bind rfl (fun created _ => ?_) fun _ => trivial
  refine obeys_repo_bind ⟨_, created, _, old, rfl, rfl, by simp⟩ (fun _ _ => ?_) fun _ => trivial
  -- nothing is rotated or inserted after the link
  refine Program.Only.obeys RotatesNothing.call (fun _ _ => trivial) ?_ _
  refine (only_repo trivial _).bind fun ident => ?_
  refine Program.Only.bind ?_ fun _ => (only_writeAudit trivial).bind fun _ => trivial
  split
  · exact only_repo trivial _
  · trivial

theorem obeys_links (P : Primitives Attrs) (req : Request Attrs) :
    (req.program P).Obeys (exec P) (rotationProtocol _) [] := by
  by_cases hfree : ∀ c, MayCall req c → RotatesNothing c
  · exact ((program_only P req).mono hfree).obeys RotatesNothing.call (fun _ _ => trivial) []
  · cases req with
    | rotateKey tenantID identityID oldKeyID actorID =>
      exact obeys_respond (obeys_rotateKey_links P tenantID identityID oldKeyID actorID)
    | _ => exact absurd (fun c hc => by cases hc <;> trivial) hfree

/-! ### All schedules -/

variable [DecidableEq ι]

/-- Request `j` has inserted key `N` and made no call since. -/
def JustInserted (s : Requests ι Attrs) (j : ι) (N : UUID) : Prop :=
  ∃ key x rest, s.hist j = ⟨.repo (.keys (.create key)), .ok x⟩ :: rest ∧ UUID.ofText? x.id = some N

/-- Request `j` has read key `K`. -/
def HasRead (s : Requests ι Attrs) (j : ι) (K : UUID) : Prop :=
  ∃ tenantID id key, ⟨.repo (.keys (.getByID tenantID id)), .ok key⟩ ∈ s.hist j ∧
    UUID.ofText? id = some K

structure RotationInv (s : Requests ι Attrs) : Prop extends Forest s.world.db.identityKeys where
  read : ∀ j K, HasRead s j K → (s.world.db.identityKeys.get? K).isSome
  inserted : ∀ j N, JustInserted s j N → (s.world.db.identityKeys.get? N).isSome ∧
    Unlinked s.world.db.identityKeys N
  after : ∀ j N K, JustInserted s j N → HasRead s j K →
    s.world.db.identityKeys.position K < s.world.db.identityKeys.position N
  apart : ∀ j j' N, JustInserted s j N → JustInserted s j' N → j = j'

section Step

variable {P : Primitives Attrs} {s : Requests ι Attrs} {i : ι} {e : Env} {c : Op Attrs}
  {k : c.Reply → Svc Attrs (Response Attrs)}

theorem justInserted_step (hc : s.prog i = .call c k) {j : ι} {N : UUID}
    (h : JustInserted (s.step (exec P) i e) j N) :
    (j ≠ i ∧ JustInserted s j N) ∨ j = i ∧ ∃ key x, (⟨c, (exec P c e s.world).1⟩ : Ev Attrs) =
      ⟨.repo (.keys (.create key)), .ok x⟩ ∧ UUID.ofText? x.id = some N := by
  obtain ⟨key, x, rest, hhist, hN⟩ := h
  by_cases hj : j = i
  · subst hj
    rw [Pool.hist_step_self hc] at hhist
    exact .inr ⟨rfl, key, x, (List.cons.inj hhist).1, hN⟩
  · rw [Pool.hist_step_other hj] at hhist
    exact .inl ⟨hj, key, x, rest, hhist, hN⟩

theorem hasRead_step (hc : s.prog i = .call c k) {j : ι} {K : UUID}
    (h : HasRead (s.step (exec P) i e) j K) :
    HasRead s j K ∨ j = i ∧ (∃ tenantID id, c = .repo (.keys (.getByID tenantID id))) ∧
      (s.world.db.identityKeys.get? K).isSome := by
  obtain ⟨tenantID, id, key, hmem, hK⟩ := h
  by_cases hj : j = i
  · subst hj
    rw [Pool.hist_step_self hc] at hmem
    rcases List.mem_cons.mp hmem with hev | hold
    · obtain rfl : _ = c := congrArg Event.op hev
      have hread := (eq_of_heq (Event.mk.inj hev).2).symm
      obtain ⟨T, K', row, -, hK', hrow, -⟩ := getKeyByID_ok hread
      obtain rfl : K' = K := Option.some.inj (hK'.symm.trans hK)
      exact .inr ⟨rfl, ⟨tenantID, id, rfl⟩, Option.isSome_of_eq_some hrow⟩
    · exact .inl ⟨tenantID, id, key, hold, hK⟩
  · rw [Pool.hist_step_other hj] at hmem
    exact .inl ⟨tenantID, id, key, hmem, hK⟩

/-- A rotation links a key that its request has read to the one it has just inserted. -/
theorem rotated_justInserted (ho : Pool.Obeyed (exec P) (fun _ => rotationProtocol _) s)
    (hc : s.prog i = .call c k) {tenantID oldKeyID newKeyID : String} {K N : UUID}
    (hev : (⟨c, (exec P c e s.world).1⟩ : Ev Attrs) =
      ⟨.repo (.keys (.rotate tenantID oldKeyID newKeyID)), .ok ()⟩)
    (hK : UUID.ofText? oldKeyID = some K) (hN : UUID.ofText? newKeyID = some N) :
    JustInserted s i N ∧ HasRead s i K := by
  have hcall : Orderly (s.hist i) c := ho.call hc
  obtain rfl : c = _ := congrArg Event.op hev
  obtain ⟨key, created, rest, old, hhist, rfl, hread⟩ := hcall
  refine ⟨⟨key, created, rest, hhist, hN⟩, tenantID, oldKeyID, old, ?_, hK⟩
  rw [hhist]
  exact List.mem_cons_of_mem _ hread

theorem rotationInv_step (ho : Pool.Obeyed (exec P) (fun _ => rotationProtocol _) s)
    (hc : s.prog i = .call c k) (h : RotationInv s) : RotationInv (s.step (exec P) i e) := by
  have hstep := exec_keyStep P c e s.world
  rw [← Pool.world_step hc] at hstep
  have hkept : ∀ {K}, (s.world.db.identityKeys.get? K).isSome →
      ((s.step (exec P) i e).world.db.identityKeys.get? K).isSome := fun hK => hstep.isSome hK
  have hcreate : ∀ key x, (⟨c, (exec P c e s.world).1⟩ : Ev Attrs) =
      ⟨.repo (.keys (.create key)), .ok x⟩ → key.status ≠ .rotated := by
    intro key x hev
    have hcall : Orderly (s.hist i) c := ho.call hc
    obtain rfl : c = _ := congrArg Event.op hev
    rw [show key.status = .active from hcall]
    exact KeyStatus.noConfusion
  refine { h.toForest.step hstep hcreate ?_ with
    read := ?_, inserted := ?_, after := ?_, apart := ?_ }
  · intro tenantID oldKeyID newKeyID K N hev hK hN
    obtain ⟨hins, hread⟩ := rotated_justInserted ho hc hev hK hN
    obtain ⟨hsome, hfree⟩ := h.inserted i N hins
    exact ⟨hsome, h.after i N K hins hread, hfree⟩
  · intro j K hj
    rcases hasRead_step hc hj with hold | ⟨-, -, hK⟩
    · exact hkept (h.read j K hold)
    · exact hkept hK
  · intro j N hj
    rcases justInserted_step hc hj with ⟨hne, hold⟩ | ⟨rfl, key, x, hev, hN⟩
    · obtain ⟨hsome, hfree⟩ := h.inserted j N hold
      refine ⟨hkept hsome, fun K row' hrow' hlink => ?_⟩
      rcases hstep.link hrow' hlink with ⟨row, hrow, hN⟩ | ⟨_, _, _, hev, hK, hN, -⟩
      · exact hfree K row hrow hN
      · exact hne (h.apart j i N hold (rotated_justInserted ho hc hev hK hN).1)
    · -- nothing can have been linked to an identifier that was not in the table
      rw [hev] at hstep
      have hfresh := hstep.create_fresh hN
      obtain ⟨st, I, T, -, -, hins, rfl⟩ := hstep.create_ok
      obtain rfl : st.newID = N := Option.some.inj ((UUID.ofText?_toText _).symm.trans hN)
      refine ⟨Option.isSome_of_eq_some (Table.get?_insert?_self hins), fun K row' hrow' hlink => ?_⟩
      rcases hstep.link hrow' hlink with ⟨row, hrow, hN⟩ | ⟨_, _, _, hev', -⟩
      · have hsome := (h.later K row _ hrow hN).1
        rw [hfresh] at hsome
        cases hsome
      · cases hev'
  · intro j N K hj hread
    rcases justInserted_step hc hj with ⟨hne, hold⟩ | ⟨rfl, key, x, hev, hN⟩
    · rcases hasRead_step hc hread with hread | ⟨rfl, -⟩
      · rw [hstep.position (h.read j K hread), hstep.position (h.inserted j N hold).1]
        exact h.after j N K hold hread
      · exact absurd rfl hne
    · rcases hasRead_step hc hread with hread | ⟨-, ⟨tenantID, id, rfl⟩, -⟩
      · have hK := h.read j K hread
        rw [hstep.position hK]
        rw [hev] at hstep
        obtain ⟨st, I, T, -, -, hins, rfl⟩ := hstep.create_ok
        obtain rfl : st.newID = N := Option.some.inj ((UUID.ofText?_toText _).symm.trans hN)
        exact (Table.position_lt hK).trans_eq (Table.position_insert?_self hins).symm
      · cases congrArg Event.op hev
  · intro j j' N hj hj'
    rcases justInserted_step hc hj with ⟨hne, hold⟩ | ⟨rfl, key, x, hev, hN⟩
    · rcases justInserted_step hc hj' with ⟨hne', hold'⟩ | ⟨rfl, key, x, hev, hN⟩
      · exact h.apart j j' N hold hold'
      · rw [hev] at hstep
        have hsome := (h.inserted j N hold).1
        rw [hstep.create_fresh hN] at hsome
        cases hsome
    · rcases justInserted_step hc hj' with ⟨hne', hold'⟩ | ⟨rfl, _⟩
      · rw [hev] at hstep
        have hsome := (h.inserted j' N hold').1
        rw [hstep.create_fresh hN] at hsome
        cases hsome
      · rfl

end Step

/-- Whatever requests overlap and whatever fails: links lead to keys inserted later,
no two of them to the same key, and a rotated key has one; so from any key the links end. -/
theorem rotation_forest (P : Primitives Attrs) (w : World) (req : ι → Request Attrs)
    (s : Requests ι Attrs) (h0 : Forest w.db.identityKeys)
    (hs : Pool.Reach (exec P) (fun _ _ _ => True) (starting P w req) s) :
    Forest s.world.db.identityKeys ∧ ∀ K,
      s.world.db.identityKeys.follow KeyRow.rotatedTo (s.world.db.identityKeys.rows.length + 1) K =
        none ∧
      ∀ n, s.world.db.identityKeys.follow KeyRow.rotatedTo (n + 1) K ≠ some K := by
  have ho : Pool.Obeyed (exec P) (fun _ => rotationProtocol _) (starting P w req) :=
    fun i => obeys_links P (req i)
  have hinv : RotationInv s := by
    have hstart : RotationInv (starting P w req) :=
      { h0 with
        read := by rintro j K ⟨_, _, _, hmem, -⟩; cases hmem
        inserted := by rintro j N ⟨_, _, _, hhist, -⟩; cases hhist
        after := by rintro j N K ⟨_, _, _, hhist, -⟩; cases hhist
        apart := by rintro j j' N ⟨_, _, _, hhist, -⟩; cases hhist }
    induction hs with
    | refl => exact hstart
    | @step t i e hr _ ih =>
      rcases Pool.step_cases (exec P) t i with ⟨c, k, hc⟩ | hidle
      · exact rotationInv_step (hr.obeyed ho) hc ih
      · rw [hidle e]; exact ih
  exact ⟨hinv.toForest, fun K => ⟨hinv.later.ends K, fun n => hinv.later.acyclic n K⟩⟩

theorem forest_of_unlinked {keys : Keys}
    (h : ∀ row ∈ keys.rows, row.rotatedTo = none ∧ row.status ≠ .rotated) : Forest keys where
  later K row N hrow hN := by
    rw [(h row (Table.mem_of_get? hrow)).1] at hN
    cases hN
  distinct K K' row row' N hrow hrow' hN := by
    rw [(h row (Table.mem_of_get? hrow)).1] at hN
    cases hN
  linked K row hrow hstatus := absurd hstatus (h row (Table.mem_of_get? hrow)).2

/-- A rotation overtaken by a revocation of the same key: key 9 is linked to key 14. -/
theorem overtaken_rotation_forest :
    let s : Requests (Fin 2) Bytes := (starting plainPrimitives keyedWorld
        ![.rotateKey (UUID.ofNat 1).toText (UUID.ofNat 2).toText (UUID.ofNat 9).toText "",
          .revokeKey (UUID.ofNat 1).toText (UUID.ofNat 9).toText ""]).play (exec plainPrimitives)
      [(0, calm 10), (1, calm 11), (1, calm 12), (0, calm 13), (0, calm 13), (0, calm 14),
        (0, calm 15)]
    (s.world.db.identityKeys.get? (.ofNat 9)).map KeyRow.rotatedTo = some (some (.ofNat 14)) ∧
      Forest s.world.db.identityKeys := by
  intro s
  have h0 : Forest keyedWorld.db.identityKeys := by
    refine forest_of_unlinked fun row hrow => ?_
    rw [List.mem_singleton.mp hrow]
    exact ⟨rfl, KeyStatus.noConfusion⟩
  exact ⟨by decide +kernel, (rotation_forest plainPrimitives keyedWorld _ s h0
    (Pool.reach_play (fun _ _ _ => trivial) _)).1⟩

end Verion.Service
